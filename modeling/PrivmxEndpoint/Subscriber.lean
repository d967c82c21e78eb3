import PrivmxEndpoint.SubscriberImpl
import PrivmxEndpoint.ThrowingPrograms

/-!
# Subscribing to channels

`Subscriber` parses the queries of the caller, has the module check and rewrite
them, sends the channels to the server and looks for the answer of each.  An
answer is used for one channel only, so that repeated queries get different
subscriptions as long as the server returned enough of them (`Assigned`).
-/

namespace PrivmxEndpoint

open SubscriptionQueryObj

/-- `server::Subscription`. -/
structure Subscription where
  subscriptionId : Bytes
  channel : Bytes
  deriving DecidableEq

/-- How a call of the subscriber can fail. -/
inductive SubscriberException
  | query (exception : QueryException)
  /-- The request to the server failed. -/
  | request
  deriving DecidableEq

/-- What the module gives for the virtual methods `assertQuery` and `transform`:
which queries it accepts, the exception for the others, and how the loop of
`transform` changes a query. -/
structure SubscriberMethods where
  accepts : SubscriptionQueryObj → Bool
  invalidSubscriptionQuery : ErrorCode
  transformQuery : SubscriptionQueryObj → Except SubscriberException SubscriptionQueryObj

namespace SubscriberMethods

variable (methods : SubscriberMethods)

/-- The body of the loop of `assertQuery`. -/
def assertOne (query : SubscriptionQueryObj) : Except SubscriberException Unit :=
  if methods.accepts query then
    .ok ()
  else
    .error (.query (.core methods.invalidSubscriptionQuery []))

/-- `assertQuery`. -/
def assertQuery (subscriptionQueries : List SubscriptionQueryObj) :
    Except SubscriberException Unit :=
  subscriptionQueries.forM methods.assertOne

/-- The body of the loop of `transform`. -/
def transformOne (query : SubscriptionQueryObj) : Except SubscriberException Bytes := do
  let query ← methods.transformQuery query
  query.toSubscriptionQueryString.mapError .query

/-- `transform`. -/
def transform (subscriptionQueries : List SubscriptionQueryObj) :
    Except SubscriberException (List Bytes) :=
  subscriptionQueries.mapM methods.transformOne

end SubscriberMethods

/-! ### The modules -/

/-- `assertQuery` of most modules: one selector, and a path of two or three
components that begins with the module's name. -/
def acceptsModule (moduleName : Bytes) (query : SubscriptionQueryObj) : Bool :=
  query.selectors.length = 1 ∧ 2 ≤ query.channelPath.length ∧ query.channelPath.length ≤ 3 ∧
    query.channelPath[0]? = some moduleName

/-- `selectorsPushBack` of the type filter flag. -/
def pushContainerType (typeFilterFlag : Bytes) (query : SubscriptionQueryObj) :
    SubscriptionQueryObj :=
  { query with
    selectors := query.selectors ++
      [{ selectorKey := ascii "containerType", selectorValue := typeFilterFlag }] }

/-- The subscriber of a module with containers. -/
def containerSubscriber (moduleName typeFilterFlag : Bytes) (code : ErrorCode) :
    SubscriberMethods where
  accepts := acceptsModule moduleName
  invalidSubscriptionQuery := code
  transformQuery query := .ok (pushContainerType typeFilterFlag query)

namespace Core

/-- `core::SubscriberImpl`. -/
def subscriberMethods : SubscriberMethods where
  accepts := acceptsModule (ascii "context")
  invalidSubscriptionQuery := invalidSubscriptionQuery
  transformQuery query := .ok query

end Core

namespace Thread

/-- `thread::SubscriberImpl`. -/
def subscriberMethods : SubscriberMethods :=
  containerSubscriber (ascii "thread") (ascii "thread") ⟨0x00030018, by decide⟩

end Thread

namespace Store

/-- `store::SubscriberImpl`. -/
def subscriberMethods : SubscriberMethods :=
  containerSubscriber (ascii "store") (ascii "store") ⟨0x0004002D, by decide⟩

end Store

namespace Kvdb

/-- `kvdb::SubscriberImpl`. -/
def subscriberMethods : SubscriberMethods :=
  containerSubscriber (ascii "kvdb") (ascii "kvdb") ⟨0x00090014, by decide⟩

end Kvdb

namespace Stream

/-- `stream::SubscriberImpl`. -/
def subscriberMethods : SubscriberMethods :=
  containerSubscriber (ascii "streamroom") (ascii "stream") ⟨0x00080019, by decide⟩

end Stream

namespace Inbox

/-- `updateSubscriptionQuerySelectors`: the first selector of an inbox names its
thread instead, which `threadOfInbox` asks the server for. -/
def updateSubscriptionQuerySelectors (threadOfInbox : Bytes → Except SubscriberException Bytes) :
    List QuerySelector → Except SubscriberException (List QuerySelector)
  | [] => .ok []
  | s :: selectors =>
      if s.selectorKey = ascii (subscriberTables.selectorTypeName .INBOX_ID) then do
        let threadId ← threadOfInbox s.selectorValue
        return { s with selectorValue := threadId } :: selectors
      else do
        return s :: (← updateSubscriptionQuerySelectors threadOfInbox selectors)

/-- The body of the loop of `transform`: the entries of an inbox are messages of
its thread. -/
def transformQuery (threadOfInbox : Bytes → Except SubscriberException Bytes)
    (query : SubscriptionQueryObj) : Except SubscriberException SubscriptionQueryObj :=
  match query.channelPath with
  | [moduleName, itemName, eventTypeName] =>
      if moduleName = ascii "inbox" ∧ itemName = ascii "entries" then do
        let selectors ← updateSubscriptionQuerySelectors threadOfInbox query.selectors
        return pushContainerType (ascii "inbox")
          { channelPath := [ascii "thread", ascii "messages", eventTypeName]
            selectors := selectors }
      else
        .ok query
  | [moduleName, eventTypeName] =>
      if moduleName = ascii "inbox" ∧ eventTypeName = ascii "collectionChanged" then do
        let selectors ← updateSubscriptionQuerySelectors threadOfInbox query.selectors
        return pushContainerType (ascii "inbox")
          { channelPath := [ascii "thread", ascii "collectionChanged"]
            selectors := selectors }
      else
        .ok query
  | _ => .ok query

/-- `inbox::SubscriberImpl`. -/
def subscriberMethods (threadOfInbox : Bytes → Except SubscriberException Bytes) :
    SubscriberMethods where
  accepts := acceptsModule (ascii "inbox")
  invalidSubscriptionQuery := ⟨0x00070024, by decide⟩
  transformQuery := transformQuery threadOfInbox

end Inbox

namespace Event

/-- `event::SubscriberImpl`, whose channels are those of the context. -/
def subscriberMethods : SubscriberMethods where
  accepts query := query.selectors.length = 1 ∧ query.channelPath.length = 3 ∧
    query.channelPath[0]? = some (ascii "event") ∧ query.channelPath[1]? = some (ascii "custom")
  invalidSubscriptionQuery := ⟨0x00090006, by decide⟩
  transformQuery query :=
    .ok { query with channelPath := query.channelPath.set 0 (ascii "context") }

end Event

/-! ### The subscriber -/

/-- `Subscriber`. -/
structure Subscriber where
  /-- `_subscriptionIdToSubscriptionQuery`. -/
  subscriptionQueries : AList (fun _ : Bytes => Bytes)

namespace Subscriber

/-- `SubscribeToChannelsModel.channels` for the given queries. -/
def requestChannels (methods : SubscriberMethods) (subscriptionQueries : List Bytes)
    (force : Bool) : Except SubscriberException (List Bytes) := do
  let parsedSubscriptionQueries ← (subscriptionQueries.mapM parse).mapError .query
  if force = false then do
    methods.assertQuery parsedSubscriptionQueries
    methods.transform parsedSubscriptionQueries
  else
    return subscriptionQueries

/-- The loop over the channels: the first answer for a channel is taken out of
the list. -/
def matchSubscriptions : List Bytes → List Subscription → AList (fun _ : Bytes => Bytes) →
    List Bytes × AList (fun _ : Bytes => Bytes)
  | [], _, queries => ([], queries)
  | channel :: channels, subscriptions, queries =>
      match subscriptions.find? fun s => channel = s.channel with
      | some s =>
          let (result, queries) := matchSubscriptions channels
            (subscriptions.eraseP fun s => channel = s.channel)
            (queries.insert s.subscriptionId s.channel)
          (s.subscriptionId :: result, queries)
      | none =>
          let (result, queries) := matchSubscriptions channels subscriptions queries
          ([] :: result, queries)

/-- `subscribeFor`, where `answer` is what the gateway returns or throws. -/
def subscribeFor (methods : SubscriberMethods) (subscriber : Subscriber)
    (subscriptionQueries : List Bytes) (force : Bool)
    (answer : Except SubscriberException (List Subscription)) :
    Except SubscriberException (List Bytes × Subscriber) := do
  let channels ← requestChannels methods subscriptionQueries force
  let subscriptions ← answer
  let (result, queries) := matchSubscriptions channels subscriptions subscriber.subscriptionQueries
  return (result, { subscriptionQueries := queries })

/-- `unsubscribeFrom`. -/
def unsubscribeFrom (subscriber : Subscriber) (subscriptionIds : List Bytes)
    (answer : Except SubscriberException Unit) : Except SubscriberException Subscriber := do
  answer
  return { subscriptionQueries :=
    subscriptionIds.foldl (fun queries id => queries.erase id) subscriber.subscriptionQueries }

/-- The channel of one query. -/
def channelOf (methods : SubscriberMethods) (force : Bool) (subscriptionQuery : Bytes) :
    Except SubscriberException Bytes := do
  let query ← (parse subscriptionQuery).mapError .query
  if force = false then do
    methods.assertOne query
    methods.transformOne query
  else
    return subscriptionQuery

/-- A query that was accepted and rewritten. -/
theorem channelOf_eq_ok {methods : SubscriberMethods} {subscriptionQuery channel : Bytes}
    {query : SubscriptionQueryObj} (hparse : parse subscriptionQuery = .ok query)
    (hassert : methods.assertOne query = .ok ())
    (htransform : methods.transformOne query = .ok channel) :
    channelOf methods false subscriptionQuery = .ok channel := by
  rw [channelOf, hparse]
  change (methods.assertOne query >>= fun _ => methods.transformOne query) = .ok channel
  rw [hassert]
  exact htransform

/-- The channels are those of the queries, in order. -/
theorem forall₂_of_requestChannels {methods : SubscriberMethods} {queries channels : List Bytes}
    {force : Bool} (h : requestChannels methods queries force = .ok channels) :
    List.Forall₂ (fun query channel => channelOf methods force query = .ok channel)
      queries channels := by
  unfold requestChannels at h
  cases hparsed : queries.mapM parse with
  | error e =>
      rw [hparsed] at h
      cases h
  | ok parsed =>
      have hparse := Throwing.mapM_eq_ok_iff.mp hparsed
      rw [hparsed] at h
      clear hparsed
      cases force with
      | true =>
          obtain rfl := Except.ok.inj h
          clear h
          induction hparse with
          | nil => exact .nil
          | cons hq _ ih =>
              refine .cons ?_ ih
              rw [channelOf, hq]
              rfl
      | false =>
          change (methods.assertQuery parsed >>= fun _ => methods.transform parsed) =
            .ok channels at h
          cases hassert : methods.assertQuery parsed with
          | error e =>
              rw [hassert] at h
              cases h
          | ok u =>
              rw [hassert] at h
              have htransform := Throwing.mapM_eq_ok_iff.mp h
              clear h
              induction hparse generalizing channels with
              | nil =>
                  cases htransform
                  exact .nil
              | @cons query q queries qs hq _ ih =>
                  change (methods.assertOne q >>= fun _ => methods.assertQuery qs) =
                    .ok u at hassert
                  cases htransform with
                  | cons hone hrest =>
                      cases haccept : methods.assertOne q with
                      | error e =>
                          rw [haccept] at hassert
                          cases hassert
                      | ok v =>
                          rw [haccept] at hassert
                          exact .cons (channelOf_eq_ok hq haccept hone) (ih hassert hrest)

/-- Every channel has got an id: that of an answer for it which no other channel
has got, or the empty one if no such answer is left. -/
def Assigned (channels ids : List Bytes) (subscriptions : List Subscription) : Prop :=
  ∃ (taken : List (Option Subscription)) (left : List Subscription),
    (taken.reduceOption ++ left).Perm subscriptions ∧
    ids = taken.map (fun s => (s.map Subscription.subscriptionId).getD []) ∧
    List.Forall₂ (fun channel s => match s with
      | some s => s.channel = channel
      | none => ∀ s ∈ left, s.channel ≠ channel) channels taken

/-- The entry that a search finds and the list without it. -/
theorem perm_cons_eraseP {p : Subscription → Bool} {s : Subscription}
    {subscriptions : List Subscription} (hfind : subscriptions.find? p = some s) :
    (s :: subscriptions.eraseP p).Perm subscriptions := by
  obtain ⟨hp, front, back, rfl, hfront⟩ := List.find?_eq_some_iff_append.mp hfind
  have hnone : ∀ x ∈ front, ¬ p x = true := by
    intro x hx
    simpa using hfront x hx
  rw [List.eraseP_append_right _ hnone, List.eraseP_cons_of_pos hp]
  exact List.perm_middle.symm

/-- The loop assigns ids. -/
theorem assigned_matchSubscriptions (channels : List Bytes) (subscriptions : List Subscription)
    (queries : AList (fun _ : Bytes => Bytes)) :
    Assigned channels (matchSubscriptions channels subscriptions queries).1 subscriptions := by
  induction channels generalizing subscriptions queries with
  | nil => exact ⟨[], subscriptions, List.Perm.refl _, rfl, .nil⟩
  | cons channel channels ih =>
      unfold matchSubscriptions
      cases hfind : subscriptions.find? fun s => decide (channel = s.channel) with
      | some s =>
          obtain ⟨taken, left, hperm, hids, hfor⟩ :=
            ih (subscriptions.eraseP fun s => channel = s.channel)
              (queries.insert s.subscriptionId s.channel)
          refine ⟨some s :: taken, left, ?_, ?_, .cons ?_ hfor⟩
          · exact (hperm.cons s).trans (perm_cons_eraseP hfind)
          · exact congrArg (s.subscriptionId :: ·) hids
          · have hchannel := List.find?_some hfind
            exact (of_decide_eq_true hchannel).symm
      | none =>
          obtain ⟨taken, left, hperm, hids, hfor⟩ := ih subscriptions queries
          refine ⟨none :: taken, left, ?_, ?_, .cons ?_ hfor⟩
          · exact hperm
          · exact congrArg ([] :: ·) hids
          · intro s hs heq
            -- what is left was there from the start
            have hmem : s ∈ subscriptions := hperm.subset (List.mem_append_right _ hs)
            have hnot := List.find?_eq_none.mp hfind s hmem
            exact hnot (decide_eq_true heq.symm)

end Subscriber

end PrivmxEndpoint
