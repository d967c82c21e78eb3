import PrivmxEndpoint.GuardedRuns
import PrivmxEndpoint.ListRemoval
import PrivmxEndpoint.Subscriber

/-!
# Which listener gets which notification

The API objects of a connection share one `EventMiddleware`.  An object hands
the ids of its subscriptions to its listener there, and takes them back when it
unsubscribes; a notification goes to the listeners that hold one of its ids.

`Holdings` is what a listener should hold: a multiset of ids.  The code follows
it (`SubscribedClient.subscription_delivery`) except when it takes back a repeated id: the removal
shifts the ids that are still to be taken back and loses some of them
(`SubscribedClient.subscription_delivery_fails`).
-/

namespace PrivmxEndpoint

open ListRemoval Runs

/-- An entry of `_notificationsListeners`. -/
structure NotificationListener where
  /-- The `std::function` is not empty. -/
  callback : Bool
  subscriptionIds : List Bytes

namespace NotificationListener

/-- The calls of the callback for the given ids of a notification: the loop
returns after the first. -/
def calls (listener : NotificationListener) : List Bytes → ℕ
  | [] => 0
  | s :: subscriptions =>
      if s ∈ listener.subscriptionIds then
        if listener.callback then 1 else listener.calls subscriptions
      else
        listener.calls subscriptions

theorem calls_le_one (listener : NotificationListener) (subscriptions : List Bytes) :
    listener.calls subscriptions ≤ 1 := by
  induction subscriptions with
  | nil => exact Nat.zero_le 1
  | cons s subscriptions ih =>
      unfold calls
      split
      · split
        · exact Nat.le_refl 1
        · exact ih
      · exact ih

theorem calls_pos_iff {listener : NotificationListener} {subscriptions : List Bytes} :
    0 < listener.calls subscriptions ↔
      listener.callback = true ∧ ∃ s ∈ subscriptions, s ∈ listener.subscriptionIds := by
  induction subscriptions with
  | nil => simp [calls]
  | cons s subscriptions ih =>
      unfold calls
      rw [List.exists_mem_cons_iff]
      by_cases hs : s ∈ listener.subscriptionIds
      · cases hcallback : listener.callback with
        | true => simp [hs]
        | false =>
            rw [if_pos hs, if_neg (by simp), ih]
            simp [hcallback]
      · rw [if_neg hs, ih]
        simp [hs]

end NotificationListener

/-- The part of `EventMiddleware` that is about notifications. -/
structure EventMiddleware where
  /-- `_id`, an `atomic_int`. -/
  nextId : ℤ
  notificationsListeners : AList (fun _ : ℤ => NotificationListener)

namespace EventMiddleware

/-- `ThreadSaveMap::updateValueIfExist`. -/
def updateValueIfExist (m : EventMiddleware) (id : ℤ)
    (f : NotificationListener → NotificationListener) : EventMiddleware :=
  match m.notificationsListeners.lookup id with
  | some listener =>
      { m with notificationsListeners := m.notificationsListeners.insert id (f listener) }
  | none => m

/-- `addNotificationEventListener`, which returns the id. -/
def addNotificationEventListener (m : EventMiddleware) (callback : Bool) :
    EventMiddleware × ℤ :=
  ({ nextId := (m.nextId + 1).bmod (2 ^ 32)
     notificationsListeners := m.notificationsListeners.insert m.nextId
      { callback := callback, subscriptionIds := [] } },
    m.nextId)

/-- `addConnectedEventListener` and `addDisconnectedEventListener` take their
ids from the same counter. -/
def addOtherEventListener (m : EventMiddleware) : EventMiddleware :=
  { m with nextId := (m.nextId + 1).bmod (2 ^ 32) }

/-- `removeNotificationEventListener`. -/
def removeNotificationEventListener (m : EventMiddleware) (id : ℤ) : EventMiddleware :=
  { m with notificationsListeners := m.notificationsListeners.erase id }

/-- `notificationEventListenerAddSubscriptionIds`. -/
def notificationEventListenerAddSubscriptionIds (m : EventMiddleware) (id : ℤ)
    (subscriptionIds : List Bytes) : EventMiddleware :=
  m.updateValueIfExist id fun listener =>
    { listener with subscriptionIds := listener.subscriptionIds ++ subscriptionIds }

/-- `notificationEventListenerRemoveSubscriptionIds`, where `moved` is what a
move leaves of a string. -/
def notificationEventListenerRemoveSubscriptionIds (moved : Bytes → Bytes) (m : EventMiddleware)
    (id : ℤ) (subscriptionIds : List Bytes) : EventMiddleware :=
  m.updateValueIfExist id fun listener =>
    { listener with
      subscriptionIds := removeItems moved listener.subscriptionIds subscriptionIds }

/-- `emitNotificationEvent`: the listeners that are called, once for each call. -/
def emitNotificationEvent (m : EventMiddleware) (subscriptions : List Bytes) : List ℤ :=
  m.notificationsListeners.entries.flatMap fun e =>
    List.replicate (e.2.calls subscriptions) e.1

/-- No listener is called twice. -/
theorem nodup_emitNotificationEvent (m : EventMiddleware) (subscriptions : List Bytes) :
    (m.emitNotificationEvent subscriptions).Nodup := by
  refine List.nodup_flatMap.mpr ⟨?_, ?_⟩
  · intro e _
    rw [List.nodup_replicate]
    exact e.2.calls_le_one subscriptions
  · have hkeys := List.nodupKeys_iff_pairwise.mp m.notificationsListeners.nodupKeys
    refine hkeys.imp fun {e e'} hne => ?_
    intro id hid hid'
    exact hne ((List.eq_of_mem_replicate hid).symm.trans (List.eq_of_mem_replicate hid'))

/-- The listeners that are called. -/
theorem mem_emitNotificationEvent {m : EventMiddleware} {subscriptions : List Bytes} {id : ℤ} :
    id ∈ m.emitNotificationEvent subscriptions ↔
      ∃ listener, m.notificationsListeners.lookup id = some listener ∧
        listener.callback = true ∧ ∃ s ∈ subscriptions, s ∈ listener.subscriptionIds := by
  unfold emitNotificationEvent
  constructor
  · intro hid
    obtain ⟨e, he, hmem⟩ := List.mem_flatMap.mp hid
    obtain ⟨hpos, rfl⟩ := List.mem_replicate.mp hmem
    exact ⟨e.2, AList.mem_lookup_iff.mpr he,
      NotificationListener.calls_pos_iff.mp (Nat.pos_of_ne_zero hpos)⟩
  · intro h
    obtain ⟨listener, hlookup, hcalls⟩ := h
    have hpos := NotificationListener.calls_pos_iff.mpr hcalls
    exact List.mem_flatMap.mpr ⟨⟨id, listener⟩, AList.mem_lookup_iff.mp hlookup,
      List.mem_replicate.mpr ⟨hpos.ne', rfl⟩⟩

end EventMiddleware

/-! ### What a listener should hold -/

/-- For each listener, whether it has a callback and which ids it holds. -/
abbrev Holdings := ℤ → Option (Bool × Multiset Bytes)

/-- The ids of a listener change. -/
def Holdings.change (h : Holdings) (id : ℤ) (f : Multiset Bytes → Multiset Bytes) : Holdings :=
  Function.update h id ((h id).map fun held => (held.1, f held.2))

/-- The calls of the application and of the API objects, with what the server
answers.  `api` is the number of the API object. -/
inductive DeliveryCall
  | addNotificationEventListener (callback : Bool)
  | addOtherEventListener
  | removeNotificationEventListener (id : ℤ)
  | subscribeFor (api : ℕ) (id : ℤ) (subscriptionQueries : List Bytes) (force : Bool)
      (answer : Except SubscriberException (List Subscription))
  | unsubscribeFrom (api : ℕ) (id : ℤ) (subscriptionIds : List Bytes)
      (answer : Except SubscriberException Unit)
  | notification (subscriptions : List Bytes)

/-- What a call gives. -/
inductive DeliveryOutcome
  | listener (id : ℤ)
  | subscribed (subscriptionIds : List Bytes)
  | called (listeners : List ℤ)
  | done
  | failed (exception : SubscriberException)

/-- What a call may give and how it changes the holdings. -/
inductive Holdings.Step (methods : ℕ → SubscriberMethods) :
    Holdings → DeliveryCall × DeliveryOutcome → Holdings → Prop
  | added (h : Holdings) (callback : Bool) (id : ℤ) :
      Step methods h (.addNotificationEventListener callback, .listener id)
        (Function.update h id (some (callback, 0)))
  | other (h : Holdings) : Step methods h (.addOtherEventListener, .done) h
  | removed (h : Holdings) (id : ℤ) :
      Step methods h (.removeNotificationEventListener id, .done) (Function.update h id none)
  /-- The channels are those of the queries, in order, and each gets its own
  subscription if the server returned enough of them. -/
  | subscribed (h : Holdings) {api : ℕ} (id : ℤ) {subscriptionQueries channels ids : List Bytes}
      {force : Bool} {subscriptions : List Subscription}
      (hchannels : List.Forall₂ (fun query channel =>
        Subscriber.channelOf (methods api) force query = .ok channel) subscriptionQueries channels)
      (hids : Subscriber.Assigned channels ids subscriptions) :
      Step methods h (.subscribeFor api id subscriptionQueries force (.ok subscriptions),
        .subscribed ids) (h.change id (· + ids))
  | subscribeFailed (h : Holdings) {api : ℕ} (id : ℤ) {subscriptionQueries : List Bytes}
      {force : Bool} {answer : Except SubscriberException (List Subscription)}
      {e : SubscriberException}
      (hfail : Subscriber.requestChannels (methods api) subscriptionQueries force = .error e ∨
        answer = .error e) :
      Step methods h (.subscribeFor api id subscriptionQueries force answer, .failed e) h
  | unsubscribed (h : Holdings) (api : ℕ) (id : ℤ) (ids : List Bytes) :
      Step methods h (.unsubscribeFrom api id ids (.ok ()), .done) (h.change id (· - ids))
  | unsubscribeFailed (h : Holdings) (api : ℕ) (id : ℤ) (ids : List Bytes)
      (e : SubscriberException) :
      Step methods h (.unsubscribeFrom api id ids (.error e), .failed e) h
  | notified (h : Holdings) {subscriptions : List Bytes} {listeners : List ℤ}
      (honce : listeners.Nodup)
      (hwho : ∀ id, id ∈ listeners ↔
        ∃ held, h id = some (true, held) ∧ ∃ s ∈ subscriptions, s ∈ held) :
      Step methods h (.notification subscriptions, .called listeners) h

/-! ### The code follows -/

namespace EventMiddleware

/-- What the listeners hold. -/
def holdings (m : EventMiddleware) : Holdings :=
  fun id => (m.notificationsListeners.lookup id).map
    fun listener => (listener.callback, (listener.subscriptionIds : Multiset Bytes))

/-- An update of the ids of one listener. -/
theorem holdings_updateValueIfExist {m : EventMiddleware} {id : ℤ}
    {f : NotificationListener → NotificationListener} {g : Multiset Bytes → Multiset Bytes}
    (hf : ∀ listener, m.notificationsListeners.lookup id = some listener →
      (f listener).callback = listener.callback ∧
        ((f listener).subscriptionIds : Multiset Bytes) = g listener.subscriptionIds) :
    (m.updateValueIfExist id f).holdings = m.holdings.change id g := by
  funext other
  unfold Holdings.change updateValueIfExist
  cases hlookup : m.notificationsListeners.lookup id with
  | none =>
      by_cases hother : other = id
      · subst hother
        rw [Function.update_self]
        simp only [holdings, hlookup, Option.map_none]
      · rw [Function.update_of_ne hother]
  | some listener =>
      obtain ⟨hcallback, hids⟩ := hf listener hlookup
      by_cases hother : other = id
      · subst hother
        rw [Function.update_self]
        simp only [holdings, hlookup, AList.lookup_insert, Option.map_some, hcallback, hids]
      · rw [Function.update_of_ne hother]
        simp only [holdings, AList.lookup_insert_ne hother]

theorem holdings_addNotificationEventListener (m : EventMiddleware) (callback : Bool) :
    (m.addNotificationEventListener callback).1.holdings =
      Function.update m.holdings m.nextId (some (callback, 0)) := by
  funext other
  by_cases hother : other = m.nextId
  · subst hother
    rw [Function.update_self]
    simp only [holdings, addNotificationEventListener, AList.lookup_insert, Option.map_some]
    rfl
  · rw [Function.update_of_ne hother]
    simp only [holdings, addNotificationEventListener, AList.lookup_insert_ne hother]

theorem holdings_removeNotificationEventListener (m : EventMiddleware) (id : ℤ) :
    (m.removeNotificationEventListener id).holdings = Function.update m.holdings id none := by
  funext other
  by_cases hother : other = id
  · subst hother
    rw [Function.update_self]
    simp only [holdings, removeNotificationEventListener, AList.lookup_erase, Option.map_none]
  · rw [Function.update_of_ne hother]
    simp only [holdings, removeNotificationEventListener, AList.lookup_erase_ne hother]

theorem holdings_addSubscriptionIds (m : EventMiddleware) (id : ℤ) (ids : List Bytes) :
    (m.notificationEventListenerAddSubscriptionIds id ids).holdings =
      m.holdings.change id (· + ids) :=
  holdings_updateValueIfExist fun _ _ => ⟨rfl, rfl⟩

theorem holdings_removeSubscriptionIds {moved : Bytes → Bytes} {m : EventMiddleware} {id : ℤ}
    {ids : List Bytes}
    (h : ∀ listener, m.notificationsListeners.lookup id = some listener →
      Erasable listener.subscriptionIds ids) :
    (m.notificationEventListenerRemoveSubscriptionIds moved id ids).holdings =
      m.holdings.change id (· - ids) := by
  refine holdings_updateValueIfExist fun listener hlookup => ⟨rfl, ?_⟩
  rw [removeItems_eq_diff moved (h listener hlookup), Multiset.coe_sub]

/-- The listeners that are called hold one of the ids. -/
theorem mem_emit_iff_holdings {m : EventMiddleware} {subscriptions : List Bytes} {id : ℤ} :
    id ∈ m.emitNotificationEvent subscriptions ↔
      ∃ held, m.holdings id = some (true, held) ∧ ∃ s ∈ subscriptions, s ∈ held := by
  rw [mem_emitNotificationEvent]
  constructor
  · intro h
    obtain ⟨listener, hlookup, hcallback, hs⟩ := h
    refine ⟨listener.subscriptionIds, ?_, hs⟩
    rw [holdings, hlookup, Option.map_some, hcallback]
  · intro h
    obtain ⟨held, hheld, hs⟩ := h
    obtain ⟨listener, hlookup, heq⟩ := Option.map_eq_some_iff.mp hheld
    obtain ⟨hcallback, rfl⟩ := Prod.mk.inj heq
    exact ⟨listener, hlookup, hcallback, hs⟩

end EventMiddleware

/-- The API objects of a connection and what they share. -/
structure SubscribedClient where
  subscribers : ℕ → Subscriber
  eventMiddleware : EventMiddleware

namespace SubscribedClient

/-- `subscribeFor` of an API object with a listener. -/
def subscribeFor (methods : ℕ → SubscriberMethods) (c : SubscribedClient) (api : ℕ) (id : ℤ)
    (subscriptionQueries : List Bytes) (force : Bool)
    (answer : Except SubscriberException (List Subscription)) :
    Except SubscriberException (List Bytes × SubscribedClient) := do
  let (result, subscriber) ←
    (c.subscribers api).subscribeFor (methods api) subscriptionQueries force answer
  return (result,
    { subscribers := Function.update c.subscribers api subscriber
      eventMiddleware :=
        c.eventMiddleware.notificationEventListenerAddSubscriptionIds id result })

/-- `unsubscribeFrom` of an API object with a listener. -/
def unsubscribeFrom (moved : Bytes → Bytes) (c : SubscribedClient) (api : ℕ) (id : ℤ)
    (subscriptionIds : List Bytes) (answer : Except SubscriberException Unit) :
    Except SubscriberException SubscribedClient := do
  let subscriber ← (c.subscribers api).unsubscribeFrom subscriptionIds answer
  return {
    subscribers := Function.update c.subscribers api subscriber
    eventMiddleware :=
      c.eventMiddleware.notificationEventListenerRemoveSubscriptionIds moved id subscriptionIds }

/-- One call. -/
def run (methods : ℕ → SubscriberMethods) (moved : Bytes → Bytes) (c : SubscribedClient) :
    DeliveryCall → SubscribedClient × DeliveryOutcome
  | .addNotificationEventListener callback =>
      let (eventMiddleware, id) := c.eventMiddleware.addNotificationEventListener callback
      ({ c with eventMiddleware := eventMiddleware }, .listener id)
  | .addOtherEventListener =>
      ({ c with eventMiddleware := c.eventMiddleware.addOtherEventListener }, .done)
  | .removeNotificationEventListener id =>
      ({ c with eventMiddleware := c.eventMiddleware.removeNotificationEventListener id }, .done)
  | .subscribeFor api id subscriptionQueries force answer =>
      match c.subscribeFor methods api id subscriptionQueries force answer with
      | .ok (result, c') => (c', .subscribed result)
      | .error e => (c, .failed e)
  | .unsubscribeFrom api id subscriptionIds answer =>
      match c.unsubscribeFrom moved api id subscriptionIds answer with
      | .ok c' => (c', .done)
      | .error e => (c, .failed e)
  | .notification subscriptions =>
      (c, .called (c.eventMiddleware.emitNotificationEvent subscriptions))

/-- The steps of the code. -/
def Step (methods : ℕ → SubscriberMethods) (moved : Bytes → Bytes) (c : SubscribedClient)
    (label : DeliveryCall × DeliveryOutcome) (c' : SubscribedClient) : Prop :=
  c.run methods moved label.1 = (c', label.2)

/-- No call takes back ids whose further occurrences do not stand at the end. -/
def TakesBack (c : SubscribedClient) (call : DeliveryCall) : Prop :=
  match call with
  | .unsubscribeFrom _ id subscriptionIds _ =>
      ∀ listener, c.eventMiddleware.notificationsListeners.lookup id = some listener →
        Erasable listener.subscriptionIds subscriptionIds
  | _ => True

/-- Ids without repetitions can always be taken back. -/
theorem takesBack_of_nodup (c : SubscribedClient) (api : ℕ) (id : ℤ)
    {subscriptionIds : List Bytes} (h : subscriptionIds.Nodup)
    (answer : Except SubscriberException Unit) :
    TakesBack c (.unsubscribeFrom api id subscriptionIds answer) :=
  fun _ _ => Erasable.of_nodup h

/-- A call that subscribed. -/
theorem subscribeFor_eq_ok {methods : ℕ → SubscriberMethods} {c : SubscribedClient} {api : ℕ}
    {id : ℤ} {subscriptionQueries : List Bytes} {force : Bool}
    {answer : Except SubscriberException (List Subscription)} {r : List Bytes × SubscribedClient}
    (h : c.subscribeFor methods api id subscriptionQueries force answer = .ok r) :
    ∃ channels subscriptions,
      Subscriber.requestChannels (methods api) subscriptionQueries force = .ok channels ∧
        answer = .ok subscriptions ∧ Subscriber.Assigned channels r.1 subscriptions ∧
        r.2.eventMiddleware.holdings = c.eventMiddleware.holdings.change id (· + r.1) := by
  unfold subscribeFor Subscriber.subscribeFor at h
  cases hchannels : Subscriber.requestChannels (methods api) subscriptionQueries force with
  | error e =>
      rw [hchannels] at h
      cases h
  | ok channels =>
      rw [hchannels] at h
      cases answer with
      | error e => cases h
      | ok subscriptions =>
          obtain rfl := Except.ok.inj h
          exact ⟨channels, subscriptions, rfl, rfl,
            Subscriber.assigned_matchSubscriptions channels subscriptions _,
            c.eventMiddleware.holdings_addSubscriptionIds id _⟩

/-- A call that did not subscribe. -/
theorem subscribeFor_eq_error {methods : ℕ → SubscriberMethods} {c : SubscribedClient} {api : ℕ}
    {id : ℤ} {subscriptionQueries : List Bytes} {force : Bool}
    {answer : Except SubscriberException (List Subscription)} {e : SubscriberException}
    (h : c.subscribeFor methods api id subscriptionQueries force answer = .error e) :
    Subscriber.requestChannels (methods api) subscriptionQueries force = .error e ∨
      answer = .error e := by
  unfold subscribeFor Subscriber.subscribeFor at h
  cases hchannels : Subscriber.requestChannels (methods api) subscriptionQueries force with
  | error e' =>
      rw [hchannels] at h
      obtain rfl := Except.error.inj h
      exact Or.inl rfl
  | ok channels =>
      rw [hchannels] at h
      cases answer with
      | error e' =>
          obtain rfl := Except.error.inj h
          exact Or.inr rfl
      | ok subscriptions => cases h

/-- Every call does what it may do. -/
theorem run_allowed (methods : ℕ → SubscriberMethods) (moved : Bytes → Bytes)
    (c : SubscribedClient) {call : DeliveryCall} (htakes : TakesBack c call) :
    Holdings.Step methods c.eventMiddleware.holdings (call, (c.run methods moved call).2)
      (c.run methods moved call).1.eventMiddleware.holdings := by
  cases call with
  | addNotificationEventListener callback =>
      dsimp only [run]
      rw [EventMiddleware.holdings_addNotificationEventListener]
      exact .added _ callback _
  | addOtherEventListener => exact .other _
  | removeNotificationEventListener id =>
      dsimp only [run]
      rw [EventMiddleware.holdings_removeNotificationEventListener]
      exact .removed _ id
  | subscribeFor api id subscriptionQueries force answer =>
      dsimp only [run]
      cases hresult : c.subscribeFor methods api id subscriptionQueries force answer with
      | error e => exact .subscribeFailed _ id (subscribeFor_eq_error hresult)
      | ok r =>
          obtain ⟨channels, subscriptions, hchannels, rfl, hids, hheld⟩ :=
            subscribeFor_eq_ok hresult
          dsimp only
          rw [hheld]
          exact .subscribed _ id (Subscriber.forall₂_of_requestChannels hchannels) hids
  | unsubscribeFrom api id subscriptionIds answer =>
      cases answer with
      | error e => exact .unsubscribeFailed _ api id subscriptionIds e
      | ok u =>
          have hheld : (c.eventMiddleware.notificationEventListenerRemoveSubscriptionIds moved id
              subscriptionIds).holdings = c.eventMiddleware.holdings.change id
                (· - subscriptionIds) := EventMiddleware.holdings_removeSubscriptionIds htakes
          change Holdings.Step methods _ (.unsubscribeFrom api id subscriptionIds (.ok ()), .done)
            (c.eventMiddleware.notificationEventListenerRemoveSubscriptionIds moved id
              subscriptionIds).holdings
          rw [hheld]
          exact .unsubscribed _ api id subscriptionIds
  | notification subscriptions =>
      exact .notified _ (c.eventMiddleware.nodup_emitNotificationEvent subscriptions)
        fun id => EventMiddleware.mem_emit_iff_holdings

/-- **Subscription delivery.**  If no call takes back ids whose further
occurrences do not stand at the end, every run assigns the subscriptions, keeps
the ids of the listeners and calls the listeners as it should. -/
theorem subscription_delivery {methods : ℕ → SubscriberMethods} {moved : Bytes → Bytes}
    {c c' : SubscribedClient} {labels : List (DeliveryCall × DeliveryOutcome)}
    (hrun : Run (guarded (fun c label => TakesBack c label.1) (Step methods moved)) c labels c') :
    Run (Holdings.Step methods) c.eventMiddleware.holdings labels
      c'.eventMiddleware.holdings := by
  refine hrun.refines (fun c => c.eventMiddleware.holdings) fun s label t h => ?_
  have hallowed := run_allowed methods moved s h.1
  rw [h.2] at hallowed
  exact hallowed

/-- A client of threads without listeners. -/
def sampleClient : SubscribedClient where
  subscribers _ := { subscriptionQueries := ∅ }
  eventMiddleware := { nextId := 0, notificationsListeners := ∅ }

/-- Two subscriptions, the first of them made twice. -/
def sampleQueries : List Bytes :=
  [ascii "thread/create|contextId=a", ascii "thread/create|contextId=a",
    ascii "thread/create|contextId=b"]

/-- The server answers a repeated query with the same id. -/
def sampleAnswer : List Subscription :=
  [{ subscriptionId := [2], channel := ascii "thread/create|contextId=b,containerType=thread" },
    { subscriptionId := [1], channel := ascii "thread/create|contextId=a,containerType=thread" },
    { subscriptionId := [1], channel := ascii "thread/create|contextId=a,containerType=thread" }]

/-- A listener is added, subscribes and takes ids back. -/
def sampleLabels (takenBack : List Bytes) : List (DeliveryCall × DeliveryOutcome) :=
  [(.addNotificationEventListener true, .listener 0),
    (.subscribeFor 0 0 sampleQueries false (.ok sampleAnswer), .subscribed [[1], [1], [2]]),
    (.unsubscribeFrom 0 0 takenBack (.ok ()), .done)]

/-- The client after such a run. -/
def sampleEnd (takenBack : List Bytes) : SubscribedClient :=
  (sampleLabels takenBack).foldl
    (fun c label => (c.run (fun _ => Thread.subscriberMethods) (fun _ => []) label.1).1)
    sampleClient

theorem subscription_delivery_sample :
    Run (Holdings.Step fun _ => Thread.subscriberMethods)
      sampleClient.eventMiddleware.holdings (sampleLabels [[2], [1], [1]])
      (sampleEnd [[2], [1], [1]]).eventMiddleware.holdings := by
  have hrun : Run (guarded (fun c label => TakesBack c label.1)
      (Step (fun _ => Thread.subscriberMethods) fun _ => [])) sampleClient
      (sampleLabels [[2], [1], [1]]) (sampleEnd [[2], [1], [1]]) := by
    refine .cons ⟨trivial, rfl⟩ (.cons ⟨trivial, rfl⟩ (.cons ⟨?_, rfl⟩ (.nil _)))
    intro listener hlookup
    obtain rfl := Option.some.inj hlookup
    decide
  exact subscription_delivery hrun

/-- The listener keeps an id of which both occurrences were taken back. -/
theorem subscription_delivery_fails :
    Run (Step (fun _ => Thread.subscriberMethods) fun _ => []) sampleClient
        (sampleLabels [[1], [1], [2]]) (sampleEnd [[1], [1], [2]]) ∧
      ¬ Run (Holdings.Step fun _ => Thread.subscriberMethods)
        sampleClient.eventMiddleware.holdings (sampleLabels [[1], [1], [2]])
        (sampleEnd [[1], [1], [2]]).eventMiddleware.holdings := by
  refine ⟨.cons rfl (.cons rfl (.cons rfl (.nil _))), ?_⟩
  have hkeeps : (sampleEnd [[1], [1], [2]]).eventMiddleware.holdings 0 =
      some (true, {([1] : Bytes)}) := rfl
  generalize (sampleEnd [[1], [1], [2]]).eventMiddleware.holdings = h at hkeeps
  intro hrun
  cases hrun with
  | cons hadd hrest =>
      cases hrest with
      | cons hsubscribe hrest =>
          cases hrest with
          | cons hunsubscribe hrest =>
              cases hadd
              cases hsubscribe
              cases hunsubscribe
              cases hrest
              have hids : (0 : Multiset Bytes) + ↑([[1], [1], [2]] : List Bytes) -
                  ↑([[1], [1], [2]] : List Bytes) = {[1]} :=
                congrArg Prod.snd (Option.some.inj hkeeps)
              exact absurd hids (by decide)

end SubscribedClient

end PrivmxEndpoint
