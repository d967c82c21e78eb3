import PrivmxEndpoint.SubscriptionQuery

/-!
# The queries that the modules build

Every module has a `SubscriberImpl` with tables of its event types and selector
types; `buildQuery` looks the types up and pastes the given id into the text.
The tables are `SubscriberTables`, one for each module.  The stream module and
the event module build their texts in their own way.

A built query selects what was asked for exactly if the id has no separator
that the parser would look for behind it (`QueryRequest.selects_iff`).
-/

namespace PrivmxEndpoint

open Separated SubscriptionQueryObj

/-- The tables of a `SubscriberImpl`. -/
structure SubscriberTables (EventType SelectorType : Type) where
  getChannelPath : EventType → List String
  selectorTypeName : SelectorType → String
  /-- In the order of the `std::set`. -/
  eventTypeAllowedSelectorTypes : EventType → List SelectorType
  readableSelectorType : SelectorType → String
  readableEventType : EventType → String
  /-- How the exception calls a selector type. -/
  selectorTypeText : String

namespace SubscriberTables

variable {EventType SelectorType : Type} (T : SubscriberTables EventType SelectorType)

/-- `getSelectors`. -/
def getSelectors (selectorType : SelectorType) (selectorId : Bytes) : List QuerySelector :=
  [{ selectorKey := ascii (T.selectorTypeName selectorType), selectorValue := selectorId }]

/-- The exception for a selector type that an event type does not have. -/
def invalidSelectorType (eventType : EventType) (selectorType : SelectorType) : QueryException :=
  .core invalidParams (ascii ("Invalid " ++ T.selectorTypeText ++ " for EventType::" ++
    T.readableEventType eventType ++ ", expected " ++
    " or ".intercalate
      ((T.eventTypeAllowedSelectorTypes eventType).map T.readableSelectorType) ++
    ", received " ++ T.readableSelectorType selectorType))

/-- `buildQuery`. -/
def buildQuery [DecidableEq SelectorType] (eventType : EventType) (selectorType : SelectorType)
    (selectorId : Bytes) : Except QueryException Bytes :=
  if selectorType ∈ T.eventTypeAllowedSelectorTypes eventType then
    toSubscriptionQueryString
      { channelPath := (T.getChannelPath eventType).map ascii
        selectors := T.getSelectors selectorType selectorId }
  else
    .error (T.invalidSelectorType eventType selectorType)

end SubscriberTables

/-! ### The modules -/

namespace Core

/-- `core::EventType`. -/
inductive EventType
  | USER_ADD
  | USER_REMOVE
  | USER_STATUS
  deriving DecidableEq

/-- `core::EventSelectorType`. -/
inductive EventSelectorType
  | CONTEXT_ID
  deriving DecidableEq

/-- The tables of the core's `SubscriberImpl`. -/
def subscriberTables : SubscriberTables EventType EventSelectorType where
  getChannelPath
    | .USER_ADD => ["context", "userAdded"]
    | .USER_REMOVE => ["context", "userRemoved"]
    | .USER_STATUS => ["context", "userStatus"]
  selectorTypeName
    | .CONTEXT_ID => "contextId"
  eventTypeAllowedSelectorTypes _ := [.CONTEXT_ID]
  readableSelectorType
    | .CONTEXT_ID => "CONTEXT_ID"
  readableEventType
    | .USER_ADD => "USER_ADD"
    | .USER_REMOVE => "USER_REMOVE"
    | .USER_STATUS => "USER_STATUS"
  selectorTypeText := "EventSelectorType"

end Core

namespace Thread

/-- `thread::EventType`. -/
inductive EventType
  | THREAD_CREATE
  | THREAD_UPDATE
  | THREAD_DELETE
  | THREAD_STATS
  | MESSAGE_CREATE
  | MESSAGE_UPDATE
  | MESSAGE_DELETE
  | COLLECTION_CHANGE
  deriving DecidableEq

/-- `thread::EventSelectorType`. -/
inductive EventSelectorType
  | CONTEXT_ID
  | THREAD_ID
  | MESSAGE_ID
  deriving DecidableEq

/-- The tables of the thread module's `SubscriberImpl`. -/
def subscriberTables : SubscriberTables EventType EventSelectorType where
  getChannelPath
    | .THREAD_CREATE => ["thread", "create"]
    | .THREAD_UPDATE => ["thread", "update"]
    | .THREAD_DELETE => ["thread", "delete"]
    | .THREAD_STATS => ["thread", "stats"]
    | .MESSAGE_CREATE => ["thread", "messages", "create"]
    | .MESSAGE_UPDATE => ["thread", "messages", "update"]
    | .MESSAGE_DELETE => ["thread", "messages", "delete"]
    | .COLLECTION_CHANGE => ["thread", "collectionChanged"]
  selectorTypeName
    | .CONTEXT_ID => "contextId"
    | .THREAD_ID => "containerId"
    | .MESSAGE_ID => "itemId"
  eventTypeAllowedSelectorTypes
    | .THREAD_CREATE => [.CONTEXT_ID]
    | .MESSAGE_UPDATE | .MESSAGE_DELETE => [.CONTEXT_ID, .THREAD_ID, .MESSAGE_ID]
    | _ => [.CONTEXT_ID, .THREAD_ID]
  readableSelectorType
    | .CONTEXT_ID => "CONTEXT_ID"
    | .THREAD_ID => "THREAD_ID"
    | .MESSAGE_ID => "MESSAGE_ID"
  readableEventType
    | .THREAD_CREATE => "THREAD_CREATE"
    | .THREAD_UPDATE => "THREAD_UPDATE"
    | .THREAD_DELETE => "THREAD_DELETE"
    | .THREAD_STATS => "THREAD_STATS"
    | .MESSAGE_CREATE => "MESSAGE_CREATE"
    | .MESSAGE_UPDATE => "MESSAGE_UPDATE"
    | .MESSAGE_DELETE => "MESSAGE_DELETE"
    | .COLLECTION_CHANGE => "COLLECTION_CHANGE"
  selectorTypeText := "EventSelectorType"

end Thread

namespace Store

/-- `store::EventType`. -/
inductive EventType
  | STORE_CREATE
  | STORE_UPDATE
  | STORE_DELETE
  | STORE_STATS
  | FILE_CREATE
  | FILE_UPDATE
  | FILE_DELETE
  | COLLECTION_CHANGE
  deriving DecidableEq

/-- `store::EventSelectorType`. -/
inductive EventSelectorType
  | CONTEXT_ID
  | STORE_ID
  | FILE_ID
  deriving DecidableEq

/-- The tables of the store module's `SubscriberImpl`. -/
def subscriberTables : SubscriberTables EventType EventSelectorType where
  getChannelPath
    | .STORE_CREATE => ["store", "create"]
    | .STORE_UPDATE => ["store", "update"]
    | .STORE_DELETE => ["store", "delete"]
    | .STORE_STATS => ["store", "stats"]
    | .FILE_CREATE => ["store", "files", "create"]
    | .FILE_UPDATE => ["store", "files", "update"]
    | .FILE_DELETE => ["store", "files", "delete"]
    | .COLLECTION_CHANGE => ["store", "collectionChanged"]
  selectorTypeName
    | .CONTEXT_ID => "contextId"
    | .STORE_ID => "containerId"
    | .FILE_ID => "itemId"
  eventTypeAllowedSelectorTypes
    | .STORE_CREATE => [.CONTEXT_ID]
    | .FILE_UPDATE | .FILE_DELETE => [.CONTEXT_ID, .STORE_ID, .FILE_ID]
    | _ => [.CONTEXT_ID, .STORE_ID]
  readableSelectorType
    | .CONTEXT_ID => "CONTEXT_ID"
    | .STORE_ID => "STORE_ID"
    | .FILE_ID => "FILE_ID"
  readableEventType
    | .STORE_CREATE => "STORE_CREATE"
    | .STORE_UPDATE => "STORE_UPDATE"
    | .STORE_DELETE => "STORE_DELETE"
    | .STORE_STATS => "STORE_STATS"
    | .FILE_CREATE => "FILE_CREATE"
    | .FILE_UPDATE => "FILE_UPDATE"
    | .FILE_DELETE => "FILE_DELETE"
    | .COLLECTION_CHANGE => "COLLECTION_CHANGE"
  selectorTypeText := "EventSelectorType"

end Store

namespace Kvdb

/-- `kvdb::EventType`. -/
inductive EventType
  | KVDB_CREATE
  | KVDB_UPDATE
  | KVDB_DELETE
  | KVDB_STATS
  | ENTRY_CREATE
  | ENTRY_UPDATE
  | ENTRY_DELETE
  | COLLECTION_CHANGE
  deriving DecidableEq

/-- `kvdb::EventSelectorType`. -/
inductive EventSelectorType
  | CONTEXT_ID
  | KVDB_ID
  deriving DecidableEq

/-- `SubscriberImpl::EventInternalSelectorType`. -/
inductive EventInternalSelectorType
  | CONTEXT_ID
  | KVDB_ID
  | ENTRY_ID
  deriving DecidableEq

/-- The tables of the kvdb module's `SubscriberImpl`. -/
def subscriberTables : SubscriberTables EventType EventInternalSelectorType where
  getChannelPath
    | .KVDB_CREATE => ["kvdb", "create"]
    | .KVDB_UPDATE => ["kvdb", "update"]
    | .KVDB_DELETE => ["kvdb", "delete"]
    | .KVDB_STATS => ["kvdb", "stats"]
    | .ENTRY_CREATE => ["kvdb", "entries", "create"]
    | .ENTRY_UPDATE => ["kvdb", "entries", "update"]
    | .ENTRY_DELETE => ["kvdb", "entries", "delete"]
    | .COLLECTION_CHANGE => ["kvdb", "collectionChanged"]
  selectorTypeName
    | .CONTEXT_ID => "contextId"
    | .KVDB_ID => "containerId"
    | .ENTRY_ID => "itemId"
  eventTypeAllowedSelectorTypes
    | .KVDB_CREATE => [.CONTEXT_ID]
    | .ENTRY_UPDATE | .ENTRY_DELETE => [.CONTEXT_ID, .KVDB_ID, .ENTRY_ID]
    | _ => [.CONTEXT_ID, .KVDB_ID]
  readableSelectorType
    | .CONTEXT_ID => "CONTEXT_ID"
    | .KVDB_ID => "KVDB_ID"
    | .ENTRY_ID => "ENTRY_KEY"
  readableEventType
    | .KVDB_CREATE => "KVDB_CREATE"
    | .KVDB_UPDATE => "KVDB_UPDATE"
    | .KVDB_DELETE => "KVDB_DELETE"
    | .KVDB_STATS => "KVDB_STATS"
    | .ENTRY_CREATE => "ENTRY_CREATE"
    | .ENTRY_UPDATE => "ENTRY_UPDATE"
    | .ENTRY_DELETE => "ENTRY_DELETE"
    | .COLLECTION_CHANGE => "COLLECTION_CHANGE"
  selectorTypeText := "SelectorType"

/-- The internal selector type of `buildQuery`. -/
def EventSelectorType.toInternal : EventSelectorType → EventInternalSelectorType
  | .CONTEXT_ID => .CONTEXT_ID
  | .KVDB_ID => .KVDB_ID

/-- `SubscriberImpl::buildQuery`. -/
def buildQuery (eventType : EventType) (selectorType : EventSelectorType) (selectorId : Bytes) :
    Except QueryException Bytes :=
  subscriberTables.buildQuery eventType selectorType.toInternal selectorId

/-- `SubscriberImpl::buildQueryForSelectedEntry`. -/
def buildQueryForSelectedEntry (eventType : EventType) (kvdbId kvdbEntryId : Bytes) :
    Except QueryException Bytes :=
  subscriberTables.buildQuery eventType .ENTRY_ID (kvdbId ++ ascii ":" ++ kvdbEntryId)

end Kvdb

namespace Inbox

/-- `inbox::EventType`. -/
inductive EventType
  | INBOX_CREATE
  | INBOX_UPDATE
  | INBOX_DELETE
  | ENTRY_CREATE
  | ENTRY_DELETE
  | COLLECTION_CHANGE
  deriving DecidableEq

/-- `inbox::EventSelectorType`. -/
inductive EventSelectorType
  | CONTEXT_ID
  | INBOX_ID
  | ENTRY_ID
  deriving DecidableEq

/-- The tables of the inbox module's `SubscriberImpl`. -/
def subscriberTables : SubscriberTables EventType EventSelectorType where
  getChannelPath
    | .INBOX_CREATE => ["inbox", "create"]
    | .INBOX_UPDATE => ["inbox", "update"]
    | .INBOX_DELETE => ["inbox", "delete"]
    | .ENTRY_CREATE => ["inbox", "entries", "create"]
    | .ENTRY_DELETE => ["inbox", "entries", "delete"]
    | .COLLECTION_CHANGE => ["inbox", "collectionChanged"]
  selectorTypeName
    | .CONTEXT_ID => "contextId"
    | .INBOX_ID => "containerId"
    | .ENTRY_ID => "itemId"
  eventTypeAllowedSelectorTypes
    | .INBOX_CREATE => [.CONTEXT_ID]
    | .ENTRY_DELETE => [.CONTEXT_ID, .INBOX_ID, .ENTRY_ID]
    | _ => [.CONTEXT_ID, .INBOX_ID]
  readableSelectorType
    | .CONTEXT_ID => "CONTEXT_ID"
    | .INBOX_ID => "INBOX_ID"
    | .ENTRY_ID => "ENTRY_ID"
  readableEventType
    | .INBOX_CREATE => "INBOX_CREATE"
    | .INBOX_UPDATE => "INBOX_UPDATE"
    | .INBOX_DELETE => "INBOX_DELETE"
    | .ENTRY_CREATE => "ENTRY_CREATE"
    | .ENTRY_DELETE => "ENTRY_DELETE"
    | .COLLECTION_CHANGE => "COLLECTION_CHANGE"
  selectorTypeText := "EventSelectorType"

end Inbox

namespace Stream

/-- `stream::EventType`. -/
inductive EventType
  | STREAMROOM_CREATE
  | STREAMROOM_UPDATE
  | STREAMROOM_DELETE
  | STREAM_JOIN
  | STREAM_LEAVE
  | STREAM_PUBLISH
  | STREAM_UNPUBLISH
  deriving DecidableEq

/-- `stream::EventSelectorType`. -/
inductive EventSelectorType
  | CONTEXT_ID
  | STREAMROOM_ID
  | STREAM_ID
  deriving DecidableEq

/-- The tables of the stream module's `SubscriberImpl`. -/
def subscriberTables : SubscriberTables EventType EventSelectorType where
  getChannelPath
    | .STREAMROOM_CREATE => ["streamroom", "create"]
    | .STREAMROOM_UPDATE => ["streamroom", "update"]
    | .STREAMROOM_DELETE => ["streamroom", "delete"]
    | .STREAM_JOIN => ["streamroom", "streams", "join"]
    | .STREAM_LEAVE => ["streamroom", "streams", "leave"]
    | .STREAM_PUBLISH => ["streamroom", "streams", "publish"]
    | .STREAM_UNPUBLISH => ["streamroom", "streams", "unpublish"]
  selectorTypeName
    | .CONTEXT_ID => "contextId"
    | .STREAMROOM_ID => "containerId"
    | .STREAM_ID => "itemId"
  eventTypeAllowedSelectorTypes
    | .STREAMROOM_CREATE => [.CONTEXT_ID]
    | _ => [.CONTEXT_ID, .STREAMROOM_ID]
  readableSelectorType
    | .CONTEXT_ID => "CONTEXT_ID"
    | .STREAMROOM_ID => "STREAMROOM_ID"
    | .STREAM_ID => "STREAM_ID"
  readableEventType
    | .STREAMROOM_CREATE => "STREAMROOM_CREATE"
    | .STREAMROOM_UPDATE => "STREAMROOM_UPDATE"
    | .STREAMROOM_DELETE => "STREAMROOM_DELETE"
    | .STREAM_JOIN => "STREAM_JOIN"
    | .STREAM_LEAVE => "STREAM_LEAVE"
    | .STREAM_PUBLISH => "STREAM_PUBLISH"
    | .STREAM_UNPUBLISH => "STREAM_UNPUBLISH"
  selectorTypeText := "EventSelectorType"

/-- `SubscriberImpl::getChannel`. -/
def getChannel (eventType : EventType) : Bytes :=
  ascii ("/".intercalate (subscriberTables.getChannelPath eventType))

/-- `SubscriberImpl::getSelector`. -/
def getSelector (selectorType : EventSelectorType) (selectorId : Bytes) : Bytes :=
  ascii "|" ++ ascii (subscriberTables.selectorTypeName selectorType) ++ ascii "=" ++ selectorId

/-- `SubscriberImpl::buildQuery`. -/
def buildQuery (eventType : EventType) (selectorType : EventSelectorType) (selectorId : Bytes) :
    Except QueryException Bytes :=
  if selectorType ∈ subscriberTables.eventTypeAllowedSelectorTypes eventType then
    .ok (getChannel eventType ++ getSelector selectorType selectorId)
  else
    .error (subscriberTables.invalidSelectorType eventType selectorType)

end Stream

namespace Event

/-- `INTERNAL_EVENT_CHANNEL_NAME`. -/
def INTERNAL_EVENT_CHANNEL_NAME : Bytes := ascii "internal"

/-- `ForbiddenChannelNameException`. -/
def forbiddenChannelName : ErrorCode := ⟨0x00090002, by decide⟩

/-- `event::EventSelectorType`. -/
inductive EventSelectorType
  | CONTEXT_ID
  deriving DecidableEq

/-- `SubscriberImpl::_selectorTypeNames`. -/
def selectorTypeName : EventSelectorType → String
  | .CONTEXT_ID => "contextId"

/-- The character around a name in the texts of exceptions. -/
def quotationMark : UInt8 := 34

/-- `SubscriberImpl::getChannelPath`. -/
def getChannelPath (channelName : Bytes) : List Bytes :=
  [ascii "event", ascii "custom", channelName]

/-- `SubscriberImpl::buildQuery`. -/
def buildQuery (channelName : Bytes) (selectorType : EventSelectorType) (selectorId : Bytes)
    (enableAllChannelNames : Bool) : Except QueryException Bytes :=
  if channelName ≠ INTERNAL_EVENT_CHANNEL_NAME ∨ enableAllChannelNames = true then
    toSubscriptionQueryString
      { channelPath := getChannelPath channelName
        selectors :=
          [{ selectorKey := ascii (selectorTypeName selectorType), selectorValue := selectorId }] }
  else
    .error (.core forbiddenChannelName
      (ascii "Forbidden channelName. Forbidden channel names are: internal. Received " ++
        quotationMark :: (channelName ++ [quotationMark])))

end Event

/-! ### What a built query selects -/

namespace SubscriptionQueryObj

/-- A text is read as a query with one selector, and that has the given value. -/
def SelectsOnly (s selectorId : Bytes) : Prop :=
  ∃ query key, parse s = .ok query ∧
    query.selectors = [{ selectorKey := key, selectorValue := selectorId }]

/-- An id that the parser takes as a whole. -/
structure PlainId (selectorId : Bytes) : Prop where
  ne_nil : selectorId ≠ []
  main : QUERY_MAIN_SEPARATOR ∉ selectorId
  selectors : SELECTORS_SEPARATOR ∉ selectorId
  selector : SELECTOR_SEPARATOR ∉ selectorId

/-- The values that are read have no separators. -/
theorem plain_of_parse {s : Bytes} {query : SubscriptionQueryObj} (h : parse s = .ok query)
    {selector : QuerySelector} (hmem : selector ∈ query.selectors) :
    QUERY_MAIN_SEPARATOR ∉ selector.selectorValue ∧
      SELECTORS_SEPARATOR ∉ selector.selectorValue ∧
      SELECTOR_SEPARATOR ∉ selector.selectorValue := by
  cases hsplit : split s QUERY_MAIN_SEPARATOR with
  | nil =>
      rw [parse_of_nil hsplit] at h
      cases h
      cases hmem
  | cons path rest =>
      cases rest with
      | nil =>
          rw [parse_of_path hsplit] at h
          cases h
          cases hmem
      | cons selectors rest =>
          cases rest with
          | cons third rest =>
              refine absurd h (parse_of_more ?_ query)
              rw [hsplit]
              simp only [List.length_cons]
              omega
          | nil =>
              obtain ⟨-, hreads⟩ := (parse_of_parts hsplit).mp h
              obtain ⟨item, hitem, hread⟩ := hreads.exists_item hmem
              have hpart : selectors ∈ split s QUERY_MAIN_SEPARATOR := by simp [hsplit]
              have hvalue : selector.selectorValue ∈ split item SELECTOR_SEPARATOR := by
                simp [hread]
              refine ⟨fun hc => ?_, fun hc => ?_, notMem_of_mem_pieces hvalue⟩
              · exact notMem_of_mem_pieces hpart
                  (mem_of_mem_pieces hitem (mem_of_mem_pieces hvalue hc))
              · exact notMem_of_mem_pieces hitem (mem_of_mem_pieces hvalue hc)

/-- **One selector.**  The text of a path and a selector selects the pasted id
exactly if neither of them has separators that the parser finds. -/
theorem selectsOnly_iff {path key selectorId : Bytes} (hkey : Plain key) :
    SelectsOnly (path ++ QUERY_MAIN_SEPARATOR :: (key ++ SELECTOR_SEPARATOR :: selectorId))
        selectorId ↔
      QUERY_MAIN_SEPARATOR ∉ path ∧ PlainId selectorId := by
  constructor
  · rintro ⟨query, key', hparse, hquery⟩
    obtain ⟨hmain, hselectors, hselector⟩ := plain_of_parse hparse (by rw [hquery]; exact
      List.mem_cons_self)
    have hitem : QUERY_MAIN_SEPARATOR ∉ key ++ SELECTOR_SEPARATOR :: selectorId := by
      rw [List.mem_append, List.mem_cons, not_or, not_or]
      exact ⟨hkey.1, by decide, hmain⟩
    have hpieces : split (key ++ SELECTOR_SEPARATOR :: selectorId) QUERY_MAIN_SEPARATOR =
        [key ++ SELECTOR_SEPARATOR :: selectorId] := pieces_of_notMem hitem (by simp)
    have hpath : QUERY_MAIN_SEPARATOR ∉ path := by
      intro hmem
      refine parse_of_more ?_ query hparse
      rw [split] at hpieces ⊢
      rw [length_pieces_append_cons, hpieces]
      have hcount := List.count_pos_iff.mpr hmem
      simp only [List.length_singleton]
      omega
    refine ⟨hpath, ?_, hmain, hselectors, hselector⟩
    rintro rfl
    -- the value is lost, and a selector without value is refused
    have hsplit : split (path ++ QUERY_MAIN_SEPARATOR :: (key ++ [SELECTOR_SEPARATOR]))
        QUERY_MAIN_SEPARATOR = [path, key ++ [SELECTOR_SEPARATOR]] :=
      pieces_eq_pair_iff.mpr ⟨hpath, hitem, Or.inl ⟨by simp, rfl⟩⟩
    obtain ⟨-, hreads⟩ := (parse_of_parts hsplit).mp hparse
    have hone : split (key ++ [SELECTOR_SEPARATOR]) SELECTORS_SEPARATOR =
        [key ++ [SELECTOR_SEPARATOR]] := by
      refine pieces_of_notMem ?_ (by simp)
      rw [List.mem_append, not_or]
      exact ⟨hkey.2.2.1, by decide⟩
    have hlost : split (key ++ [SELECTOR_SEPARATOR]) SELECTOR_SEPARATOR = [key] :=
      pieces_append_cons hkey.2.2.2 []
    rw [hone, hquery] at hreads
    cases hreads with
    | cons hread _ =>
        rw [hlost] at hread
        cases (List.cons.inj hread).2
  · rintro ⟨hpath, hid⟩
    have hitem : QUERY_MAIN_SEPARATOR ∉ key ++ SELECTOR_SEPARATOR :: selectorId := by
      rw [List.mem_append, List.mem_cons, not_or, not_or]
      exact ⟨hkey.1, by decide, hid.main⟩
    have hcomma : SELECTORS_SEPARATOR ∉ key ++ SELECTOR_SEPARATOR :: selectorId := by
      rw [List.mem_append, List.mem_cons, not_or, not_or]
      exact ⟨hkey.2.2.1, by decide, hid.selectors⟩
    have hsplit : split (path ++ QUERY_MAIN_SEPARATOR :: (key ++ SELECTOR_SEPARATOR :: selectorId))
        QUERY_MAIN_SEPARATOR = [path, key ++ SELECTOR_SEPARATOR :: selectorId] :=
      pieces_eq_pair_iff.mpr ⟨hpath, hitem, Or.inl ⟨by simp, rfl⟩⟩
    have hread : split (key ++ SELECTOR_SEPARATOR :: selectorId) SELECTOR_SEPARATOR =
        [key, selectorId] :=
      pieces_eq_pair_iff.mpr ⟨hkey.2.2.2, hid.selector, Or.inl ⟨hid.ne_nil, rfl⟩⟩
    have hone : split (key ++ SELECTOR_SEPARATOR :: selectorId) SELECTORS_SEPARATOR =
        [key ++ SELECTOR_SEPARATOR :: selectorId] := pieces_of_notMem hcomma (by simp)
    refine ⟨{ channelPath := split path QUERY_PATH_SEPARATOR
              selectors := [{ selectorKey := key, selectorValue := selectorId }] }, key, ?_, rfl⟩
    rw [parse_of_parts hsplit, hone]
    exact ⟨rfl, .cons hread .nil⟩

end SubscriptionQueryObj

/-- A call of `buildQuery` of one of the modules, or of
`buildQueryForSelectedEntry`. -/
inductive QueryRequest
  | core (eventType : Core.EventType) (selectorType : Core.EventSelectorType)
      (selectorId : Bytes)
  | thread (eventType : Thread.EventType) (selectorType : Thread.EventSelectorType)
      (selectorId : Bytes)
  | store (eventType : Store.EventType) (selectorType : Store.EventSelectorType)
      (selectorId : Bytes)
  | kvdb (eventType : Kvdb.EventType) (selectorType : Kvdb.EventSelectorType)
      (selectorId : Bytes)
  | kvdbEntry (eventType : Kvdb.EventType) (kvdbId kvdbEntryId : Bytes)
  | inbox (eventType : Inbox.EventType) (selectorType : Inbox.EventSelectorType)
      (selectorId : Bytes)
  | stream (eventType : Stream.EventType) (selectorType : Stream.EventSelectorType)
      (selectorId : Bytes)
  | event (channelName : Bytes) (selectorType : Event.EventSelectorType) (selectorId : Bytes)
      (enableAllChannelNames : Bool)

namespace QueryRequest

/-- The query that is built. -/
def build : QueryRequest → Except QueryException Bytes
  | core eventType selectorType selectorId =>
      Core.subscriberTables.buildQuery eventType selectorType selectorId
  | thread eventType selectorType selectorId =>
      Thread.subscriberTables.buildQuery eventType selectorType selectorId
  | store eventType selectorType selectorId =>
      Store.subscriberTables.buildQuery eventType selectorType selectorId
  | kvdb eventType selectorType selectorId => Kvdb.buildQuery eventType selectorType selectorId
  | kvdbEntry eventType kvdbId kvdbEntryId =>
      Kvdb.buildQueryForSelectedEntry eventType kvdbId kvdbEntryId
  | inbox eventType selectorType selectorId =>
      Inbox.subscriberTables.buildQuery eventType selectorType selectorId
  | stream eventType selectorType selectorId =>
      Stream.buildQuery eventType selectorType selectorId
  | event channelName selectorType selectorId enableAllChannelNames =>
      Event.buildQuery channelName selectorType selectorId enableAllChannelNames

/-- The id that the caller gives; an entry is named together with its database. -/
def selectorId : QueryRequest → Bytes
  | core _ _ selectorId => selectorId
  | thread _ _ selectorId => selectorId
  | store _ _ selectorId => selectorId
  | kvdb _ _ selectorId => selectorId
  | kvdbEntry _ kvdbId kvdbEntryId => kvdbId ++ ascii ":" ++ kvdbEntryId
  | inbox _ _ selectorId => selectorId
  | stream _ _ selectorId => selectorId
  | event _ _ selectorId _ => selectorId

/-- The channel name that the caller gives, of the event module only. -/
def channelName : QueryRequest → Bytes
  | event channelName _ _ _ => channelName
  | _ => []

/-- All path components and keys of the tables are plain. -/
structure PlainTables {EventType SelectorType : Type}
    (T : SubscriberTables EventType SelectorType) : Prop where
  path : ∀ e, T.getChannelPath e ≠ [] ∧ ∀ p ∈ T.getChannelPath e, Plain (ascii p)
  key : ∀ s, Plain (ascii (T.selectorTypeName s))

/-- What a module with tables builds. -/
theorem PlainTables.selects_iff {EventType SelectorType : Type} [DecidableEq SelectorType]
    {T : SubscriberTables EventType SelectorType} (hT : PlainTables T) {eventType : EventType}
    {selectorType : SelectorType} {selectorId s : Bytes}
    (h : T.buildQuery eventType selectorType selectorId = .ok s) :
    SelectsOnly s selectorId ↔ PlainId selectorId := by
  obtain ⟨hpath, hplain⟩ := hT.path eventType
  unfold SubscriberTables.buildQuery at h
  split at h
  · rw [toSubscriptionQueryString_eq (by simpa using hpath)] at h
    obtain rfl := Except.ok.inj h
    have hmain : QUERY_MAIN_SEPARATOR ∉ pathText ((T.getChannelPath eventType).map ascii) := by
      refine notMem_pathText fun p hp => ?_
      obtain ⟨q, hq, rfl⟩ := List.mem_map.mp hp
      exact hplain q hq
    have hone : SelectsOnly (pathText ((T.getChannelPath eventType).map ascii) ++
        QUERY_MAIN_SEPARATOR :: (ascii (T.selectorTypeName selectorType) ++
          SELECTOR_SEPARATOR :: selectorId)) selectorId ↔ _ :=
      selectsOnly_iff (hT.key selectorType)
    simp only [SubscriberTables.getSelectors, List.cons_ne_nil, if_false, text, selectorsText,
      List.map_cons, List.map_nil, List.intercalate_singleton, QuerySelector.text,
      List.append_assoc, List.singleton_append]
    rw [hone]
    exact ⟨fun h => h.2, fun h => ⟨hmain, h⟩⟩
  · cases h

theorem plainTables_core : PlainTables Core.subscriberTables where
  path e := by cases e <;> decide
  key s := by
    cases s
    decide

theorem plainTables_thread : PlainTables Thread.subscriberTables where
  path e := by cases e <;> decide
  key s := by cases s <;> decide

theorem plainTables_store : PlainTables Store.subscriberTables where
  path e := by cases e <;> decide
  key s := by cases s <;> decide

theorem plainTables_kvdb : PlainTables Kvdb.subscriberTables where
  path e := by cases e <;> decide
  key s := by cases s <;> decide

theorem plainTables_inbox : PlainTables Inbox.subscriberTables where
  path e := by cases e <;> decide
  key s := by cases s <;> decide

/-- The stream module writes the separators itself. -/
theorem stream_selects_iff {eventType : Stream.EventType}
    {selectorType : Stream.EventSelectorType} {selectorId s : Bytes}
    (h : Stream.buildQuery eventType selectorType selectorId = .ok s) :
    SelectsOnly s selectorId ↔ PlainId selectorId := by
  have hkey : Plain (ascii (Stream.subscriberTables.selectorTypeName selectorType)) := by
    cases selectorType <;> decide
  have hmain : QUERY_MAIN_SEPARATOR ∉ Stream.getChannel eventType := by
    cases eventType <;> decide
  unfold Stream.buildQuery at h
  split at h
  · have htext : Stream.getChannel eventType ++ Stream.getSelector selectorType selectorId =
        Stream.getChannel eventType ++ QUERY_MAIN_SEPARATOR ::
          (ascii (Stream.subscriberTables.selectorTypeName selectorType) ++
            SELECTOR_SEPARATOR :: selectorId) := by
      have hbar : ascii "|" = [QUERY_MAIN_SEPARATOR] := by decide
      have hequal : ascii "=" = [SELECTOR_SEPARATOR] := by decide
      simp only [Stream.getSelector, hbar, hequal, List.append_assoc, List.cons_append,
        List.nil_append]
    rw [htext] at h
    obtain rfl := Except.ok.inj h
    rw [selectsOnly_iff hkey]
    exact ⟨fun h => h.2, fun h => ⟨hmain, h⟩⟩
  · cases h

/-- The event module pastes a channel name too. -/
theorem event_selects_iff {channelName selectorId s : Bytes}
    {selectorType : Event.EventSelectorType} {enableAllChannelNames : Bool}
    (h : Event.buildQuery channelName selectorType selectorId enableAllChannelNames = .ok s) :
    SelectsOnly s selectorId ↔ QUERY_MAIN_SEPARATOR ∉ channelName ∧ PlainId selectorId := by
  have hkey : Plain (ascii (Event.selectorTypeName selectorType)) := by
    cases selectorType
    decide
  have hmain : QUERY_MAIN_SEPARATOR ∉ pathText (Event.getChannelPath channelName) ↔
      QUERY_MAIN_SEPARATOR ∉ channelName := by
    have htext : pathText (Event.getChannelPath channelName) =
        ascii "event/custom/" ++ channelName := by
      have hpath : ascii "event/custom/" =
          ascii "event" ++ [QUERY_PATH_SEPARATOR] ++
            (ascii "custom" ++ [QUERY_PATH_SEPARATOR]) := by decide
      rw [hpath, pathText, Event.getChannelPath, List.intercalate_cons_cons,
        List.intercalate_cons_cons, List.intercalate_singleton]
      simp only [List.append_assoc]
    rw [htext, List.mem_append, not_or]
    exact ⟨fun h => h.2, fun h => ⟨by decide, h⟩⟩
  unfold Event.buildQuery at h
  split at h
  · rw [toSubscriptionQueryString_eq (by simp [Event.getChannelPath])] at h
    obtain rfl := Except.ok.inj h
    have hone : SelectsOnly (pathText (Event.getChannelPath channelName) ++
        QUERY_MAIN_SEPARATOR :: (ascii (Event.selectorTypeName selectorType) ++
          SELECTOR_SEPARATOR :: selectorId)) selectorId ↔ _ := selectsOnly_iff hkey
    simp only [List.cons_ne_nil, if_false, text, selectorsText, List.map_cons, List.map_nil,
      List.intercalate_singleton, QuerySelector.text, List.append_assoc, List.singleton_append]
    rw [hone, hmain]
  · cases h

/-- **Built queries.**  A query that a module builds selects the given id and
nothing else exactly if the id is not empty and has none of the separators `|`,
`,` and `=`, and if a given channel name has no `|`. -/
theorem selects_iff (r : QueryRequest) {s : Bytes} (h : r.build = .ok s) :
    SelectsOnly s r.selectorId ↔
      QUERY_MAIN_SEPARATOR ∉ r.channelName ∧ PlainId r.selectorId := by
  have hnone : ∀ {p : Prop}, p ↔ QUERY_MAIN_SEPARATOR ∉ ([] : Bytes) ∧ p := by simp
  cases r with
  | core eventType selectorType selectorId =>
      exact (plainTables_core.selects_iff h).trans hnone
  | thread eventType selectorType selectorId =>
      exact (plainTables_thread.selects_iff h).trans hnone
  | store eventType selectorType selectorId =>
      exact (plainTables_store.selects_iff h).trans hnone
  | kvdb eventType selectorType selectorId =>
      exact (plainTables_kvdb.selects_iff h).trans hnone
  | kvdbEntry eventType kvdbId kvdbEntryId =>
      exact (plainTables_kvdb.selects_iff h).trans hnone
  | inbox eventType selectorType selectorId =>
      exact (plainTables_inbox.selects_iff h).trans hnone
  | stream eventType selectorType selectorId =>
      exact (stream_selects_iff h).trans hnone
  | event channelName selectorType selectorId enableAllChannelNames =>
      exact event_selects_iff h

end QueryRequest

namespace SubscriptionQueryObj

/-- **The query language.**  When the parser agrees with the grammar and the
printer with the parser, when an object comes back, and when a built query
selects what was asked for. -/
theorem query_language_iff (s : Bytes) :
    (ReadsAsWritten s ↔ InProperGrammar s ∨ ¬ InLooseGrammar s ∧ ¬ InGrammar s) ∧
      (∀ query : SubscriptionQueryObj, query.ProperParts →
        (query.RoundTrips ↔ query.channelPath ≠ [])) ∧
      ∀ r : QueryRequest, r.build = .ok s →
        (SelectsOnly s r.selectorId ↔
          QUERY_MAIN_SEPARATOR ∉ r.channelName ∧ PlainId r.selectorId) :=
  ⟨readsAsWritten_iff, fun _ h => h.roundTrips_iff, fun r h => r.selects_iff h⟩

/-- The query for the messages of the thread `a`. -/
def sampleQuery : SubscriptionQueryObj where
  channelPath := [ascii "thread", ascii "messages", ascii "create"]
  selectors := [{ selectorKey := ascii "containerId", selectorValue := ascii "a" }]

theorem query_language_sample :
    ReadsAsWritten (ascii "thread/messages/create|containerId=a") ∧ sampleQuery.RoundTrips ∧
      SelectsOnly (ascii "thread/messages/create|containerId=a") (ascii "a") := by
  have hplain : sampleQuery.PlainParts := ⟨by decide, by decide⟩
  refine ⟨(query_language_iff _).1.mpr (Or.inl ⟨sampleQuery, hplain, by decide, by decide,
    by decide, by decide, by decide⟩), ?_, ?_⟩
  · exact ((query_language_iff []).2.1 sampleQuery ⟨hplain, by decide, by decide⟩).mpr (by decide)
  · exact ((query_language_iff _).2.2 (.thread .MESSAGE_CREATE .THREAD_ID (ascii "a"))
      (by decide)).mpr ⟨by decide, by decide, by decide, by decide, by decide⟩

/-- A second separator `|` is accepted and lost, and so is what it changes of an
id. -/
theorem query_language_fails :
    ¬ ReadsAsWritten (ascii "thread/create|contextId=a|") ∧
      QueryRequest.build (.thread .THREAD_CREATE .CONTEXT_ID (ascii "a|")) =
        .ok (ascii "thread/create|contextId=a|") ∧
      ¬ SelectsOnly (ascii "thread/create|contextId=a|") (ascii "a|") := by
  have hparse : parse (ascii "thread/create|contextId=a|") =
      .ok { channelPath := [ascii "thread", ascii "create"]
            selectors := [{ selectorKey := ascii "contextId", selectorValue := ascii "a" }] } := by
    decide
  refine ⟨?_, by decide, ?_⟩
  · rintro ⟨-, hprints⟩
    exact absurd (hprints _ hparse) (by decide)
  · rintro ⟨query, key, hquery, hselectors⟩
    rw [hparse] at hquery
    cases hquery
    exact absurd hselectors (by simp [ascii])

end SubscriptionQueryObj

end PrivmxEndpoint
