import PrivmxEndpoint.DataIntegrity
import PrivmxEndpoint.SeparatedLists

/-!
# The language of subscription queries

A subscription query names a channel by a path and restricts it by selectors,
as in `thread/messages/create|containerId=…`.  `SubscriptionQueryObj` reads and
writes queries, and every module builds them from an event type, a selector
type and an id that the caller chooses.

The parser splits with `std::getline`, which does not see a separator at the
end, and it does not look for the separators of one level in the parts of
another.  It therefore accepts more than the grammar (`parses_iff`), and ids
that contain separators change the query (`QueryRequest.selects_iff`).
-/

namespace PrivmxEndpoint

open Separated

/-- The bytes of a text without characters beyond ASCII. -/
def ascii (s : String) : Bytes :=
  s.toList.map fun c => UInt8.ofNat c.toNat

/-- How building or reading a query can fail. -/
inductive QueryException
  | core (code : ErrorCode) (description : Bytes)
  /-- `pop_back` of an empty string, which C++ leaves undefined. -/
  | popBackOfEmpty
  deriving DecidableEq

/-- `InvalidSubscriptionQueryException` of the core. -/
def invalidSubscriptionQuery : ErrorCode := coreCode 0x00024

/-- `InvalidParamsException`. -/
def invalidParams : ErrorCode := coreCode 0x0002

/-- `Utils::split` at a character. -/
def split (data : Bytes) (delimiter : UInt8) : List Bytes :=
  pieces delimiter data

/-- `std::string::pop_back`. -/
def popBack (s : Bytes) : Except QueryException Bytes :=
  if s = [] then .error .popBackOfEmpty else .ok s.dropLast

/-- `SubscriptionQueryObj::QuerySelector`. -/
structure QuerySelector where
  selectorKey : Bytes
  selectorValue : Bytes
  deriving DecidableEq

/-- `SubscriptionQueryObj`. -/
structure SubscriptionQueryObj where
  channelPath : List Bytes
  selectors : List QuerySelector
  deriving DecidableEq

namespace SubscriptionQueryObj

/-- The separators `|`, `/`, `,` and `=`. -/
def QUERY_MAIN_SEPARATOR : UInt8 := 124

@[inherit_doc QUERY_MAIN_SEPARATOR]
def QUERY_PATH_SEPARATOR : UInt8 := 47

@[inherit_doc QUERY_MAIN_SEPARATOR]
def SELECTORS_SEPARATOR : UInt8 := 44

@[inherit_doc QUERY_MAIN_SEPARATOR]
def SELECTOR_SEPARATOR : UInt8 := 61

/-- The body of the loop over the selectors. -/
def parseSelector (selector : Bytes) : Except QueryException QuerySelector :=
  match split selector SELECTOR_SEPARATOR with
  | [selectorKey, selectorValue] =>
      .ok { selectorKey := selectorKey, selectorValue := selectorValue }
  | _ =>
      .error (.core invalidSubscriptionQuery
        (ascii "Invalid query selector format. Expected: <key>=<value>"))

/-- The constructor from a string. -/
def parse (subscriptionQueryString : Bytes) : Except QueryException SubscriptionQueryObj := do
  let splittedQuery := split subscriptionQueryString QUERY_MAIN_SEPARATOR
  if splittedQuery.length > 2 then
    throw (.core invalidSubscriptionQuery
      (ascii "Only one separator '|' allowed in the query"))
  let channelPath := match splittedQuery[0]? with
    | none => []
    | some path => split path QUERY_PATH_SEPARATOR
  let selectors ← match splittedQuery[1]? with
    | none => pure []
    | some selectors => (split selectors SELECTORS_SEPARATOR).mapM parseSelector
  return { channelPath := channelPath, selectors := selectors }

/-- `toSubscriptionQueryString`. -/
def toSubscriptionQueryString (query : SubscriptionQueryObj) : Except QueryException Bytes := do
  let result := query.channelPath.foldl
    (fun result p => result ++ (p ++ [QUERY_PATH_SEPARATOR])) []
  let result ← popBack result
  let result := result ++ [QUERY_MAIN_SEPARATOR]
  let result := query.selectors.foldl (fun result s => result ++
    (s.selectorKey ++ [SELECTOR_SEPARATOR] ++ s.selectorValue ++ [SELECTORS_SEPARATOR])) result
  popBack result

end SubscriptionQueryObj

/-- The text of one selector. -/
def QuerySelector.text (s : QuerySelector) : Bytes :=
  s.selectorKey ++ [SubscriptionQueryObj.SELECTOR_SEPARATOR] ++ s.selectorValue

namespace SubscriptionQueryObj

/-- No separator of any level. -/
def Plain (component : Bytes) : Prop :=
  QUERY_MAIN_SEPARATOR ∉ component ∧ QUERY_PATH_SEPARATOR ∉ component ∧
    SELECTORS_SEPARATOR ∉ component ∧ SELECTOR_SEPARATOR ∉ component

instance (component : Bytes) : Decidable (Plain component) :=
  inferInstanceAs (Decidable (_ ∧ _))

/-- The text of a path, and that of the selectors. -/
def pathText (path : List Bytes) : Bytes :=
  [QUERY_PATH_SEPARATOR].intercalate path

@[inherit_doc pathText]
def selectorsText (selectors : List QuerySelector) : Bytes :=
  [SELECTORS_SEPARATOR].intercalate (selectors.map QuerySelector.text)

/-- All components are free of separators. -/
structure PlainParts (query : SubscriptionQueryObj) : Prop where
  path : ∀ p ∈ query.channelPath, Plain p
  selectors : ∀ s ∈ query.selectors, Plain s.selectorKey ∧ Plain s.selectorValue

/-- The text of a query with a path and selectors. -/
def text (query : SubscriptionQueryObj) : Bytes :=
  pathText query.channelPath ++ QUERY_MAIN_SEPARATOR :: selectorsText query.selectors

/-- The grammar `path('/'path)* '|' key'='value(','key'='value)*`. -/
def InGrammar (s : Bytes) : Prop :=
  ∃ query : SubscriptionQueryObj, query.PlainParts ∧ query.channelPath ≠ [] ∧
    query.selectors ≠ [] ∧ s = query.text

/-- A query of the grammar whose path and whose values do not end in an empty
component. -/
def InProperGrammar (s : Bytes) : Prop :=
  ∃ query : SubscriptionQueryObj, query.PlainParts ∧ query.channelPath ≠ [] ∧
    query.selectors ≠ [] ∧ s = query.text ∧ query.channelPath.getLast? ≠ some [] ∧
    ∀ s ∈ query.selectors, s.selectorValue ≠ []

/-- One selector of the accepted language: `key=value` with a value, or
`key=value=` with any. -/
def LooseSelector (s : Bytes) : Prop :=
  ∃ key value, QUERY_MAIN_SEPARATOR ∉ s ∧ SELECTORS_SEPARATOR ∉ s ∧
    SELECTOR_SEPARATOR ∉ key ∧ SELECTOR_SEPARATOR ∉ value ∧
    (value ≠ [] ∧ s = key ++ SELECTOR_SEPARATOR :: value ∨
      s = key ++ SELECTOR_SEPARATOR :: (value ++ [SELECTOR_SEPARATOR]))

/-- The selectors of the accepted language: none, or some with or without a
separator behind them. -/
def LooseSelectors (s : Bytes) : Prop :=
  ∃ items, (∀ item ∈ items, LooseSelector item) ∧
    (s = [SELECTORS_SEPARATOR].intercalate items ∨
      items ≠ [] ∧ s = [SELECTORS_SEPARATOR].intercalate items ++ [SELECTORS_SEPARATOR])

/-- The accepted language: any path, and behind it nothing or selectors with or
without a separator behind them. -/
def InLooseGrammar (s : Bytes) : Prop :=
  ∃ path, QUERY_MAIN_SEPARATOR ∉ path ∧
    (s = path ∨ ∃ selectors, LooseSelectors selectors ∧
      (s = path ++ QUERY_MAIN_SEPARATOR :: selectors ∨
        s = path ++ QUERY_MAIN_SEPARATOR :: (selectors ++ [QUERY_MAIN_SEPARATOR])))

/-! ### What the parser accepts -/

/-- A selector is a key and a value with the separator between them. -/
theorem parseSelector_eq_ok_iff {s : Bytes} {q : QuerySelector} :
    parseSelector s = .ok q ↔ split s SELECTOR_SEPARATOR = [q.selectorKey, q.selectorValue] := by
  unfold parseSelector
  constructor
  · intro h
    split at h
    · rename_i hsplit
      cases h
      exact hsplit
    · cases h
  · intro h
    rw [h]

/-- The selectors were read from their texts. -/
def Reads (items : List Bytes) (selectors : List QuerySelector) : Prop :=
  List.Forall₂ (fun item s => split item SELECTOR_SEPARATOR = [s.selectorKey, s.selectorValue])
    items selectors

/-- Every selector is read from one of the items. -/
theorem Reads.exists_item {items : List Bytes} {selectors : List QuerySelector}
    (h : Reads items selectors) {s : QuerySelector} (hs : s ∈ selectors) :
    ∃ item ∈ items, split item SELECTOR_SEPARATOR = [s.selectorKey, s.selectorValue] := by
  induction h with
  | nil => cases hs
  | @cons first t rest _ hfirst _ ih =>
      rcases List.mem_cons.mp hs with rfl | hmem
      · exact ⟨first, List.mem_cons_self, hfirst⟩
      · obtain ⟨item, hitem, hread⟩ := ih hmem
        exact ⟨item, List.mem_cons_of_mem _ hitem, hread⟩

/-- The selectors are read one by one. -/
theorem mapM_parseSelector_iff {items : List Bytes} {selectors : List QuerySelector} :
    items.mapM parseSelector = .ok selectors ↔ Reads items selectors := by
  induction items generalizing selectors with
  | nil =>
      rw [List.mapM_nil]
      constructor
      · intro h
        cases h
        exact .nil
      · intro h
        cases h
        rfl
  | cons item items ih =>
      rw [List.mapM_cons]
      constructor
      · intro h
        cases hitem : parseSelector item with
        | error e =>
            rw [hitem] at h
            cases h
        | ok s =>
            rw [hitem] at h
            cases hrest : items.mapM parseSelector with
            | error e =>
                rw [hrest] at h
                cases h
            | ok rest =>
                rw [hrest] at h
                cases h
                exact .cons (parseSelector_eq_ok_iff.mp hitem) (ih.mp hrest)
      · intro h
        cases h with
        | cons hitem hrest =>
            rw [parseSelector_eq_ok_iff.mpr hitem, ih.mpr hrest]
            rfl

/-! ### What the parser accepts -/

/-- A query without parts is empty. -/
theorem parse_of_nil {s : Bytes} (h : split s QUERY_MAIN_SEPARATOR = []) :
    parse s = .ok { channelPath := [], selectors := [] } := by
  simp only [parse, h]
  rfl

/-- A query of one part is a path. -/
theorem parse_of_path {s path : Bytes} (h : split s QUERY_MAIN_SEPARATOR = [path]) :
    parse s = .ok { channelPath := split path QUERY_PATH_SEPARATOR, selectors := [] } := by
  simp only [parse, h]
  rfl

/-- A query of two parts is a path and selectors. -/
theorem parse_of_parts {s path selectors : Bytes}
    (h : split s QUERY_MAIN_SEPARATOR = [path, selectors]) {query : SubscriptionQueryObj} :
    parse s = .ok query ↔ query.channelPath = split path QUERY_PATH_SEPARATOR ∧
      Reads (split selectors SELECTORS_SEPARATOR) query.selectors := by
  have hparse : parse s = (do
      let read ← (split selectors SELECTORS_SEPARATOR).mapM parseSelector
      return { channelPath := split path QUERY_PATH_SEPARATOR, selectors := read }) := by
    simp only [parse, h]
    rfl
  rw [hparse, ← mapM_parseSelector_iff]
  cases hread : (split selectors SELECTORS_SEPARATOR).mapM parseSelector with
  | error e =>
      constructor
      · intro h
        cases h
      · rintro ⟨-, h⟩
        cases h
  | ok read =>
      constructor
      · intro h
        cases h
        exact ⟨rfl, rfl⟩
      · rintro ⟨hpath, hsel⟩
        cases hsel
        rw [← hpath]
        rfl

/-- A query of more parts is refused. -/
theorem parse_of_more {s : Bytes} (h : 2 < (split s QUERY_MAIN_SEPARATOR).length)
    (query : SubscriptionQueryObj) : parse s ≠ .ok query := by
  intro hparse
  simp only [parse, gt_iff_lt, if_pos h] at hparse
  cases hparse

/-- What is read as a selector, said about its bytes. -/
theorem looseSelector_iff {item : Bytes} (hmain : QUERY_MAIN_SEPARATOR ∉ item)
    (hcomma : SELECTORS_SEPARATOR ∉ item) :
    (∃ key value, split item SELECTOR_SEPARATOR = [key, value]) ↔ LooseSelector item := by
  constructor
  · rintro ⟨key, value, h⟩
    obtain ⟨hkey, hvalue, hitem⟩ := pieces_eq_pair_iff.mp h
    exact ⟨key, value, hmain, hcomma, hkey, hvalue, hitem⟩
  · rintro ⟨key, value, -, -, hkey, hvalue, hitem⟩
    exact ⟨key, value, pieces_eq_pair_iff.mpr ⟨hkey, hvalue, hitem⟩⟩

/-- All items can be read, or one of them is refused. -/
theorem exists_reads_iff {items : List Bytes} :
    (∃ selectors, Reads items selectors) ↔
      ∀ item ∈ items, ∃ key value, split item SELECTOR_SEPARATOR = [key, value] := by
  constructor
  · rintro ⟨selectors, h⟩ item hitem
    induction h with
    | nil => cases hitem
    | @cons first s rest _ hfirst _ ih =>
        rcases List.mem_cons.mp hitem with rfl | hrest
        · exact ⟨_, _, hfirst⟩
        · exact ih hrest
  · intro h
    induction items with
    | nil => exact ⟨[], .nil⟩
    | cons item items ih =>
        obtain ⟨key, value, hitem⟩ := h item List.mem_cons_self
        obtain ⟨selectors, hrest⟩ := ih fun x hx => h x (List.mem_cons_of_mem _ hx)
        exact ⟨{ selectorKey := key, selectorValue := value } :: selectors, .cons hitem hrest⟩

/-- A selector is not empty. -/
theorem LooseSelector.ne_nil {item : Bytes} (h : LooseSelector item) : item ≠ [] := by
  obtain ⟨key, value, -, -, -, -, ⟨-, rfl⟩ | rfl⟩ := h
  · simp
  · simp

/-- Selectors have no separator of the main parts in them. -/
theorem LooseSelectors.notMem {s : Bytes} (h : LooseSelectors s) :
    QUERY_MAIN_SEPARATOR ∉ s := by
  obtain ⟨items, hitems, hs⟩ := h
  have hjoin : QUERY_MAIN_SEPARATOR ∉ [SELECTORS_SEPARATOR].intercalate items := by
    intro hmem
    rcases mem_intercalate hmem with hsep | ⟨item, hitem, hmem⟩
    · exact absurd hsep (by decide)
    · obtain ⟨key, value, hmain, -⟩ := hitems item hitem
      exact hmain hmem
  rcases hs with rfl | ⟨-, rfl⟩
  · exact hjoin
  · rw [List.mem_append, not_or]
    exact ⟨hjoin, by decide⟩

/-- The selectors that the parser reads. -/
theorem looseSelectors_iff {s : Bytes} (hmain : QUERY_MAIN_SEPARATOR ∉ s) :
    (∃ selectors, Reads (split s SELECTORS_SEPARATOR) selectors) ↔ LooseSelectors s := by
  rw [exists_reads_iff]
  constructor
  · intro h
    refine ⟨split s SELECTORS_SEPARATOR, ?_, ?_⟩
    · intro item hitem
      refine (looseSelector_iff ?_ (notMem_of_mem_pieces hitem)).mp (h item hitem)
      exact fun hmem => hmain (mem_of_mem_pieces hitem hmem)
    · rcases eq_of_pieces (rfl : pieces SELECTORS_SEPARATOR s = _) with ⟨hs, -⟩ | ⟨hs, hne⟩
      · exact Or.inl hs
      · exact Or.inr ⟨hne, hs⟩
  · rintro ⟨items, hitems, hs⟩
    have hfree : ∀ item ∈ items, SELECTORS_SEPARATOR ∉ item := by
      intro item hitem
      obtain ⟨key, value, -, hcomma, -⟩ := hitems item hitem
      exact hcomma
    have hsplit : split s SELECTORS_SEPARATOR = items := by
      rcases hs with rfl | ⟨hne, rfl⟩
      · refine pieces_intercalate hfree ?_
        intro hlast
        exact (hitems [] (List.mem_of_getLast? hlast)).ne_nil rfl
      · exact pieces_intercalate_append hfree hne
    rw [hsplit]
    intro item hitem
    have hloose := hitems item hitem
    obtain ⟨key, value, hmain', -⟩ := hitems item hitem
    exact (looseSelector_iff hmain' (hfree item hitem)).mpr hloose

/-- **The accepted language.** -/
theorem parses_iff {s : Bytes} : (∃ query, parse s = .ok query) ↔ InLooseGrammar s := by
  constructor
  · rintro ⟨query, hquery⟩
    cases hsplit : split s QUERY_MAIN_SEPARATOR with
    | nil =>
        rw [split, pieces_eq_nil_iff] at hsplit
        exact ⟨[], List.not_mem_nil, Or.inl hsplit⟩
    | cons path rest =>
        cases rest with
        | nil =>
            obtain ⟨hpath, ⟨-, rfl⟩ | rfl⟩ := pieces_eq_singleton_iff.mp hsplit
            · exact ⟨s, hpath, Or.inl rfl⟩
            · exact ⟨path, hpath, Or.inr ⟨[], ⟨[], by simp, Or.inl rfl⟩, Or.inl rfl⟩⟩
        | cons selectors rest =>
            cases rest with
            | nil =>
                obtain ⟨hpath, hselectors, hs⟩ := pieces_eq_pair_iff.mp hsplit
                have hreads := ((parse_of_parts hsplit).mp hquery).2
                refine ⟨path, hpath, Or.inr ⟨selectors,
                  (looseSelectors_iff hselectors).mp ⟨_, hreads⟩, ?_⟩⟩
                rcases hs with ⟨-, hs⟩ | hs
                · exact Or.inl hs
                · exact Or.inr hs
            | cons third rest =>
                refine absurd hquery (parse_of_more ?_ query)
                rw [hsplit]
                simp only [List.length_cons]
                omega
  · rintro ⟨path, hpath, rfl | ⟨selectors, hselectors, hs⟩⟩
    · by_cases hne : s = []
      · exact ⟨_, parse_of_nil (pieces_eq_nil_iff.mpr hne)⟩
      · exact ⟨_, parse_of_path (pieces_of_notMem hpath hne)⟩
    · have hmain := hselectors.notMem
      obtain ⟨read, hread⟩ := (looseSelectors_iff hmain).mpr hselectors
      by_cases hsplit : split s QUERY_MAIN_SEPARATOR = [path, selectors]
      · exact ⟨{ channelPath := split path QUERY_PATH_SEPARATOR, selectors := read },
          (parse_of_parts hsplit).mpr ⟨rfl, hread⟩⟩
      · rcases hs with rfl | rfl
        · by_cases hnil : selectors = []
          · rw [hnil]
            exact ⟨_, parse_of_path (pieces_append_cons hpath [])⟩
          · exact absurd (pieces_eq_pair_iff.mpr ⟨hpath, hmain, Or.inl ⟨hnil, rfl⟩⟩) hsplit
        · exact absurd (pieces_eq_pair_iff.mpr ⟨hpath, hmain, Or.inr rfl⟩) hsplit

/-! ### What the grammar says -/

/-- Neither has a path. -/
theorem notMem_pathText {path : List Bytes} (hpath : ∀ p ∈ path, Plain p) :
    QUERY_MAIN_SEPARATOR ∉ pathText path := by
  intro hmem
  rcases mem_intercalate hmem with hsep | ⟨p, hp, hmem⟩
  · exact absurd hsep (by decide)
  · exact (hpath p hp).1 hmem

/-- The text of a selector has at least the separator. -/
theorem selectorText_ne_nil (s : QuerySelector) : s.text ≠ [] := by
  simp [QuerySelector.text]

/-- The text of a plain selector has no other separator than its own. -/
theorem notMem_selectorText {s : QuerySelector} {sep : UInt8}
    (hkey : sep ∉ s.selectorKey) (hvalue : sep ∉ s.selectorValue) (hsep : sep ≠ SELECTOR_SEPARATOR) :
    sep ∉ s.text := by
  simp only [QuerySelector.text, List.mem_append, List.mem_singleton, not_or]
  exact ⟨⟨hkey, hsep⟩, hvalue⟩

variable {query : SubscriptionQueryObj}

/-- The text of selectors falls into those of the single ones. -/
theorem PlainParts.split_selectorsText (h : query.PlainParts) :
    split (selectorsText query.selectors) SELECTORS_SEPARATOR =
      query.selectors.map QuerySelector.text := by
  refine pieces_intercalate ?_ ?_
  · intro item hitem
    obtain ⟨s, hs, rfl⟩ := List.mem_map.mp hitem
    obtain ⟨hkey, hvalue⟩ := h.selectors s hs
    exact notMem_selectorText hkey.2.2.1 hvalue.2.2.1 (by decide)
  · intro hlast
    obtain ⟨s, -, hs⟩ := List.mem_map.mp (List.mem_of_getLast? hlast)
    exact selectorText_ne_nil s hs

/-- It has no separator of the main parts in it. -/
theorem PlainParts.notMem_selectorsText (h : query.PlainParts) :
    QUERY_MAIN_SEPARATOR ∉ selectorsText query.selectors := by
  intro hmem
  rcases mem_intercalate hmem with hsep | ⟨item, hitem, hmem⟩
  · exact absurd hsep (by decide)
  · obtain ⟨s, hs, rfl⟩ := List.mem_map.mp hitem
    obtain ⟨hkey, hvalue⟩ := h.selectors s hs
    exact notMem_selectorText hkey.1 hvalue.1 (by decide) hmem

/-- Selectors have some text. -/
theorem selectorsText_ne_nil {selectors : List QuerySelector} (h : selectors ≠ []) :
    selectorsText selectors ≠ [] := by
  obtain ⟨s, rest, rfl⟩ := List.exists_cons_of_ne_nil h
  intro hnil
  have hne := selectorText_ne_nil s
  cases rest with
  | nil =>
      rw [selectorsText, List.map_cons, List.map_nil, List.intercalate_singleton] at hnil
      exact hne hnil
  | cons t rest =>
      rw [selectorsText, List.map_cons, List.map_cons, List.intercalate_cons_cons] at hnil
      simp at hnil

/-- The text of a query falls into its path and its selectors. -/
theorem PlainParts.split_text (h : query.PlainParts) (hselectors : query.selectors ≠ []) :
    split query.text QUERY_MAIN_SEPARATOR =
      [pathText query.channelPath, selectorsText query.selectors] :=
  pieces_eq_pair_iff.mpr ⟨notMem_pathText h.path, h.notMem_selectorsText,
    Or.inl ⟨selectorsText_ne_nil hselectors, rfl⟩⟩

/-- A plain selector is read back if it has a value. -/
theorem split_selectorText {s : QuerySelector} (hkey : Plain s.selectorKey)
    (hvalue : Plain s.selectorValue) {t : QuerySelector} :
    split s.text SELECTOR_SEPARATOR = [t.selectorKey, t.selectorValue] ↔
      s.selectorValue ≠ [] ∧ t = s := by
  have htext : s.text = s.selectorKey ++ SELECTOR_SEPARATOR :: s.selectorValue := by
    simp [QuerySelector.text]
  have hfirst : split s.text SELECTOR_SEPARATOR =
      s.selectorKey :: split s.selectorValue SELECTOR_SEPARATOR := by
    rw [htext]
    exact pieces_append_cons hkey.2.2.2 _
  rw [hfirst]
  by_cases hne : s.selectorValue = []
  · rw [hne]
    constructor
    · intro hsplit
      cases (List.cons.inj hsplit).2
    · rintro ⟨h, -⟩
      exact absurd rfl h
  · have hsecond : split s.selectorValue SELECTOR_SEPARATOR = [s.selectorValue] :=
      pieces_of_notMem hvalue.2.2.2 hne
    rw [hsecond]
    constructor
    · intro hsplit
      obtain ⟨k, v⟩ := t
      simp only [List.cons.injEq, and_true] at hsplit
      obtain ⟨rfl, rfl⟩ := hsplit
      exact ⟨hne, rfl⟩
    · rintro ⟨-, rfl⟩
      rfl

/-- Selectors are read back from their texts if none of their values is empty. -/
theorem reads_map_text {selectors read : List QuerySelector}
    (h : ∀ s ∈ selectors, Plain s.selectorKey ∧ Plain s.selectorValue) :
    Reads (selectors.map QuerySelector.text) read ↔
      (∀ s ∈ selectors, s.selectorValue ≠ []) ∧ read = selectors := by
  induction selectors generalizing read with
  | nil =>
      rw [List.map_nil, Reads, List.forall₂_nil_left_iff]
      simp
  | cons s selectors ih =>
      obtain ⟨hkey, hvalue⟩ := h s List.mem_cons_self
      rw [List.map_cons, Reads, List.forall₂_cons_left_iff]
      constructor
      · rintro ⟨t, rest, hs, hrest, rfl⟩
        obtain ⟨hne, rfl⟩ := (split_selectorText hkey hvalue).mp hs
        obtain ⟨hall, rfl⟩ := (ih fun x hx => h x (List.mem_cons_of_mem _ hx)).mp hrest
        exact ⟨List.forall_mem_cons.mpr ⟨hne, hall⟩, rfl⟩
      · rintro ⟨hall, rfl⟩
        obtain ⟨hne, hall⟩ := List.forall_mem_cons.mp hall
        exact ⟨s, selectors, (split_selectorText hkey hvalue).mpr ⟨hne, rfl⟩,
          (ih fun x hx => h x (List.mem_cons_of_mem _ hx)).mpr ⟨hall, rfl⟩, rfl⟩

/-- **Parsing the text of a query.** -/
theorem PlainParts.parse_text (h : query.PlainParts) (hselectors : query.selectors ≠ [])
    {read : SubscriptionQueryObj} :
    parse query.text = .ok read ↔
      read.channelPath = split (pathText query.channelPath) QUERY_PATH_SEPARATOR ∧
        (∀ s ∈ query.selectors, s.selectorValue ≠ []) ∧ read.selectors = query.selectors := by
  rw [parse_of_parts (h.split_text hselectors), h.split_selectorsText,
    reads_map_text h.selectors]

/-! ### Printing -/

/-- `pop_back` takes the last byte away. -/
theorem popBack_append (s : Bytes) (b : UInt8) : popBack (s ++ [b]) = .ok s := by
  rw [popBack, if_neg (by simp), List.dropLast_concat]

/-- What is printed; a query without a path is not. -/
theorem toSubscriptionQueryString_eq (hpath : query.channelPath ≠ []) :
    query.toSubscriptionQueryString =
      .ok (if query.selectors = [] then pathText query.channelPath else query.text) := by
  have hprinted : query.channelPath.foldl
      (fun result p => result ++ (p ++ [QUERY_PATH_SEPARATOR])) [] =
        pathText query.channelPath ++ [QUERY_PATH_SEPARATOR] := by
    rw [foldl_terminated [] hpath, List.nil_append]
    rfl
  unfold toSubscriptionQueryString
  simp only [hprinted, popBack_append]
  by_cases hselectors : query.selectors = []
  · rw [if_pos hselectors, hselectors]
    exact popBack_append _ _
  · rw [if_neg hselectors]
    have hne : query.selectors.map QuerySelector.text ≠ [] := by simpa using hselectors
    have hloop : (query.selectors.map QuerySelector.text).foldl
        (fun result p => result ++ (p ++ [SELECTORS_SEPARATOR]))
        (pathText query.channelPath ++ [QUERY_MAIN_SEPARATOR]) = _ := foldl_terminated _ hne
    rw [List.foldl_map] at hloop
    have hlast := popBack_append (pathText query.channelPath ++ [QUERY_MAIN_SEPARATOR] ++
      selectorsText query.selectors) SELECTORS_SEPARATOR
    rw [selectorsText, ← hloop] at hlast
    refine Eq.trans hlast ?_
    rw [text, selectorsText, List.append_assoc, List.singleton_append]

/-- A query without a path ends in a `pop_back` of nothing. -/
theorem toSubscriptionQueryString_of_nil (hpath : query.channelPath = []) :
    query.toSubscriptionQueryString = .error .popBackOfEmpty := by
  unfold toSubscriptionQueryString
  rw [hpath]
  rfl

/-! ### The grammar and the parser -/

/-- The parser accepts exactly the grammar, and what it accepts is printed as
it was. -/
def ReadsAsWritten (s : Bytes) : Prop :=
  ((∃ query, parse s = .ok query) ↔ InGrammar s) ∧
    ∀ query, parse s = .ok query → query.toSubscriptionQueryString = .ok s

/-- The path that is read is the written one unless that ends in an empty
component. -/
theorem PlainParts.split_pathText (h : query.PlainParts) (hpath : query.channelPath ≠ [])
    {path : List Bytes} (hsplit : split (pathText query.channelPath) QUERY_PATH_SEPARATOR = path)
    (hne : path ≠ []) (hsame : pathText path = pathText query.channelPath) :
    path = query.channelPath ∧ query.channelPath.getLast? ≠ some [] := by
  have hfree : ∀ p ∈ query.channelPath, QUERY_PATH_SEPARATOR ∉ p := fun p hp => (h.path p hp).2.1
  have hread : ∀ p ∈ path, QUERY_PATH_SEPARATOR ∉ p := by
    intro p hp
    rw [← hsplit] at hp
    exact notMem_of_mem_pieces hp
  have heq := intercalate_inj hread hne hfree hpath hsame
  rcases eq_of_pieces hsplit with ⟨-, hlast⟩ | ⟨hjoin, -⟩
  · rw [heq] at hlast
    exact ⟨heq, hlast⟩
  · have hlength := congrArg List.length (hjoin.symm.trans hsame.symm)
    simp [pathText] at hlength

/-- When the grammar and the parser agree. -/
theorem readsAsWritten_iff {s : Bytes} :
    ReadsAsWritten s ↔ InProperGrammar s ∨ ¬ InLooseGrammar s ∧ ¬ InGrammar s := by
  constructor
  · rintro ⟨haccepts, hprints⟩
    by_cases hloose : InLooseGrammar s
    · obtain ⟨read, hread⟩ := parses_iff.mpr hloose
      obtain ⟨query, hplain, hpath, hselectors, rfl⟩ := haccepts.mp ⟨read, hread⟩
      obtain ⟨hsplit, hvalues, hsel⟩ := (hplain.parse_text hselectors).mp hread
      have hprint := hprints read hread
      have hne : read.channelPath ≠ [] := by
        intro hnil
        rw [toSubscriptionQueryString_of_nil hnil] at hprint
        cases hprint
      rw [toSubscriptionQueryString_eq hne, if_neg (by rwa [hsel]), text, text, hsel] at hprint
      have hsame := List.append_cancel_right (Except.ok.inj hprint)
      obtain ⟨-, hlast⟩ := hplain.split_pathText hpath hsplit.symm hne hsame
      exact Or.inl ⟨query, hplain, hpath, hselectors, rfl, hlast, hvalues⟩
    · exact Or.inr ⟨hloose, fun h => hloose (parses_iff.mp (haccepts.mpr h))⟩
  · rintro (⟨query, hplain, hpath, hselectors, rfl, hlast, hvalues⟩ | ⟨hloose, hgrammar⟩)
    · have hfree : ∀ p ∈ query.channelPath, QUERY_PATH_SEPARATOR ∉ p :=
        fun p hp => (hplain.path p hp).2.1
      have hsplit : split (pathText query.channelPath) QUERY_PATH_SEPARATOR =
          query.channelPath := pieces_intercalate hfree hlast
      have hparse : ∀ read, parse query.text = .ok read ↔ read = query := by
        intro read
        rw [hplain.parse_text hselectors, hsplit]
        constructor
        · rintro ⟨h1, -, h2⟩
          obtain ⟨path, selectors⟩ := read
          subst h1 h2
          rfl
        · rintro rfl
          exact ⟨rfl, hvalues, rfl⟩
      refine ⟨⟨fun _ => ⟨query, hplain, hpath, hselectors, rfl⟩,
        fun _ => ⟨query, (hparse query).mpr rfl⟩⟩, ?_⟩
      intro read hread
      obtain rfl := (hparse read).mp hread
      rw [toSubscriptionQueryString_eq hpath, if_neg hselectors]
    · have hrefused : ¬ ∃ query, parse s = .ok query := fun h => hloose (parses_iff.mp h)
      exact ⟨⟨fun h => absurd h hrefused, fun h => absurd h hgrammar⟩,
        fun query hquery => absurd ⟨query, hquery⟩ hrefused⟩

/-! ### Objects -/

/-- All components are there and free of separators. -/
structure ProperParts (query : SubscriptionQueryObj) : Prop where
  plain : query.PlainParts
  path_ne_nil : ∀ p ∈ query.channelPath, p ≠ []
  selectors_ne_nil : ∀ s ∈ query.selectors, s.selectorKey ≠ [] ∧ s.selectorValue ≠ []

/-- A query is printed, and reading the text gives it back. -/
def RoundTrips (query : SubscriptionQueryObj) : Prop :=
  ∃ s, query.toSubscriptionQueryString = .ok s ∧ parse s = .ok query

/-- Printed queries are read back, but not every query can be printed. -/
theorem ProperParts.roundTrips_iff (h : query.ProperParts) :
    query.RoundTrips ↔ query.channelPath ≠ [] := by
  constructor
  · rintro ⟨s, hprint, -⟩ hnil
    rw [toSubscriptionQueryString_of_nil hnil] at hprint
    cases hprint
  · intro hpath
    have hlast : query.channelPath.getLast? ≠ some [] := by
      intro hlast
      exact h.path_ne_nil [] (List.mem_of_getLast? hlast) rfl
    have hsplit : split (pathText query.channelPath) QUERY_PATH_SEPARATOR = query.channelPath :=
      pieces_intercalate (fun p hp => (h.plain.path p hp).2.1) hlast
    refine ⟨_, toSubscriptionQueryString_eq hpath, ?_⟩
    by_cases hselectors : query.selectors = []
    · have hne : pathText query.channelPath ≠ [] := by
        intro hnil
        rw [hnil] at hsplit
        exact hpath hsplit.symm
      rw [if_pos hselectors,
        parse_of_path (pieces_of_notMem (notMem_pathText h.plain.path) hne), hsplit]
      obtain ⟨path, selectors⟩ := query
      subst hselectors
      rfl
    · rw [if_neg hselectors, h.plain.parse_text hselectors]
      exact ⟨hsplit.symm, fun s hs => (h.selectors_ne_nil s hs).2, rfl⟩

end SubscriptionQueryObj

end PrivmxEndpoint
