import PrivmxEndpoint.JsonReader
import PrivmxEndpoint.MarkRemoval
import PrivmxEndpoint.StoreTypes

/-!
# Slashes in printed JSON

The JSON library prints a backslash in front of every slash of a string, and `stringify`
takes these backslashes out again.  The loop looks at two neighbours at a time and does
not know whether the first of them is escaped itself.  It need not: a slash that was
printed by the library has its own backslash right before it.
-/

namespace PrivmxEndpoint

open JsonText MarkRemoval

/-- An object or an array of the JSON library, which `stringify` is overloaded for. -/
inductive JsonContainer
  | array (items : List Value)
  | object (members : List (Bytes × Value))

def JsonContainer.value : JsonContainer → Value
  | .array items => .array items
  | .object members => .object members

/-- How the library spells a byte of a string. -/
inductive PocoSpelling : UInt8 → Bytes → Prop
  | backslash : PocoSpelling backslash [backslash, backslash]
  | slash : PocoSpelling slash [backslash, slash]
  | escape {b : UInt8} {p : Bytes} (hbackslash : b ≠ JsonText.backslash)
      (hslash : b ≠ JsonText.slash) (h : Escape b p) : PocoSpelling b p
  | plain {b : UInt8} (hcontrol : 0x20 ≤ b) (hquote : b ≠ quote)
      (hbackslash : b ≠ JsonText.backslash) (hslash : b ≠ JsonText.slash) : PocoSpelling b [b]

/-- `Poco::JSON`: `Object::stringify` and `Array::stringify` with an indentation,
`Parser::parse`, and what the parser builds of the values that it reads. -/
structure PocoJson (ε Var : Type) where
  stringify : Nat → JsonContainer → Bytes
  parse : Bytes → Except ε Var
  built : Value → Except ε Var

/-- What is known of the library: it prints JSON texts in its own spelling, and of a JSON
text it builds what the value of the text says. -/
structure PocoJson.Documented {ε Var : Type} (poco : PocoJson ε Var) : Prop where
  stringify_written : ∀ indent v, Written PocoSpelling (.element v.value) (poco.stringify indent v)
  parse_document : ∀ {v t}, Document v t → poco.parse t = poco.built v

namespace Utils

/-- The loop of `removeEscape` with the iterator at an index.  There is no result if the
iterator is read at the end of the string or behind it.  `erase` moves the rest of the
string down and returns the place of the slash, which `++it` then leaves. -/
def removeEscapeFrom (result : Bytes) (it : Nat) : Option Bytes :=
  if it = result.length then some result
  else
    match h : result[it]? with
    | none => none
    | some c =>
        if c = backslash then
          match result[it + 1]? with
          | none => none
          | some d =>
              if d = slash then removeEscapeFrom (result.eraseIdx it) (it + 1)
              else removeEscapeFrom result (it + 1)
        else removeEscapeFrom result (it + 1)
termination_by result.length - it
decreasing_by
  all_goals
    obtain ⟨hlt, _⟩ := List.getElem?_eq_some_iff.mp h
    first
    | rw [List.length_eraseIdx_of_lt hlt]; omega
    | omega

def removeEscape (data : Bytes) : Option Bytes := removeEscapeFrom data 0

def stringify {ε Var : Type} (poco : PocoJson ε Var) (v : JsonContainer) (pretty : Bool) :
    Option Bytes :=
  removeEscape (poco.stringify (if pretty then 4 else 0) v)

def parseJson {ε Var : Type} (poco : PocoJson ε Var) (json : Bytes) : Except ε Var :=
  poco.parse json

/-! ### The loop -/

/-- The iterator moves on from a character that is no backslash. -/
theorem removeEscapeFrom_of_ne {c : UInt8} (hc : c ≠ backslash) (passed rest : Bytes) :
    removeEscapeFrom (passed ++ c :: rest) passed.length =
      removeEscapeFrom ((passed ++ [c]) ++ rest) (passed ++ [c]).length := by
  rw [removeEscapeFrom, if_neg (by simp)]
  have hget : (passed ++ c :: rest)[passed.length]? = some c := by simp
  split
  · next hnone => simp at hnone
  · next c' hsome =>
      obtain rfl : c = c' := Option.some.inj (hget.symm.trans hsome)
      rw [if_neg hc, List.append_assoc, List.length_append]
      rfl

/-- Behind a backslash the next character is read. -/
theorem removeEscapeFrom_backslash (passed rest : Bytes) :
    removeEscapeFrom (passed ++ backslash :: rest) passed.length =
      rest.head?.bind fun d =>
        if d = slash then removeEscapeFrom (passed ++ rest) (passed.length + 1)
        else removeEscapeFrom (passed ++ backslash :: rest) (passed.length + 1) := by
  rw [removeEscapeFrom, if_neg (by simp)]
  have hget : (passed ++ backslash :: rest)[passed.length]? = some backslash := by simp
  have hnext : (passed ++ backslash :: rest)[passed.length + 1]? = rest.head? := by
    rw [List.getElem?_append_right (by omega), Nat.add_sub_cancel_left]
    exact List.head?_eq_getElem?.symm
  have herase : (passed ++ backslash :: rest).eraseIdx passed.length = passed ++ rest := by
    rw [List.eraseIdx_append_of_length_le (Nat.le_refl _), Nat.sub_self]
    rfl
  split
  · next hnone => simp at hnone
  · next c hsome =>
      obtain rfl : backslash = c := Option.some.inj (hget.symm.trans hsome)
      rw [if_pos rfl, hnext, herase]
      cases rest.head? with
      | none => rfl
      | some d => rfl

/-- With the iterator behind `passed` the loop drops the backslashes in front of slashes,
unless it reads behind the end, as it does if and only if a backslash stands there. -/
theorem removeEscapeFrom_append (passed rest : Bytes) :
    removeEscapeFrom (passed ++ rest) passed.length =
      if rest.getLast? = some backslash then none
      else some (passed ++ dropMarks backslash slash rest) := by
  induction rest using List.twoStepInduction generalizing passed with
  | nil =>
      rw [removeEscapeFrom, if_pos (by simp)]
      simp [dropMarks]
  | singleton c =>
      by_cases hc : c = backslash
      · subst hc
        rw [removeEscapeFrom_backslash]
        rfl
      · rw [removeEscapeFrom_of_ne hc, removeEscapeFrom, if_pos (by simp),
          dropMarks_cons_of_ne hc]
        simp [dropMarks, hc]
  | cons_cons c d rest ih ihd =>
      have hmove : ∀ {c : UInt8} {l : Bytes}, passed ++ c :: l = (passed ++ [c]) ++ l :=
        fun {c l} => by simp
      have hlength : ∀ c : UInt8, passed.length + 1 = (passed ++ [c]).length :=
        fun c => by simp
      rw [List.getLast?_cons_cons]
      by_cases hc : c = backslash
      · subst hc
        rw [removeEscapeFrom_backslash, List.head?_cons, Option.bind_some]
        by_cases hd : d = slash
        · subst hd
          have hlast : (slash :: rest).getLast? = some backslash ↔
              rest.getLast? = some backslash := by
            cases rest with
            | nil => decide
            | cons e rest => rw [List.getLast?_cons_cons]
          rw [if_pos rfl, hmove, hlength slash, ih, dropMarks_mark_item,
            dropMarks_cons_of_ne (by decide)]
          simp [hlast]
        · have hdrop : dropMarks backslash slash (backslash :: d :: rest) =
              backslash :: dropMarks backslash slash (d :: rest) :=
            dropMarks_cons_of_head (by simpa using hd)
          rw [if_neg hd, hmove, hlength backslash, ihd, hdrop]
          simp
      · rw [removeEscapeFrom_of_ne hc, ihd, dropMarks_cons_of_ne hc]
        simp

/-- **The loop of `removeEscape` ends, and it reads behind the end of the string if and
only if a backslash stands there.** -/
theorem removeEscape_eq (data : Bytes) :
    removeEscape data =
      if data.getLast? = some backslash then none else some (dropMarks backslash slash data) :=
  removeEscapeFrom_append [] data

/-- The loop knows nothing of escaped backslashes: this one would be lost in front of a
slash that has none of its own. -/
example : removeEscape [backslash, backslash, slash] = some [backslash, slash] := by
  rw [removeEscape_eq]
  decide

/-! ### Printed texts -/

/-- Every spelling of the parser's printer is a spelling of JSON. -/
theorem spelling_of_poco {b : UInt8} {p : Bytes} (h : PocoSpelling b p) : Spelling b p := by
  cases h with
  | backslash => exact .escape (.letter (by decide))
  | slash => exact .escape (.letter (by decide))
  | escape _ _ h => exact .escape h
  | plain hcontrol hquote hbackslash _ => exact .plain hcontrol hquote hbackslash

/-- No escape sequence has a slash in it but that of the slash. -/
theorem slash_notMem_escape {b : UInt8} {p : Bytes} (h : Escape b p) (hb : b ≠ slash) :
    slash ∉ p := by
  cases h with
  | @letter l b h =>
      have hl : slash ≠ l := by
        intro hl
        have hlookup : namedEscapes.lookup l = some slash := hl ▸ by decide
        rw [hlookup] at h
        exact hb (Option.some.inj h).symm
      simp only [List.mem_cons, List.not_mem_nil, or_false, not_or]
      exact ⟨by decide, hl⟩
  | @code h₁ h₂ b h =>
      have hhex : hexValue slash = none := by decide
      have hh₁ : slash ≠ h₁ := by
        intro hh
        rw [← hh, hexByte, hhex] at h
        cases h
      have hh₂ : slash ≠ h₂ := by
        intro hh
        rw [← hh, hexByte, hhex] at h
        cases hhigh : hexValue h₁ with
        | none => simp [hhigh] at h
        | some high => simp [hhigh] at h
      simp only [List.mem_cons, List.not_mem_nil, or_false, not_or]
      exact ⟨by decide, by decide, by decide, by decide, hh₁, hh₂⟩

/-- What the loop leaves of the spelling of a byte still spells it. -/
theorem spelling_dropMarks {b : UInt8} {p : Bytes} (h : PocoSpelling b p) :
    Spelling b (dropMarks backslash slash p) := by
  cases h with
  | backslash => exact .escape (.letter (by decide))
  | slash => exact .plain (by decide) (by decide) (by decide)
  | escape _ hslash h =>
      rw [dropMarks_of_item_notMem (slash_notMem_escape h hslash)]
      exact .escape h
  | plain hcontrol hquote hbackslash hslash =>
      rw [dropMarks_of_item_notMem (by simpa using hslash.symm)]
      exact .plain hcontrol hquote hbackslash

/-- A text that starts with another character does not start with a slash. -/
theorem head?_cons_ne {c : UInt8} (hc : c ≠ slash) (l : Bytes) : (c :: l).head? ≠ some slash :=
  fun h => hc (Option.some.inj h)

/-- A spelling does not start with a slash. -/
theorem head?_poco {b : UInt8} {p : Bytes} (h : PocoSpelling b p) (rest : Bytes) :
    (p ++ rest).head? ≠ some slash := by
  have hbackslash : backslash ≠ slash := by decide
  cases h with
  | backslash => exact head?_cons_ne hbackslash _
  | slash => exact head?_cons_ne hbackslash _
  | escape _ _ h =>
      cases h with
      | letter _ => exact head?_cons_ne hbackslash _
      | code _ => exact head?_cons_ne hbackslash _
  | plain _ _ _ hslash => exact head?_cons_ne hslash _

/-- The marks are dropped spelling by spelling. -/
theorem dropMarks_flatten {s : Bytes} {ps : List Bytes} (h : List.Forall₂ PocoSpelling s ps) :
    List.Forall₂ Spelling s (ps.map (dropMarks backslash slash)) ∧
      dropMarks backslash slash ps.flatten = (ps.map (dropMarks backslash slash)).flatten := by
  induction h with
  | nil => exact ⟨.nil, rfl⟩
  | @cons b p s ps hp h ih =>
      obtain ⟨hspell, hflatten⟩ := ih
      refine ⟨.cons (spelling_dropMarks hp) hspell, ?_⟩
      have hhead : ps.flatten.head? ≠ some slash := by
        cases h with
        | nil => simp
        | cons hq _ => exact head?_poco hq _
      rw [List.flatten_cons, dropMarks_append p hhead, hflatten]
      rfl

/-- A string keeps its meaning when the marks are dropped. -/
theorem quoted_dropMarks {s t : Bytes} (h : Quoted PocoSpelling s t) :
    Quoted Spelling s (dropMarks backslash slash t) := by
  obtain ⟨ps, hps, rfl⟩ := h
  obtain ⟨hspell, hflatten⟩ := dropMarks_flatten hps
  refine ⟨_, hspell, ?_⟩
  rw [dropMarks_cons_of_ne (by decide), dropMarks_append _ (by decide), hflatten]
  rfl

/-- Space does not bring a slash to the front. -/
theorem head?_space {w rest : Bytes} (hw : Space w) (hrest : rest.head? ≠ some slash) :
    (w ++ rest).head? ≠ some slash := by
  cases w with
  | nil => exact hrest
  | cons b w =>
      intro h
      have hb : b = slash := Option.some.inj h
      have hspace := hw b List.mem_cons_self
      rw [hb] at hspace
      exact absurd hspace (by decide)

/-- Space contains no backslash. -/
theorem backslash_notMem_space {w : Bytes} (hw : Space w) : backslash ∉ w :=
  fun hmem => absurd (hw backslash hmem) (by decide)

/-- **What the loop leaves of a printed text is a text of the same value.**  The parts of
the text are treated one by one, since none behind another starts with a slash. -/
theorem written_dropMarks {ph : Phrase} {t : Bytes} (h : Written PocoSpelling ph t) :
    Written Spelling ph (dropMarks backslash slash t) := by
  induction h with
  | null => exact .null
  | bool b =>
      cases b with
      | true => exact .bool true
      | false => exact .bool false
  | number n =>
      have hn : backslash ∉ n.text :=
        fun hmem => absurd (n.numberByte_of_mem _ hmem) (by decide)
      rw [dropMarks_of_notMem hn]
      exact .number n
  | string h => exact .string (quoted_dropMarks h)
  | emptyArray hw =>
      rw [dropMarks_cons_of_ne (by decide),
        dropMarks_append_of_notMem (backslash_notMem_space hw)]
      exact .emptyArray hw
  | array _ ih =>
      rw [dropMarks_cons_of_ne (by decide), dropMarks_append _ (by decide)]
      exact .array ih
  | emptyObject hw =>
      rw [dropMarks_cons_of_ne (by decide),
        dropMarks_append_of_notMem (backslash_notMem_space hw)]
      exact .emptyObject hw
  | object _ ih =>
      rw [dropMarks_cons_of_ne (by decide), dropMarks_append _ (by decide)]
      exact .object ih
  | @element v w₁ t w₂ hw₁ _ hw₂ ih =>
      have hnil : ([] : Bytes).head? ≠ some slash := by decide
      have hhead : w₂.head? ≠ some slash := by simpa using head?_space hw₂ hnil
      rw [dropMarks_append_of_notMem (backslash_notMem_space hw₁), dropMarks_append t hhead,
        dropMarks_of_notMem (backslash_notMem_space hw₂)]
      exact .element hw₁ ih hw₂
  | oneElement _ ih => exact .oneElement ih
  | moreElements _ _ ih ihs =>
      rw [dropMarks_append _ (head?_cons_ne (by decide) _), dropMarks_cons_of_ne (by decide)]
      exact .moreElements ih ihs
  | @member k q w₁ w₂ t v hw₁ hq hw₂ _ ih =>
      have hhead : (w₂ ++ colon :: t).head? ≠ some slash := head?_space hw₂ (head?_cons_ne (by decide) t)
      rw [dropMarks_append_of_notMem (backslash_notMem_space hw₁), dropMarks_append q hhead,
        dropMarks_append_of_notMem (backslash_notMem_space hw₂),
        dropMarks_cons_of_ne (by decide)]
      exact .member hw₁ (quoted_dropMarks hq) hw₂ ih
  | oneMember _ ih => exact .oneMember ih
  | moreMembers _ _ ih ihs =>
      rw [dropMarks_append _ (head?_cons_ne (by decide) _), dropMarks_cons_of_ne (by decide)]
      exact .moreMembers ih ihs

/-- Space does not bring a backslash to the end. -/
theorem getLast?_space {t w : Bytes} {c : UInt8} (hc : c ≠ backslash) (hw : Space w) :
    (t ++ [c] ++ w).getLast? ≠ some backslash := by
  rw [List.getLast?_append, List.getLast?_append]
  cases hlast : w.getLast? with
  | none => simpa using hc
  | some b =>
      have hb : b ≠ backslash := by
        intro hb
        exact backslash_notMem_space hw (hb ▸ List.mem_of_getLast? hlast)
      simpa using hb

/-- An object or an array does not end with a backslash. -/
theorem getLast?_container {v : JsonContainer} {t : Bytes}
    (h : Written PocoSpelling (.element v.value) t) : t.getLast? ≠ some backslash := by
  generalize hvalue : v.value = value at h
  cases h with
  | @element _ w₁ t w₂ _ h hw₂ =>
      have hend : ∃ body c, w₁ ++ (t ++ w₂) = body ++ [c] ++ w₂ ∧ c ≠ backslash := by
        cases v with
        | array vs =>
            subst hvalue
            cases h with
            | @emptyArray w _ =>
                exact ⟨w₁ ++ openBracket :: w, closeBracket, by simp, by decide⟩
            | @array _ t _ => exact ⟨w₁ ++ openBracket :: t, closeBracket, by simp, by decide⟩
        | object ms =>
            subst hvalue
            cases h with
            | @emptyObject w _ => exact ⟨w₁ ++ openBrace :: w, closeBrace, by simp, by decide⟩
            | @object _ t _ => exact ⟨w₁ ++ openBrace :: t, closeBrace, by simp, by decide⟩
      obtain ⟨body, c, heq, hc⟩ := hend
      rw [heq]
      exact getLast?_space hc hw₂

/-- The loop ends on a printed text, with another text of the same value. -/
theorem removeEscape_document {v : JsonContainer} {t : Bytes}
    (h : Written PocoSpelling (.element v.value) t) :
    ∃ text, removeEscape t = some text ∧ Document v.value text := by
  refine ⟨dropMarks backslash slash t, ?_, written_dropMarks h⟩
  rw [removeEscape_eq, if_neg (getLast?_container h)]

/-- A document that was printed is parsed back. -/
theorem stringify_document {ε Var : Type} {poco : PocoJson ε Var} (hpoco : poco.Documented)
    (v : JsonContainer) (pretty : Bool) :
    ∃ json, stringify poco v pretty = some json ∧ parseJson poco json = poco.built v.value := by
  obtain ⟨json, hjson, hdocument⟩ := removeEscape_document (hpoco.stringify_written _ v)
  exact ⟨json, hjson, hpoco.parse_document hdocument⟩

/-- **What `removeEscape` leaves of a printed object or array is read like the printed text
itself**, and the loop gets to the end of the text without a read behind it. -/
theorem parseJson_removeEscape {ε Var : Type} {poco : PocoJson ε Var}
    (hpoco : poco.Documented) (indent : Nat) (v : JsonContainer) :
    ∃ text, removeEscape (poco.stringify indent v) = some text ∧
      parseJson poco text = parseJson poco (poco.stringify indent v) := by
  have hwritten := hpoco.stringify_written indent v
  have hprinted : Document v.value (poco.stringify indent v) := hwritten.mono spelling_of_poco
  obtain ⟨text, htext, hdocument⟩ := removeEscape_document hwritten
  refine ⟨text, htext, ?_⟩
  unfold parseJson
  rw [hpoco.parse_document hdocument, hpoco.parse_document hprinted]

/-! ### A library -/

def hexDigit (d : UInt8) : UInt8 := if d < 10 then 0x30 + d else 0x57 + d

/-- The letter of the table if the byte has one, and else the code of a control character. -/
def pocoSpell (b : UInt8) : Bytes :=
  match namedEscapes.find? fun entry => entry.2 == b with
  | some entry => [backslash, entry.1]
  | none =>
      if b < 0x20 then [backslash, 0x75, 0x30, 0x30, hexDigit (b / 16), hexDigit (b % 16)]
      else [b]

/-- A control character is read back from its two digits. -/
theorem hexByte_hexDigit {b : UInt8} (hb : b < 0x20) :
    hexByte (hexDigit (b / 16)) (hexDigit (b % 16)) = some b := by
  have hcodes : ∀ n < 32, hexByte (hexDigit (UInt8.ofNat n / 16)) (hexDigit (UInt8.ofNat n % 16)) =
      some (UInt8.ofNat n) := by decide
  have hcode := hcodes b.toNat (UInt8.lt_iff_toNat_lt.mp hb)
  rwa [UInt8.ofNat_toNat] at hcode

/-- The sample printer spells as documented. -/
theorem pocoSpelling_pocoSpell (b : UInt8) : PocoSpelling b (pocoSpell b) := by
  unfold pocoSpell
  cases hfind : namedEscapes.find? fun entry => entry.2 == b with
  | some entry =>
      have hentry : entry.2 = b := by simpa using List.find?_some hfind
      have hmem := List.mem_of_find?_eq_some hfind
      simp only [namedEscapes, List.mem_cons, List.not_mem_nil, or_false] at hmem
      subst hentry
      rcases hmem with rfl | rfl | rfl | rfl | rfl | rfl | rfl | rfl
      · exact .escape (by decide) (by decide) (.letter (by decide))
      · exact .backslash
      · exact .slash
      all_goals exact .escape (by decide) (by decide) (.letter (by decide))
  | none =>
      have hother := List.find?_eq_none.mp hfind
      have hne : ∀ entry ∈ namedEscapes, b ≠ entry.2 := by
        intro entry hmem heq
        exact hother entry hmem (by simp [heq])
      have hquote : b ≠ quote := hne (0x22, 0x22) (by decide)
      have hbackslash : b ≠ backslash := hne (0x5c, 0x5c) (by decide)
      have hslash : b ≠ slash := hne (0x2f, 0x2f) (by decide)
      by_cases hb : b < 0x20
      · simp only [if_pos hb]
        exact .escape hbackslash hslash (.code (hexByte_hexDigit hb))
      · simp only [if_neg hb]
        exact .plain (UInt8.not_lt.mp hb) hquote hbackslash hslash

def compactPoco : PocoJson Unit Value where
  stringify _ v := v.value.print pocoSpell
  parse t := match JsonText.read t with
    | some v => .ok v
    | none => .error ()
  built := .ok

/-- The sample parser satisfies the documented laws. -/
theorem compactPoco_documented : compactPoco.Documented where
  stringify_written _ v := (written_print pocoSpelling_pocoSpell v.value).to_element
  parse_document h := by
    show (match JsonText.read _ with | some v => _ | none => _) = _
    rw [read_of_document h]
    rfl

/-- An object whose strings hold a slash behind a backslash and two behind two. -/
theorem parseJson_removeEscape_sample :
    ∃ text,
      removeEscape (compactPoco.stringify 0 (.object [([0x61, backslash, slash],
        .array [.string [backslash, backslash, slash, slash], .string [quote, 0x0a]])])) =
          some text ∧
      parseJson compactPoco text =
        parseJson compactPoco (compactPoco.stringify 0 (.object [([0x61, backslash, slash],
          .array [.string [backslash, backslash, slash, slash], .string [quote, 0x0a]])])) :=
  parseJson_removeEscape compactPoco_documented 0 _

end Utils

end PrivmxEndpoint
