import PrivmxEndpoint.JsonText

/-!
# Reading JSON texts

A reader by recursive descent.  It reads every text of the grammar as the value that the
text was written for (`read_of_document`), so that no text has two values.
-/

namespace JsonText

/-! ### The reader -/

def skipSpace (t : List UInt8) : List UInt8 := t.dropWhile isSpace

def expect (c : UInt8) : List UInt8 → Option (List UInt8)
  | [] => none
  | b :: rest => if b = c then some rest else none

def consByte (b : UInt8) (r : Option (List UInt8 × List UInt8)) :
    Option (List UInt8 × List UInt8) :=
  r.map fun x => (b :: x.1, x.2)

/-- Reads a string up to its closing quote. -/
def readString : List UInt8 → Option (List UInt8 × List UInt8)
  | [] => none
  | b :: rest =>
      if b = quote then some ([], rest)
      else if b = backslash then
        match rest with
        | [] => none
        | l :: more =>
            if l = 0x75 then
              match more with
              | z₁ :: z₂ :: h₁ :: h₂ :: after =>
                  if z₁ = 0x30 ∧ z₂ = 0x30 then
                    (hexByte h₁ h₂).bind fun c => consByte c (readString after)
                  else none
              | _ => none
            else (namedEscapes.lookup l).bind fun c => consByte c (readString more)
      else if 0x20 ≤ b then consByte b (readString rest)
      else none

def readWord (word : List UInt8) (v : Value) (t : List UInt8) : Option (Value × List UInt8) :=
  if word.isPrefixOf t then some (v, t.drop word.length) else none

def readNumber (t : List UInt8) : Option (Value × List UInt8) :=
  if h : isNumber (t.takeWhile numberByte) = true then
    some (.number ⟨_, h⟩, t.dropWhile numberByte)
  else none

mutual

def readValue : Nat → List UInt8 → Option (Value × List UInt8)
  | 0, _ => none
  | _ + 1, [] => none
  | fuel + 1, b :: rest =>
      if b = openBracket then
        match expect closeBracket (skipSpace rest) with
        | some after => some (.array [], after)
        | none => do
            let (vs, after) ← readElements fuel rest
            let after ← expect closeBracket after
            return (.array vs, after)
      else if b = openBrace then
        match expect closeBrace (skipSpace rest) with
        | some after => some (.object [], after)
        | none => do
            let (ms, after) ← readMembers fuel rest
            let after ← expect closeBrace after
            return (.object ms, after)
      else if b = quote then do
        let (s, after) ← readString rest
        return (.string s, after)
      else if b = 0x6e then readWord nullText .null (b :: rest)
      else if b = 0x74 then readWord (boolText true) (.bool true) (b :: rest)
      else if b = 0x66 then readWord (boolText false) (.bool false) (b :: rest)
      else readNumber (b :: rest)

def readElement : Nat → List UInt8 → Option (Value × List UInt8)
  | 0, _ => none
  | fuel + 1, t => do
      let (v, after) ← readValue fuel (skipSpace t)
      return (v, skipSpace after)

def readElements : Nat → List UInt8 → Option (List Value × List UInt8)
  | 0, _ => none
  | fuel + 1, t => do
      let (v, after) ← readElement fuel t
      match expect comma after with
      | none => return ([v], after)
      | some more =>
          let (vs, after) ← readElements fuel more
          return (v :: vs, after)

def readMember : Nat → List UInt8 → Option ((List UInt8 × Value) × List UInt8)
  | 0, _ => none
  | fuel + 1, t => do
      let t ← expect quote (skipSpace t)
      let (k, t) ← readString t
      let t ← expect colon (skipSpace t)
      let (v, after) ← readElement fuel t
      return ((k, v), after)

def readMembers : Nat → List UInt8 → Option (List (List UInt8 × Value) × List UInt8)
  | 0, _ => none
  | fuel + 1, t => do
      let (m, after) ← readMember fuel t
      match expect comma after with
      | none => return ([m], after)
      | some more =>
          let (ms, after) ← readMembers fuel more
          return (m :: ms, after)

end

/-- The value of a text, if nothing is left over. -/
def read (t : List UInt8) : Option Value :=
  match readElement (3 * t.length + 2) t with
  | some (v, []) => some v
  | _ => none

/-! ### Bytes between the phrases -/

/-- White space in front is skipped. -/
theorem skipSpace_append {w : List UInt8} (hw : Space w) (t : List UInt8) :
    skipSpace (w ++ t) = skipSpace t := by
  unfold skipSpace
  rw [List.dropWhile_append_of_pos hw]

/-- Nothing is skipped in front of another byte. -/
theorem skipSpace_cons {b : UInt8} (hb : isSpace b = false) (t : List UInt8) :
    skipSpace (b :: t) = b :: t :=
  List.dropWhile_cons_of_neg (by simp [hb])

/-- The byte that is expected is taken. -/
theorem expect_self (c : UInt8) (t : List UInt8) : expect c (c :: t) = some t := if_pos rfl

/-- Another one is not. -/
theorem expect_of_ne {b c : UInt8} (h : b ≠ c) (t : List UInt8) : expect c (b :: t) = none :=
  if_neg h

/-- A byte of a number is none that no number has. -/
theorem ne_of_numberByte {b c : UInt8} (hb : numberByte b = true) (hc : numberByte c = false) :
    b ≠ c := by
  intro h
  rw [h, hc] at hb
  cases hb

/-- What may follow a value does not belong to a number. -/
def Delimited (rest : List UInt8) : Prop := ∀ b ∈ rest.head?, numberByte b = false

/-- What may follow an element or a member. -/
def Ended (rest : List UInt8) : Prop :=
  ∀ b ∈ rest.head?, b = comma ∨ b = closeBracket ∨ b = closeBrace

/-- What may follow the last element or member. -/
def Closed (rest : List UInt8) : Prop := ∀ b ∈ rest.head?, b = closeBracket ∨ b = closeBrace

/-- What closes a phrase ends a value. -/
theorem Closed.ended {rest : List UInt8} (h : Closed rest) : Ended rest :=
  fun b hb => Or.inr (h b hb)

/-- So does a comma. -/
theorem ended_comma (t : List UInt8) : Ended (comma :: t) := by
  intro b hb
  exact Or.inl (Option.some.inj hb).symm

/-- Where a phrase closes there is no comma. -/
theorem Closed.expect_comma {rest : List UInt8} (h : Closed rest) : expect comma rest = none := by
  cases rest with
  | nil => rfl
  | cons b rest =>
      refine expect_of_ne ?_ rest
      cases h b rfl with
      | inl hb => exact hb ▸ by decide
      | inr hb => exact hb ▸ by decide

/-- What ends an element has no space in front and ends a number. -/
theorem Ended.skipSpace {rest : List UInt8} (h : Ended rest) : skipSpace rest = rest := by
  cases rest with
  | nil => rfl
  | cons b rest =>
      refine skipSpace_cons ?_ rest
      rcases h b rfl with hb | hb | hb <;> exact hb ▸ by decide

/-- White space and the end of a value end a number. -/
theorem Ended.delimited {w rest : List UInt8} (hw : Space w) (h : Ended rest) :
    Delimited (w ++ rest) := by
  intro b hb
  cases w with
  | nil => rcases h b hb with hb | hb | hb <;> exact hb ▸ by decide
  | cons c w =>
      obtain rfl : c = b := Option.some.inj hb
      have hc := hw c List.mem_cons_self
      simp only [isSpace, Bool.or_eq_true, beq_iff_eq] at hc
      rcases hc with ((hc | hc) | hc) | hc <;> exact hc ▸ by decide

/-! ### Strings and numbers -/

/-- A byte is read from each of its spellings. -/
theorem readString_spelling {b : UInt8} {p : List UInt8} (h : Spelling b p)
    (rest : List UInt8) : readString (p ++ rest) = consByte b (readString rest) := by
  cases h with
  | plain hcontrol hquote hbackslash =>
      rw [List.cons_append, List.nil_append, readString.eq_def]
      simp only [if_neg hquote, if_neg hbackslash, if_pos hcontrol]
  | escape h =>
      cases h with
      | @letter l b h =>
          have hl : l ≠ 0x75 := by
            intro hl
            have hnone : namedEscapes.lookup l = none := hl ▸ by decide
            rw [hnone] at h
            cases h
          rw [List.cons_append, List.cons_append, List.nil_append, readString.eq_def]
          simp only [if_neg (show backslash ≠ quote by decide), if_pos, if_neg hl, h,
            Option.bind_some]
      | code h =>
          simp only [List.cons_append, List.nil_append]
          rw [readString, if_neg (by decide), if_pos rfl, if_pos rfl, if_pos ⟨rfl, rfl⟩, h,
            Option.bind_some]

/-- A quote ends a string. -/
theorem readString_quote (rest : List UInt8) : readString (quote :: rest) = some ([], rest) := by
  rw [readString.eq_def]
  exact if_pos rfl

/-- A string is read from its text. -/
theorem readString_quoted {s t : List UInt8} (h : Quoted Spelling s t) (rest : List UInt8) :
    ∃ u, t ++ rest = quote :: u ∧ readString u = some (s, rest) := by
  obtain ⟨ps, hps, rfl⟩ := h
  refine ⟨ps.flatten ++ quote :: rest, by simp, ?_⟩
  induction hps with
  | nil =>
      exact readString_quote rest
  | cons hp _ ih =>
      rw [List.flatten_cons, List.append_assoc, readString_spelling hp, ih]
      rfl

/-- The bytes of a number are those of its text. -/
theorem takeWhile_number (n : Number) {rest : List UInt8} (hrest : Delimited rest) :
    (n.text ++ rest).takeWhile numberByte = n.text := by
  rw [List.takeWhile_append_of_pos n.numberByte_of_mem]
  cases rest with
  | nil => simp
  | cons b rest => rw [List.takeWhile_cons_of_neg (by simp [hrest b rfl]), List.append_nil]

/-- What follows them is not of the number. -/
theorem dropWhile_number (n : Number) {rest : List UInt8} (hrest : Delimited rest) :
    (n.text ++ rest).dropWhile numberByte = rest := by
  rw [List.dropWhile_append_of_pos n.numberByte_of_mem]
  cases rest with
  | nil => rfl
  | cons b rest => exact List.dropWhile_cons_of_neg (by simp [hrest b rfl])

/-- A number is read from its text. -/
theorem readNumber_text (n : Number) {rest : List UInt8} (hrest : Delimited rest) :
    readNumber (n.text ++ rest) = some (.number n, rest) := by
  have htake := takeWhile_number n hrest
  have hnumber : isNumber ((n.text ++ rest).takeWhile numberByte) = true := by
    rw [htake]
    exact n.isNumber_text
  have hn : (⟨_, hnumber⟩ : Number) = n := by
    cases n
    simp only [Number.mk.injEq]
    exact htake
  unfold readNumber
  rw [dif_pos hnumber, hn, dropWhile_number n hrest]

/-- A word is read from its letters. -/
theorem readWord_append (word rest : List UInt8) (v : Value) :
    readWord word v (word ++ rest) = some (v, rest) := by
  unfold readWord
  rw [if_pos (by simp), List.drop_left]

/-! ### Every text is read -/

/-- A value starts with a byte that is no space and closes nothing. -/
theorem Written.value_head {Spells : UInt8 → List UInt8 → Prop} {v : Value} {t : List UInt8}
    (h : Written Spells (.value v) t) :
    ∃ b u, t = b :: u ∧ isSpace b = false ∧ b ≠ closeBracket := by
  cases h with
  | null => exact ⟨_, _, rfl, by decide, by decide⟩
  | bool b =>
      cases b with
      | true => exact ⟨_, _, rfl, by decide, by decide⟩
      | false => exact ⟨_, _, rfl, by decide, by decide⟩
  | number n =>
      obtain ⟨b, u, hbu⟩ := List.exists_cons_of_ne_nil n.text_ne_nil
      have hb : numberByte b = true := n.numberByte_of_mem b (hbu ▸ List.mem_cons_self)
      refine ⟨b, u, hbu, ?_, ne_of_numberByte hb (by decide)⟩
      have h₁ : b ≠ 0x20 := ne_of_numberByte hb (by decide)
      have h₂ : b ≠ 0x09 := ne_of_numberByte hb (by decide)
      have h₃ : b ≠ 0x0a := ne_of_numberByte hb (by decide)
      have h₄ : b ≠ 0x0d := ne_of_numberByte hb (by decide)
      simp [isSpace, h₁, h₂, h₃, h₄]
  | string h =>
      obtain ⟨ps, _, rfl⟩ := h
      exact ⟨_, _, rfl, by decide, by decide⟩
  | emptyArray _ => exact ⟨_, _, rfl, by decide, by decide⟩
  | array _ => exact ⟨_, _, rfl, by decide, by decide⟩
  | emptyObject _ => exact ⟨_, _, rfl, by decide, by decide⟩
  | object _ => exact ⟨_, _, rfl, by decide, by decide⟩

/-- The elements of an array do not start like its end. -/
theorem Written.elements_head {vs : List Value} {t : List UInt8}
    (h : Written Spelling (.elements vs) t) (rest : List UInt8) :
    expect closeBracket (skipSpace (t ++ rest)) = none := by
  have helement : ∀ {v : Value} {t : List UInt8}, Written Spelling (.element v) t →
      ∀ rest, expect closeBracket (skipSpace (t ++ rest)) = none := by
    intro v t h rest
    cases h with
    | @element v w₁ t w₂ hw₁ h hw₂ =>
        obtain ⟨b, u, rfl, hspace, hclose⟩ := h.value_head
        rw [List.append_assoc, skipSpace_append hw₁]
        exact (congrArg _ (skipSpace_cons hspace _)).trans (expect_of_ne hclose _)
  cases h with
  | oneElement h => exact helement h rest
  | moreElements h _ =>
      rw [List.append_assoc]
      exact helement h _

/-- The members of an object do not start like its end. -/
theorem Written.members_head {ms : List (List UInt8 × Value)} {t : List UInt8}
    (h : Written Spelling (.members ms) t) (rest : List UInt8) :
    expect closeBrace (skipSpace (t ++ rest)) = none := by
  have hmember : ∀ {m : List UInt8 × Value} {t : List UInt8}, Written Spelling (.member m) t →
      ∀ rest, expect closeBrace (skipSpace (t ++ rest)) = none := by
    intro m t h rest
    cases h with
    | member hw₁ hq _ _ =>
        obtain ⟨ps, _, rfl⟩ := hq
        rw [List.append_assoc, skipSpace_append hw₁]
        rfl
  cases h with
  | oneMember h => exact hmember h rest
  | moreMembers h _ =>
      rw [List.append_assoc]
      exact hmember h _

/-- The reader gets from the text of a phrase to what follows it, with three levels for
a byte. -/
def Phrase.Read : Phrase → List UInt8 → Prop
  | .value v, t => ∀ fuel rest, 3 * t.length ≤ fuel + 1 → Delimited rest →
      readValue (fuel + 1) (t ++ rest) = some (v, rest)
  | .element v, t => ∀ fuel rest, 3 * t.length ≤ fuel + 1 → Ended rest →
      readElement (fuel + 2) (t ++ rest) = some (v, rest)
  | .elements vs, t => ∀ fuel rest, 3 * t.length ≤ fuel + 1 → Closed rest →
      readElements (fuel + 3) (t ++ rest) = some (vs, rest)
  | .member m, t => ∀ fuel rest, 3 * t.length ≤ fuel + 1 → Ended rest →
      readMember (fuel + 2) (t ++ rest) = some (m, rest)
  | .members ms, t => ∀ fuel rest, 3 * t.length ≤ fuel + 1 → Closed rest →
      readMembers (fuel + 3) (t ++ rest) = some (ms, rest)

/-- A bracket closes an array. -/
theorem closed_bracket (rest : List UInt8) : Closed (closeBracket :: rest) := by
  intro b hb
  exact Or.inl (Option.some.inj hb).symm

/-- A brace closes an object. -/
theorem closed_brace (rest : List UInt8) : Closed (closeBrace :: rest) := by
  intro b hb
  exact Or.inr (Option.some.inj hb).symm

/-- A value that begins like a number is one. -/
theorem readValue_number (n : Number) {rest : List UInt8} (hrest : Delimited rest) (fuel : Nat) :
    readValue (fuel + 1) (n.text ++ rest) = some (.number n, rest) := by
  have hread := readNumber_text n hrest
  obtain ⟨b, u, hbu⟩ := List.exists_cons_of_ne_nil n.text_ne_nil
  have hb : numberByte b = true := n.numberByte_of_mem b (hbu ▸ List.mem_cons_self)
  rw [hbu] at hread ⊢
  rw [List.cons_append, readValue]
  rw [if_neg (ne_of_numberByte hb (by decide)), if_neg (ne_of_numberByte hb (by decide)),
    if_neg (ne_of_numberByte hb (by decide)), if_neg (ne_of_numberByte hb (by decide)),
    if_neg (ne_of_numberByte hb (by decide)), if_neg (ne_of_numberByte hb (by decide))]
  exact hread

/-- A value that begins with a bracket is an array of what is read behind it. -/
theorem readValue_array {fuel : Nat} {t rest : List UInt8} {vs : List Value}
    (hopen : expect closeBracket (skipSpace t) = none)
    (hread : readElements fuel t = some (vs, closeBracket :: rest)) :
    readValue (fuel + 1) (openBracket :: t) = some (.array vs, rest) := by
  rw [readValue, if_pos rfl, hopen, hread]
  rfl

/-- A value that begins with a brace is an object of what is read behind it. -/
theorem readValue_object {fuel : Nat} {t rest : List UInt8}
    {ms : List (List UInt8 × Value)} (hopen : expect closeBrace (skipSpace t) = none)
    (hread : readMembers fuel t = some (ms, closeBrace :: rest)) :
    readValue (fuel + 1) (openBrace :: t) = some (.object ms, rest) := by
  rw [readValue, if_neg (by decide), if_pos rfl, hopen, hread]
  rfl

/-- **Whatever its spelling, a text is read as the phrase that it is written for.** -/
theorem Written.read {ph : Phrase} {t : List UInt8} (h : Written Spelling ph t) :
    ph.Read t := by
  induction h with
  | null =>
      intro fuel rest _ _
      exact readWord_append nullText rest .null
  | bool b =>
      intro fuel rest _ _
      cases b with
      | true => exact readWord_append (boolText true) rest (.bool true)
      | false => exact readWord_append (boolText false) rest (.bool false)
  | number n =>
      intro fuel rest _ hrest
      exact readValue_number n hrest fuel
  | string h =>
      intro fuel rest _ _
      obtain ⟨u, hu, hread⟩ := readString_quoted h rest
      rw [hu, readValue, if_neg (by decide), if_neg (by decide), if_pos rfl, hread]
      rfl
  | emptyArray hw =>
      intro fuel rest _ _
      rw [List.cons_append, List.append_assoc, readValue, if_pos rfl, skipSpace_append hw]
      rfl
  | @array vs t h ih =>
      intro fuel rest hfuel _
      rw [List.length_cons, List.length_append, List.length_singleton] at hfuel
      obtain ⟨n, rfl⟩ := Nat.exists_eq_add_of_le' (show 3 ≤ fuel by omega)
      rw [List.cons_append, List.append_assoc]
      exact readValue_array (h.elements_head _) (ih n _ (by omega) (closed_bracket rest))
  | emptyObject hw =>
      intro fuel rest _ _
      rw [List.cons_append, List.append_assoc, readValue, if_neg (by decide), if_pos rfl,
        skipSpace_append hw]
      rfl
  | object h ih =>
      intro fuel rest hfuel _
      rw [List.length_cons, List.length_append, List.length_singleton] at hfuel
      obtain ⟨n, rfl⟩ := Nat.exists_eq_add_of_le' (show 3 ≤ fuel by omega)
      rw [List.cons_append, List.append_assoc]
      exact readValue_object (h.members_head _) (ih n _ (by omega) (closed_brace rest))
  | @element v w₁ t w₂ hw₁ h hw₂ ih =>
      intro fuel rest hfuel hrest
      rw [List.length_append, List.length_append] at hfuel
      have hvalue := ih fuel (w₂ ++ rest) (by omega) (hrest.delimited hw₂)
      obtain ⟨b, u, rfl, hspace, _⟩ := h.value_head
      have hskip : skipSpace (w₁ ++ (b :: u ++ w₂) ++ rest) = b :: u ++ (w₂ ++ rest) := by
        rw [List.append_assoc, skipSpace_append hw₁, List.append_assoc]
        exact skipSpace_cons hspace _
      rw [readElement, hskip, hvalue]
      simp only [Option.bind_eq_bind, Option.bind_some, skipSpace_append hw₂, hrest.skipSpace]
      rfl
  | oneElement h ih =>
      intro fuel rest hfuel hrest
      rw [readElements, ih fuel rest hfuel hrest.ended]
      simp only [Option.bind_eq_bind, Option.bind_some, hrest.expect_comma]
      rfl
  | moreElements h hs ih ihs =>
      intro fuel rest hfuel hrest
      rw [List.length_append, List.length_cons] at hfuel
      obtain ⟨n, rfl⟩ := Nat.exists_eq_add_of_le' (show 1 ≤ fuel by omega)
      rw [List.append_assoc, List.cons_append, readElements,
        ih (n + 1) _ (by omega) (ended_comma _)]
      simp only [Option.bind_eq_bind, Option.bind_some, expect_self,
        ihs n rest (by omega) hrest]
      rfl
  | @member k q w₁ w₂ t v hw₁ hq hw₂ h ih =>
      intro fuel rest hfuel hrest
      simp only [List.length_append, List.length_cons] at hfuel
      obtain ⟨n, rfl⟩ := Nat.exists_eq_add_of_le' (show 1 ≤ fuel by omega)
      obtain ⟨u, hu, hread⟩ := readString_quoted hq (w₂ ++ colon :: (t ++ rest))
      have hskip : skipSpace (w₁ ++ (q ++ (w₂ ++ colon :: t)) ++ rest) = quote :: u := by
        simp only [List.append_assoc, List.cons_append]
        rw [skipSpace_append hw₁, hu]
        exact skipSpace_cons (by decide) u
      have hcolon : skipSpace (w₂ ++ colon :: (t ++ rest)) = colon :: (t ++ rest) := by
        rw [skipSpace_append hw₂]
        exact skipSpace_cons (by decide) _
      rw [readMember, hskip]
      simp only [Option.bind_eq_bind, Option.bind_some, expect_self, hread, hcolon,
        ih n rest (by omega) hrest]
      rfl
  | oneMember h ih =>
      intro fuel rest hfuel hrest
      rw [readMembers, ih fuel rest hfuel hrest.ended]
      simp only [Option.bind_eq_bind, Option.bind_some, hrest.expect_comma]
      rfl
  | moreMembers h hs ih ihs =>
      intro fuel rest hfuel hrest
      rw [List.length_append, List.length_cons] at hfuel
      obtain ⟨n, rfl⟩ := Nat.exists_eq_add_of_le' (show 1 ≤ fuel by omega)
      rw [List.append_assoc, List.cons_append, readMembers,
        ih (n + 1) _ (by omega) (ended_comma _)]
      simp only [Option.bind_eq_bind, Option.bind_some, expect_self,
        ihs n rest (by omega) hrest]
      rfl

/-- **A text is read as the value that it was written for.** -/
theorem read_of_document {v : Value} {t : List UInt8} (h : Document v t) : read t = some v := by
  have hread := Written.read h (3 * t.length) [] (by omega) (by simp [Ended])
  unfold read
  rw [List.append_nil] at hread
  rw [hread]

/-- No text has two values. -/
theorem Document.unique {v v' : Value} {t : List UInt8} (h : Document v t)
    (h' : Document v' t) : v = v' :=
  Option.some.inj ((read_of_document h).symm.trans (read_of_document h'))

end JsonText
