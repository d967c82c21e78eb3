import Mathlib.Data.List.Forall2

/-!
# The texts of JSON values

The grammar of JSON over strings of bytes.  It leaves a choice how to spell a byte of a
string, and a printer settles that choice: the spellings are a parameter of the grammar.
-/

namespace JsonText

/-! ### Bytes -/

def quote : UInt8 := 0x22
def comma : UInt8 := 0x2c
def slash : UInt8 := 0x2f
def colon : UInt8 := 0x3a
def openBracket : UInt8 := 0x5b
def backslash : UInt8 := 0x5c
def closeBracket : UInt8 := 0x5d
def openBrace : UInt8 := 0x7b
def closeBrace : UInt8 := 0x7d

def isSpace (b : UInt8) : Bool :=
  b == 0x20 || b == 0x09 || b == 0x0a || b == 0x0d

/-- Blanks, tabulators and line ends. -/
def Space (t : List UInt8) : Prop := ∀ b ∈ t, isSpace b = true

def nullText : List UInt8 := [0x6e, 0x75, 0x6c, 0x6c]

def boolText : Bool → List UInt8
  | true => [0x74, 0x72, 0x75, 0x65]
  | false => [0x66, 0x61, 0x6c, 0x73, 0x65]

/-! ### Numbers -/

def isDigit (b : UInt8) : Bool := 0x30 ≤ b && b ≤ 0x39

/-- How far a number has been read. -/
inductive NumberState
  | start
  | minus
  | zero
  | whole
  | point
  | fraction
  | exponent
  | sign
  | power
  deriving Repr, DecidableEq

namespace NumberState

def afterFraction (b : UInt8) : Option NumberState :=
  if b = 0x65 ∨ b = 0x45 then some exponent else none

def afterWhole (b : UInt8) : Option NumberState :=
  if b = 0x2e then some point else afterFraction b

def firstDigit (b : UInt8) : Option NumberState :=
  if b = 0x30 then some zero else if isDigit b then some whole else none

/-- The state behind one more byte of the number. -/
def next : NumberState → UInt8 → Option NumberState
  | start, b => if b = 0x2d then some minus else firstDigit b
  | minus, b => firstDigit b
  | zero, b => afterWhole b
  | whole, b => if isDigit b then some whole else afterWhole b
  | point, b => if isDigit b then some fraction else none
  | fraction, b => if isDigit b then some fraction else afterFraction b
  | exponent, b =>
      if b = 0x2b ∨ b = 0x2d then some sign else if isDigit b then some power else none
  | sign, b => if isDigit b then some power else none
  | power, b => if isDigit b then some power else none

def accepting : NumberState → Bool
  | zero | whole | fraction | power => true
  | _ => false

end NumberState

def isNumber (t : List UInt8) : Bool :=
  (t.foldlM NumberState.next .start).any NumberState.accepting

/-- The bytes that numbers are made of. -/
def numberByte (b : UInt8) : Bool :=
  isDigit b || b == 0x2b || b == 0x2d || b == 0x2e || b == 0x45 || b == 0x65

/-- The automaton reads only characters of a number. -/
theorem numberByte_of_next {s s' : NumberState} {b : UInt8} (h : s.next b = some s') :
    numberByte b = true := by
  by_contra hb
  simp only [numberByte, Bool.or_eq_true, beq_iff_eq, not_or, Bool.not_eq_true] at hb
  obtain ⟨⟨⟨⟨⟨hdigit, hplus⟩, hminus⟩, hpoint⟩, hE⟩, he⟩ := hb
  have hzero : b ≠ 0x30 := by
    intro hb
    rw [hb] at hdigit
    exact absurd hdigit (by decide)
  cases s <;>
    simp [NumberState.next, NumberState.firstDigit, NumberState.afterWhole,
      NumberState.afterFraction, hdigit, hplus, hminus, hpoint, hE, he, hzero] at h

/-- So does a run of it. -/
theorem numberByte_of_foldlM {t : List UInt8} {s s' : NumberState}
    (h : t.foldlM NumberState.next s = some s') : ∀ b ∈ t, numberByte b = true := by
  induction t generalizing s with
  | nil => simp
  | cons c t ih =>
      rw [List.foldlM_cons] at h
      obtain ⟨s₁, hnext, hrest⟩ := Option.bind_eq_some_iff.mp h
      intro b hb
      cases List.mem_cons.mp hb with
      | inl hc => exact hc ▸ numberByte_of_next hnext
      | inr hmem => exact ih hrest b hmem

/-- The text of a number. -/
structure Number where
  text : List UInt8
  isNumber_text : isNumber text = true
  deriving DecidableEq, Repr

/-- A number consists of such characters. -/
theorem Number.numberByte_of_mem (n : Number) : ∀ b ∈ n.text, numberByte b = true := by
  have hnumber := n.isNumber_text
  unfold isNumber at hnumber
  cases hread : n.text.foldlM NumberState.next .start with
  | none =>
      rw [hread] at hnumber
      exact absurd hnumber (by decide)
  | some s => exact numberByte_of_foldlM hread

/-- A number has at least one of them. -/
theorem Number.text_ne_nil (n : Number) : n.text ≠ [] := by
  intro h
  have hnumber := n.isNumber_text
  rw [h] at hnumber
  exact absurd hnumber (by decide)

/-! ### Values and strings -/

inductive Value
  | null
  | bool (b : Bool)
  | number (n : Number)
  | string (s : List UInt8)
  | array (items : List Value)
  | object (members : List (List UInt8 × Value))

/-- The letters behind a backslash and the bytes that they stand for. -/
def namedEscapes : List (UInt8 × UInt8) :=
  [(0x22, 0x22), (0x5c, 0x5c), (0x2f, 0x2f), (0x62, 0x08), (0x66, 0x0c), (0x6e, 0x0a),
    (0x72, 0x0d), (0x74, 0x09)]

def hexValue (b : UInt8) : Option UInt8 :=
  if isDigit b then some (b - 0x30)
  else if 0x41 ≤ b ∧ b ≤ 0x46 then some (b - 0x37)
  else if 0x61 ≤ b ∧ b ≤ 0x66 then some (b - 0x57)
  else none

/-- The byte of the two digits behind `\u00`, below `80`, where one byte is a character. -/
def hexByte (h₁ h₂ : UInt8) : Option UInt8 := do
  let high ← hexValue h₁
  let low ← hexValue h₂
  if high < 8 then some (16 * high + low) else none

/-- The escape sequences of a byte. -/
inductive Escape : UInt8 → List UInt8 → Prop
  | letter {l b : UInt8} (h : namedEscapes.lookup l = some b) : Escape b [backslash, l]
  | code {h₁ h₂ b : UInt8} (h : hexByte h₁ h₂ = some b) :
      Escape b [backslash, 0x75, 0x30, 0x30, h₁, h₂]

/-- The spellings of a byte within a string. -/
inductive Spelling : UInt8 → List UInt8 → Prop
  | plain {b : UInt8} (hcontrol : 0x20 ≤ b) (hquote : b ≠ quote) (hbackslash : b ≠ backslash) :
      Spelling b [b]
  | escape {b : UInt8} {p : List UInt8} (h : Escape b p) : Spelling b p

/-- A string in quotes. -/
def Quoted (Spells : UInt8 → List UInt8 → Prop) (s t : List UInt8) : Prop :=
  ∃ ps, List.Forall₂ Spells s ps ∧ t = quote :: (ps.flatten ++ [quote])

/-! ### The grammar -/

/-- What the rules of the grammar are about.  An element is a value with space around it. -/
inductive Phrase
  | value (v : Value)
  | element (v : Value)
  | elements (vs : List Value)
  | member (m : List UInt8 × Value)
  | members (ms : List (List UInt8 × Value))

/-- The texts of a phrase. -/
inductive Written (Spells : UInt8 → List UInt8 → Prop) : Phrase → List UInt8 → Prop
  | null : Written Spells (.value .null) nullText
  | bool (b : Bool) : Written Spells (.value (.bool b)) (boolText b)
  | number (n : Number) : Written Spells (.value (.number n)) n.text
  | string {s t : List UInt8} (h : Quoted Spells s t) : Written Spells (.value (.string s)) t
  | emptyArray {w : List UInt8} (hw : Space w) :
      Written Spells (.value (.array [])) (openBracket :: (w ++ [closeBracket]))
  | array {vs : List Value} {t : List UInt8} (h : Written Spells (.elements vs) t) :
      Written Spells (.value (.array vs)) (openBracket :: (t ++ [closeBracket]))
  | emptyObject {w : List UInt8} (hw : Space w) :
      Written Spells (.value (.object [])) (openBrace :: (w ++ [closeBrace]))
  | object {ms : List (List UInt8 × Value)} {t : List UInt8}
      (h : Written Spells (.members ms) t) :
      Written Spells (.value (.object ms)) (openBrace :: (t ++ [closeBrace]))
  | element {v : Value} {w₁ t w₂ : List UInt8} (hw₁ : Space w₁)
      (h : Written Spells (.value v) t) (hw₂ : Space w₂) :
      Written Spells (.element v) (w₁ ++ (t ++ w₂))
  | oneElement {v : Value} {t : List UInt8} (h : Written Spells (.element v) t) :
      Written Spells (.elements [v]) t
  | moreElements {v : Value} {vs : List Value} {t u : List UInt8}
      (h : Written Spells (.element v) t) (hs : Written Spells (.elements vs) u) :
      Written Spells (.elements (v :: vs)) (t ++ comma :: u)
  | member {k q w₁ w₂ t : List UInt8} {v : Value} (hw₁ : Space w₁) (hq : Quoted Spells k q)
      (hw₂ : Space w₂) (h : Written Spells (.element v) t) :
      Written Spells (.member (k, v)) (w₁ ++ (q ++ (w₂ ++ colon :: t)))
  | oneMember {m : List UInt8 × Value} {t : List UInt8} (h : Written Spells (.member m) t) :
      Written Spells (.members [m]) t
  | moreMembers {m : List UInt8 × Value} {ms : List (List UInt8 × Value)} {t u : List UInt8}
      (h : Written Spells (.member m) t) (hs : Written Spells (.members ms) u) :
      Written Spells (.members (m :: ms)) (t ++ comma :: u)

/-- More spellings allow more strings. -/
theorem Quoted.mono {Spells Spells' : UInt8 → List UInt8 → Prop}
    (hspells : ∀ {b p}, Spells b p → Spells' b p) {s t : List UInt8} (h : Quoted Spells s t) :
    Quoted Spells' s t := by
  obtain ⟨ps, hps, ht⟩ := h
  exact ⟨ps, hps.imp fun _ _ => hspells, ht⟩

/-- A text in some spelling is a text in any that allows more. -/
theorem Written.mono {Spells Spells' : UInt8 → List UInt8 → Prop}
    (hspells : ∀ {b p}, Spells b p → Spells' b p) {ph : Phrase} {t : List UInt8}
    (h : Written Spells ph t) : Written Spells' ph t := by
  induction h with
  | null => exact .null
  | bool b => exact .bool b
  | number n => exact .number n
  | string h => exact .string (h.mono hspells)
  | emptyArray hw => exact .emptyArray hw
  | array _ ih => exact .array ih
  | emptyObject hw => exact .emptyObject hw
  | object _ ih => exact .object ih
  | element hw₁ _ hw₂ ih => exact .element hw₁ ih hw₂
  | oneElement _ ih => exact .oneElement ih
  | moreElements _ _ ih ihs => exact .moreElements ih ihs
  | member hw₁ hq hw₂ _ ih => exact .member hw₁ (hq.mono hspells) hw₂ ih
  | oneMember _ ih => exact .oneMember ih
  | moreMembers _ _ ih ihs => exact .moreMembers ih ihs

/-- A JSON text of a value. -/
def Document (v : Value) (t : List UInt8) : Prop := Written Spelling (.element v) t

/-! ### Printing without spaces -/

def quoted (spell : UInt8 → List UInt8) (s : List UInt8) : List UInt8 :=
  quote :: ((s.map spell).flatten ++ [quote])

mutual

def Value.print (spell : UInt8 → List UInt8) : Value → List UInt8
  | .null => nullText
  | .bool b => boolText b
  | .number n => n.text
  | .string s => quoted spell s
  | .array vs => openBracket :: (printElements spell vs ++ [closeBracket])
  | .object ms => openBrace :: (printMembers spell ms ++ [closeBrace])

def printElements (spell : UInt8 → List UInt8) : List Value → List UInt8
  | [] => []
  | [v] => v.print spell
  | v :: w :: vs => v.print spell ++ comma :: printElements spell (w :: vs)

def printMember (spell : UInt8 → List UInt8) : List UInt8 × Value → List UInt8
  | (k, v) => quoted spell k ++ colon :: v.print spell

def printMembers (spell : UInt8 → List UInt8) : List (List UInt8 × Value) → List UInt8
  | [] => []
  | [m] => printMember spell m
  | m :: n :: ms => printMember spell m ++ comma :: printMembers spell (n :: ms)

end

section Print

variable {Spells : UInt8 → List UInt8 → Prop} {spell : UInt8 → List UInt8}

/-- A string that was quoted is a quoted string. -/
theorem quoted_quoted (hspell : ∀ b, Spells b (spell b)) (s : List UInt8) :
    Quoted Spells s (quoted spell s) := by
  refine ⟨s.map spell, ?_, rfl⟩
  rw [List.forall₂_map_right_iff]
  exact List.forall₂_same.mpr fun b _ => hspell b

/-- A value alone is an element. -/
theorem Written.to_element {v : Value} {t : List UInt8} (h : Written Spells (.value v) t) :
    Written Spells (.element v) t := by
  have hspace : Space [] := by simp [Space]
  simpa using Written.element hspace h hspace

mutual

/-- **What is printed is a text of the value.** -/
theorem written_print (hspell : ∀ b, Spells b (spell b)) :
    ∀ v : Value, Written Spells (.value v) (v.print spell)
  | .null => .null
  | .bool b => .bool b
  | .number n => .number n
  | .string s => .string (quoted_quoted hspell s)
  | .array vs => by
      by_cases hvs : vs = []
      · subst hvs
        exact .emptyArray (by simp [Space, printElements])
      · exact .array (written_printElements hspell vs hvs)
  | .object ms => by
      by_cases hms : ms = []
      · subst hms
        exact .emptyObject (by simp [Space, printMembers])
      · exact .object (written_printMembers hspell ms hms)

/-- The elements of an array are printed as such. -/
theorem written_printElements (hspell : ∀ b, Spells b (spell b)) :
    ∀ vs : List Value, vs ≠ [] → Written Spells (.elements vs) (printElements spell vs)
  | [], h => absurd rfl h
  | [v], _ => .oneElement (written_print hspell v).to_element
  | v :: w :: vs, _ =>
      .moreElements (written_print hspell v).to_element
        (written_printElements hspell (w :: vs) (List.cons_ne_nil w vs))

/-- A member of an object is printed as such. -/
theorem written_printMember (hspell : ∀ b, Spells b (spell b)) :
    ∀ m : List UInt8 × Value, Written Spells (.member m) (printMember spell m)
  | (k, v) => by
      have hspace : Space [] := by simp [Space]
      exact .member hspace (quoted_quoted hspell k) hspace (written_print hspell v).to_element

/-- The members of an object are printed as such. -/
theorem written_printMembers (hspell : ∀ b, Spells b (spell b)) :
    ∀ ms : List (List UInt8 × Value), ms ≠ [] →
      Written Spells (.members ms) (printMembers spell ms)
  | [], h => absurd rfl h
  | [m], _ => .oneMember (written_printMember hspell m)
  | m :: n :: ms, _ =>
      .moreMembers (written_printMember hspell m)
        (written_printMembers hspell (n :: ms) (List.cons_ne_nil n ms))

end

end Print

end JsonText
