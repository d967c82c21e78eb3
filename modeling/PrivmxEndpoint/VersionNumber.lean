import PrivmxEndpoint.SubscriptionQuery

/-!
# Version numbers

`VersionNumber` reads `x.y`, `x.y.*` and `x.y.z`, the last one with a comment behind the
number, and compares what it has read.  The comparisons are those of a linear order of keys
(`VersionNumber.rank`): a version without a build number comes before all builds, and a
build with a comment before the one without.  Only `<` differs from it, between two
versions without a build number: it does not look at the right one and says yes
(`VersionNumber.lt_iff`).
-/

namespace PrivmxEndpoint

/-- `Utils::split` at a string of one character. -/
def splitString (data : Bytes) (delimiter : UInt8) : List Bytes :=
  data.splitOn delimiter

/-- `std::isdigit`. -/
def isdigit (c : UInt8) : Bool :=
  decide (48 ≤ c ∧ c ≤ 57)

/-- The number that digits stand for. -/
def digitsValue (digits : Bytes) : Nat :=
  digits.foldl (fun n c => n * 10 + (c.toNat - 48)) 0

/-- `std::stoul` of a string that begins with a digit: the number and the position behind
it.  It throws for other strings here, and for numbers that do not fit. -/
def stoul (s : Bytes) : Option (Nat × Nat) :=
  let digits := s.takeWhile isdigit
  if digits = [] then
    none
  else if digitsValue digits < 2 ^ 64 then
    some (digitsValue digits, digits.length)
  else
    none

/-- `VersionNumber`. -/
structure VersionNumber where
  versionStr : Bytes
  major : Nat
  minor : Nat
  build : Option Nat
  comment : Option Bytes
  deriving Repr, DecidableEq

/-- The characters `.` and `*`. -/
def DOT : UInt8 := 46

@[inherit_doc DOT]
def ASTERISK : UInt8 := 42

/-- The constructor of `VersionNumber`, which throws `InvalidVersionFormatException` with
a text. -/
def VersionNumber.ofString (versionStr : Bytes) : Except Bytes VersionNumber :=
  let tmp := splitString versionStr DOT
  let major := tmp.getD 0 []
  let minor := tmp.getD 1 []
  let build := tmp.getD 2 []
  if tmp.length ≠ 3 ∧ tmp.length ≠ 2 then
    .error (versionStr ++ ascii ", expected format is x.y.z or x.y")
  else if major.length = 0 ∨ minor.length = 0 then
    .error (versionStr ++ ascii ", major or minor number are empty")
  else if major.all isdigit = false then
    .error (versionStr ++ ascii ", major is not natural number")
  else if minor.all isdigit = false then
    .error (versionStr ++ ascii ", minor is not natural number")
  else if tmp.length = 3 ∧ minor.length = 0 then
    .error (versionStr ++ ascii ", build version is empty")
  else if tmp.length = 3 ∧ isdigit (build.getD 0 0) = false ∧ build ≠ [ASTERISK] then
    .error (versionStr ++ ascii ", build is not natural number")
  else
    match stoul major, stoul minor with
    | some (majorNumber, _), some (minorNumber, _) =>
        if tmp.length = 3 ∧ build ≠ [ASTERISK] then
          match stoul build with
          | some (buildNumber, pos) =>
              .ok
                { versionStr := versionStr
                  major := majorNumber
                  minor := minorNumber
                  build := some buildNumber
                  comment := if pos ≠ build.length then some (build.drop pos) else none }
          | none => .error versionStr
        else
          .ok
            { versionStr := versionStr
              major := majorNumber
              minor := minorNumber
              build := none
              comment := none }
    | _, _ => .error versionStr

/-- The value of a `char`, which is a signed number on some platforms. -/
def charValue (signed : Bool) (c : UInt8) : Int :=
  if signed ∧ 128 ≤ c then (c.toNat : Int) - 256 else c.toNat

/-- `std::lexicographical_compare` of two strings. -/
def lexicographicalCompare (signed : Bool) (s t : Bytes) : Bool :=
  decide (s.map (charValue signed) < t.map (charValue signed))

namespace VersionNumber

/-- `operator<`. -/
def lt (signed : Bool) (lhs rhs : VersionNumber) : Bool :=
  if lhs.major < rhs.major then
    true
  else if lhs.major = rhs.major then
    if lhs.minor < rhs.minor then
      true
    else if lhs.minor = rhs.minor then
      match lhs.build, rhs.build with
      | none, _ => true
      | some x, some y =>
          if x < y then
            true
          else if x = y then
            match lhs.comment, rhs.comment with
            | some c, some d => lexicographicalCompare signed c d
            | some _, none => true
            | none, _ => false
          else
            false
      | some _, none => false
    else
      false
  else
    false

/-- `operator==`. -/
def eq (lhs rhs : VersionNumber) : Bool :=
  if lhs.major = rhs.major ∧ lhs.minor = rhs.minor then
    match lhs.build, rhs.build with
    | some x, some y =>
        if x = y then
          match lhs.comment, rhs.comment with
          | some c, some d => decide (c = d)
          | none, none => true
          | _, _ => false
        else
          false
    | none, none => true
    | _, _ => false
  else
    false

/-- A comment comes before none. -/
def commentRank (signed : Bool) : Option Bytes → WithTop (List ℤ)
  | some c => ((c.map (charValue signed) : List ℤ) : WithTop (List ℤ))
  | none => ⊤

/-- No build number comes before all of them. -/
def buildRank (signed : Bool) (comment : Option Bytes) :
    Option Nat → WithBot (ℕ ×ₗ WithTop (List ℤ))
  | some x => ((toLex (x, commentRank signed comment) : ℕ ×ₗ WithTop (List ℤ)) :
      WithBot (ℕ ×ₗ WithTop (List ℤ)))
  | none => ⊥

/-- Where a version stands in the order of all versions. -/
def rank (signed : Bool) (v : VersionNumber) :
    ℕ ×ₗ ℕ ×ₗ WithBot (ℕ ×ₗ WithTop (List ℤ)) :=
  toLex (v.major, toLex (v.minor, buildRank signed v.comment v.build))

variable {signed : Bool} {a b c : VersionNumber}

/-- Different characters count differently. -/
theorem charValue_injective (signed : Bool) : Function.Injective (charValue signed) := by
  intro c d h
  have hc := c.toNat_lt
  have hd := d.toNat_lt
  apply UInt8.toNat_inj.mp
  unfold charValue at h
  cases signed with
  | false =>
      simp only [Bool.false_eq_true, false_and, if_false] at h
      omega
  | true =>
      simp only [true_and, UInt8.le_iff_toNat_le] at h
      split at h <;> split at h <;> omega

/-- Different comments rank differently. -/
theorem commentRank_inj {c d : Option Bytes} :
    commentRank signed c = commentRank signed d ↔ c = d := by
  constructor
  · intro h
    cases c with
    | none =>
        cases d with
        | none => rfl
        | some d => exact absurd h.symm (WithTop.coe_ne_top)
    | some c =>
        cases d with
        | none => exact absurd h (WithTop.coe_ne_top)
        | some d =>
            have hmap := WithTop.coe_injective h
            rw [List.map_injective_iff.mpr (charValue_injective signed) hmap]
  · intro h
    rw [h]

/-- A version without a comment ranks above one with a comment. -/
theorem commentRank_lt_iff {c d : Option Bytes} :
    commentRank signed c < commentRank signed d ↔
      match c, d with
      | some c, some d => lexicographicalCompare signed c d = true
      | some _, none => True
      | none, _ => False := by
  cases c with
  | none => exact iff_of_false not_top_lt id
  | some c =>
      cases d with
      | none => exact iff_of_true (WithTop.coe_lt_top _) trivial
      | some d => exact WithTop.coe_lt_coe.trans decide_eq_true_iff.symm

/-- **Equality** is the one of the ranks. -/
theorem eq_iff (signed : Bool) : a.eq b = true ↔ a.rank signed = b.rank signed := by
  unfold eq rank
  rw [toLex_inj, Prod.mk.injEq, toLex_inj, Prod.mk.injEq, ← and_assoc]
  by_cases hminor : a.major = b.major ∧ a.minor = b.minor
  · rw [if_pos hminor]
    cases ha : a.build with
    | none =>
        cases hb : b.build with
        | none => simp [hminor, buildRank]
        | some y => simp [buildRank]
    | some x =>
        cases hb : b.build with
        | none => simp [buildRank]
        | some y =>
            have hrank : buildRank signed a.comment (some x) = buildRank signed b.comment (some y) ↔
                x = y ∧ a.comment = b.comment := by
              unfold buildRank
              rw [WithBot.coe_inj, toLex_inj, Prod.mk.injEq, commentRank_inj]
            rw [hrank]
            simp only [hminor, and_self, true_and]
            by_cases hbuild : x = y
            · rw [if_pos hbuild]
              cases ha : a.comment <;> cases hb : b.comment <;> simp [hbuild]
            · simp [hbuild]
  · rw [if_neg hminor]
    simp [hminor]

/-- One rank is less than another at the first number that differs. -/
theorem rank_lt_iff : a.rank signed < b.rank signed ↔
    a.major < b.major ∨ a.major = b.major ∧
      (a.minor < b.minor ∨ a.minor = b.minor ∧
        buildRank signed a.comment a.build < buildRank signed b.comment b.build) := by
  unfold rank
  rw [Prod.Lex.toLex_lt_toLex, Prod.Lex.toLex_lt_toLex]

/-- The build number comes before the comment. -/
theorem buildRank_lt_iff {x y : Nat} {c d : Option Bytes} :
    buildRank signed c (some x) < buildRank signed d (some y) ↔
      x < y ∨ x = y ∧ commentRank signed c < commentRank signed d := by
  unfold buildRank
  rw [WithBot.coe_lt_coe, Prod.Lex.toLex_lt_toLex]

/-- A version without a build number ranks below one with it. -/
theorem buildRank_none_lt (y : Nat) (c d : Option Bytes) :
    buildRank signed c none < buildRank signed d (some y) :=
  WithBot.bot_lt_coe _

/-- **Less** is the one of the ranks, but it also holds between versions of one rank
without a build number. -/
theorem lt_iff : lt signed a b = true ↔
    a.rank signed < b.rank signed ∨ a.rank signed = b.rank signed ∧ a.build = none := by
  rw [← eq_iff signed, rank_lt_iff]
  unfold lt eq
  by_cases hmajor : a.major = b.major
  · by_cases hminor : a.minor = b.minor
    · simp only [hmajor, hminor, lt_irrefl, if_false, if_true, false_or, true_and, and_self]
      cases ha : a.build with
      | none =>
          cases hb : b.build with
          | none => simp
          | some y => simp [buildRank_none_lt]
      | some x =>
          cases hb : b.build with
          | none => simp [buildRank]
          | some y =>
              rw [buildRank_lt_iff, commentRank_lt_iff]
              by_cases hless : x < y
              · simp [hless]
              · by_cases hbuild : x = y
                · cases a.comment <;> cases b.comment <;> simp [hbuild]
                · simp [hless, hbuild]
    · by_cases hless : a.minor < b.minor
      · simp [hmajor, hless]
      · simp [hmajor, hminor, hless]
  · by_cases hless : a.major < b.major
    · simp [hless]
    · simp [hmajor, hless]

/-- Versions of one rank have a build number both or neither. -/
theorem build_none_of_rank_eq (h : a.rank signed = b.rank signed) (ha : a.build = none) :
    b.build = none := by
  have heq := (eq_iff signed).mpr h
  unfold eq at heq
  rw [ha] at heq
  cases hb : b.build with
  | none => rfl
  | some y => simp [hb] at heq

/-- **No version** is less than itself, if it has a build number. -/
theorem lt_self_iff : lt signed a a = true ↔ a.build = none := by
  rw [lt_iff]
  simp

/-- The comparison is transitive. -/
theorem lt_trans (hab : lt signed a b = true) (hbc : lt signed b c = true) :
    lt signed a c = true := by
  rw [lt_iff] at *
  rcases hab with hab | ⟨hab, ha⟩
  · rcases hbc with hbc | ⟨hbc, _⟩
    · exact Or.inl (hab.trans hbc)
    · exact Or.inl (hbc ▸ hab)
  · rw [hab]
    rcases hbc with hbc | ⟨hbc, _⟩
    · exact Or.inl hbc
    · exact Or.inr ⟨hbc, ha⟩

/-- Equal versions stand on the same side of a third. -/
theorem lt_congr {a' b' : VersionNumber} (ha : a.eq a' = true) (hb : b.eq b' = true) :
    lt signed a b = lt signed a' b' := by
  have hra : a.rank signed = a'.rank signed := (eq_iff signed).mp ha
  have hrb : b.rank signed = b'.rank signed := (eq_iff signed).mp hb
  have hbuild : a.build = none ↔ a'.build = none :=
    ⟨build_none_of_rank_eq hra, build_none_of_rank_eq hra.symm⟩
  rw [Bool.eq_iff_iff, lt_iff, lt_iff, hra, hrb, hbuild]

end VersionNumber

/-- A third part of the version string that is not the wildcard. -/
def HasBuild (versionStr : Bytes) : Prop :=
  (splitString versionStr DOT).length = 3 ∧ (splitString versionStr DOT).getD 2 [] ≠ [ASTERISK]

/-- What the constructor has read from a string that it accepts. -/
theorem VersionNumber.ofString_ok {versionStr : Bytes} {v : VersionNumber}
    (h : VersionNumber.ofString versionStr = .ok v) :
    (∃ pos, stoul ((splitString versionStr DOT).getD 0 []) = some (v.major, pos)) ∧
    (∃ pos, stoul ((splitString versionStr DOT).getD 1 []) = some (v.minor, pos)) ∧
    (HasBuild versionStr → ∃ n pos,
      stoul ((splitString versionStr DOT).getD 2 []) = some (n, pos) ∧ v.build = some n ∧
        v.comment =
          if pos ≠ ((splitString versionStr DOT).getD 2 []).length then
            some (((splitString versionStr DOT).getD 2 []).drop pos)
          else
            none) ∧
    (¬ HasBuild versionStr → v.build = none) := by
  unfold VersionNumber.ofString at h
  simp only at h
  iterate 6
    split at h
    · cases h
  unfold HasBuild
  split at h
  · rename_i majorNumber majorPos minorNumber minorPos hmajor hminor
    split at h
    · rename_i hbuild
      split at h
      · rename_i buildNumber pos hstoul
        cases h
        exact ⟨⟨majorPos, hmajor⟩, ⟨minorPos, hminor⟩,
          fun _ => ⟨buildNumber, pos, hstoul, rfl, rfl⟩, fun hno => absurd hbuild hno⟩
      · cases h
    · rename_i hbuild
      cases h
      exact ⟨⟨majorPos, hmajor⟩, ⟨minorPos, hminor⟩, fun hyes => absurd hyes hbuild,
        fun _ => rfl⟩
  · cases h

/-- A version has a build number exactly if its string has one. -/
theorem VersionNumber.build_ne_none_iff {versionStr : Bytes} {v : VersionNumber}
    (h : VersionNumber.ofString versionStr = .ok v) :
    v.build ≠ none ↔ HasBuild versionStr := by
  obtain ⟨_, _, hsome, hnone⟩ := VersionNumber.ofString_ok h
  constructor
  · intro hbuild
    by_contra hno
    exact hbuild (hnone hno)
  · intro hyes
    obtain ⟨n, pos, _, hbuild, _⟩ := hsome hyes
    rw [hbuild]
    exact Option.some_ne_none n

/-- One of three holds and no other. -/
def ExactlyOne (p q r : Prop) : Prop :=
  (p ∧ ¬ q ∧ ¬ r) ∨ (¬ p ∧ q ∧ ¬ r) ∨ (¬ p ∧ ¬ q ∧ r)

namespace VersionNumber

variable {signed : Bool} {a b c : VersionNumber}

/-- **Less, equal or greater**: one of them, except between two versions of one rank
without a build number, where all three hold. -/
theorem exactlyOne_iff :
    ExactlyOne (lt signed a b = true) (a.eq b = true) (lt signed b a = true) ↔
      ¬ (a.rank signed = b.rank signed ∧ a.build = none) := by
  have hba : lt signed b a = true ↔
      b.rank signed < a.rank signed ∨ a.rank signed = b.rank signed ∧ a.build = none := by
    rw [lt_iff]
    constructor
    · intro h
      rcases h with h | ⟨h, hb⟩
      · exact Or.inl h
      · exact Or.inr ⟨h.symm, build_none_of_rank_eq h hb⟩
    · intro h
      rcases h with h | ⟨h, ha⟩
      · exact Or.inl h
      · exact Or.inr ⟨h.symm, build_none_of_rank_eq h ha⟩
  rw [lt_iff, hba, eq_iff signed]
  unfold ExactlyOne
  rcases lt_trichotomy (a.rank signed) (b.rank signed) with h | h | h
  · simp [h, h.ne, h.not_gt]
  · simp [h]
  · simp [h, h.ne', h.not_gt]

end VersionNumber

/-- Three strings of digits, not one of them empty. -/
structure DigitTriple where
  major : Bytes
  minor : Bytes
  build : Bytes
  major_digits : major ≠ [] ∧ ∀ c ∈ major, isdigit c = true
  minor_digits : minor ≠ [] ∧ ∀ c ∈ minor, isdigit c = true
  build_digits : build ≠ [] ∧ ∀ c ∈ build, isdigit c = true

namespace DigitTriple

/-- The version string `x.y.z`. -/
def text (t : DigitTriple) : Bytes :=
  t.major ++ DOT :: t.minor ++ DOT :: t.build

/-- The numbers `x`, `y` and `z`, in lexicographic order. -/
def numbers (t : DigitTriple) : ℕ ×ₗ ℕ ×ₗ ℕ :=
  toLex (digitsValue t.major, toLex (digitsValue t.minor, digitsValue t.build))

/-- A number contains no dot. -/
theorem dot_notMem {digits : Bytes} (h : ∀ c ∈ digits, isdigit c = true) : DOT ∉ digits := by
  intro hmem
  have hdot := h DOT hmem
  exact absurd hdot (by decide)

/-- The text falls into its three numbers. -/
theorem splitString_text (t : DigitTriple) :
    splitString t.text DOT = [t.major, t.minor, t.build] := by
  have hdots : ∀ l ∈ [t.major, t.minor, t.build], DOT ∉ l := by
    intro l hl
    simp only [List.mem_cons, List.not_mem_nil, or_false] at hl
    rcases hl with hl | hl | hl
    · exact hl ▸ dot_notMem t.major_digits.2
    · exact hl ▸ dot_notMem t.minor_digits.2
    · exact hl ▸ dot_notMem t.build_digits.2
  have hsplit := List.splitOn_intercalate DOT hdots (List.cons_ne_nil _ _)
  have htext : [DOT].intercalate [t.major, t.minor, t.build] = t.text := by
    simp [text, List.intercalate, List.intersperse]
  rw [htext] at hsplit
  exact hsplit

/-- A number is read to its end unless it is too large. -/
theorem stoul_of_digits {digits : Bytes} (h : digits ≠ [] ∧ ∀ c ∈ digits, isdigit c = true) :
    stoul digits =
      if digitsValue digits < 2 ^ 64 then some (digitsValue digits, digits.length) else none := by
  unfold stoul
  rw [List.takeWhile_eq_self_iff.mpr h.2]
  simp only [if_neg h.1]

/-- What was read is the value of the digits. -/
theorem digitsValue_of_stoul {digits : Bytes} {n pos : Nat}
    (hdigits : digits ≠ [] ∧ ∀ c ∈ digits, isdigit c = true) (h : stoul digits = some (n, pos)) :
    n = digitsValue digits ∧ pos = digits.length := by
  rw [stoul_of_digits hdigits] at h
  split at h
  · cases h
    exact ⟨rfl, rfl⟩
  · cases h

/-- Three numbers have a build. -/
theorem hasBuild_text (t : DigitTriple) : HasBuild t.text := by
  unfold HasBuild
  rw [splitString_text]
  refine ⟨rfl, ?_⟩
  intro hwildcard
  have hdigit := t.build_digits.2 ASTERISK (by
    rw [show t.build = [ASTERISK] from hwildcard]
    exact List.mem_singleton_self _)
  exact absurd hdigit (by decide)

/-- **A version `x.y.z`** is read as the three numbers. -/
theorem ofString_text {t : DigitTriple} {v : VersionNumber}
    (h : VersionNumber.ofString t.text = .ok v) :
    v.major = digitsValue t.major ∧ v.minor = digitsValue t.minor ∧
      v.build = some (digitsValue t.build) ∧ v.comment = none := by
  obtain ⟨⟨majorPos, hmajor⟩, ⟨minorPos, hminor⟩, hsome, _⟩ := VersionNumber.ofString_ok h
  obtain ⟨n, pos, hstoul, hbuild, hcomment⟩ := hsome t.hasBuild_text
  simp only [splitString_text, List.getD_cons_zero, List.getD_cons_succ] at hmajor hminor hstoul hcomment
  obtain ⟨rfl, rfl⟩ := digitsValue_of_stoul t.build_digits hstoul
  refine ⟨(digitsValue_of_stoul t.major_digits hmajor).1,
    (digitsValue_of_stoul t.minor_digits hminor).1, hbuild, ?_⟩
  rw [hcomment, if_neg (by simp)]

end DigitTriple

/-- What some of the version strings are read as. -/
def Produced (S : Set Bytes) : Set VersionNumber :=
  {v | ∃ s ∈ S, VersionNumber.ofString s = .ok v}

/-- **The laws of an order**, for the versions that some version strings are read as. -/
structure VersionOrder (signed : Bool) (S : Set Bytes) : Prop where
  exactly_one : ∀ a ∈ Produced S, ∀ b ∈ Produced S,
    ExactlyOne (VersionNumber.lt signed a b = true) (a.eq b = true)
      (VersionNumber.lt signed b a = true)
  irrefl : ∀ a ∈ Produced S, VersionNumber.lt signed a a = false
  trans : ∀ a ∈ Produced S, ∀ b ∈ Produced S, ∀ c ∈ Produced S,
    VersionNumber.lt signed a b = true → VersionNumber.lt signed b c = true →
      VersionNumber.lt signed a c = true
  equivalence : Equivalence fun a b : Produced S => a.1.eq b.1 = true
  compatible : ∀ a ∈ Produced S, ∀ a' ∈ Produced S, ∀ b ∈ Produced S, ∀ b' ∈ Produced S,
    a.eq a' = true → b.eq b' = true → VersionNumber.lt signed a b = VersionNumber.lt signed a' b'
  lexicographic : ∀ t u : DigitTriple, t.text ∈ S → u.text ∈ S → ∀ a b,
    VersionNumber.ofString t.text = .ok a → VersionNumber.ofString u.text = .ok b →
      (VersionNumber.lt signed a b = true ↔ t.numbers < u.numbers)

namespace VersionNumber

variable {signed : Bool} {a b c : VersionNumber}

/-- The order of two versions with build numbers and without comments. -/
theorem lt_iff_of_builds {x y : Nat} (ha : a.build = some x) (hb : b.build = some y)
    (hca : a.comment = none) (hcb : b.comment = none) :
    lt signed a b = true ↔
      (toLex (a.major, toLex (a.minor, x)) : ℕ ×ₗ ℕ ×ₗ ℕ) <
        toLex (b.major, toLex (b.minor, y)) := by
  rw [lt_iff, rank_lt_iff, ha, hb, hca, hcb, buildRank_lt_iff]
  simp [Prod.Lex.toLex_lt_toLex]

/-- Equality is an equivalence on any versions. -/
theorem eq_equivalence (T : Set VersionNumber) :
    Equivalence fun a b : T => a.1.eq b.1 = true where
  refl _ := (eq_iff false).mpr rfl
  symm h := (eq_iff false).mpr ((eq_iff false).mp h).symm
  trans h h' := (eq_iff false).mpr (((eq_iff false).mp h).trans ((eq_iff false).mp h'))

/-- **The laws of an order** hold for the versions that some strings are read as, exactly if
all these strings have a build number that is not the wildcard. -/
theorem version_order (signed : Bool) (S : Set Bytes) :
    VersionOrder signed S ↔ ∀ s ∈ S, ∀ v, ofString s = .ok v → HasBuild s := by
  constructor
  · intro h s hs v hv
    rw [← build_ne_none_iff hv]
    intro hbuild
    have hself : lt signed v v = true := lt_self_iff.mpr hbuild
    rw [h.irrefl v ⟨s, hs, hv⟩] at hself
    exact Bool.false_ne_true hself
  · intro h
    have hbuild : ∀ v ∈ Produced S, v.build ≠ none := by
      intro v hv
      obtain ⟨s, hs, hv⟩ := hv
      exact (build_ne_none_iff hv).mpr (h s hs v hv)
    refine
      { exactly_one := ?_
        irrefl := ?_
        trans := fun a _ b _ c _ hab hbc => lt_trans hab hbc
        equivalence := eq_equivalence _
        compatible := fun a _ a' _ b _ b' _ ha hb => lt_congr ha hb
        lexicographic := ?_ }
    · intro a ha b _
      rw [exactlyOne_iff]
      exact fun hsame => hbuild a ha hsame.2
    · intro a ha
      rw [Bool.eq_false_iff]
      exact fun hself => hbuild a ha (lt_self_iff.mp hself)
    · intro t u _ _ a b ha hb
      obtain ⟨hmajor, hminor, hnumber, hcomment⟩ := DigitTriple.ofString_text ha
      obtain ⟨hmajor', hminor', hnumber', hcomment'⟩ := DigitTriple.ofString_text hb
      rw [lt_iff_of_builds hnumber hnumber' hcomment hcomment', hmajor, hminor, hmajor', hminor']
      rfl

/-- The version `1.2` is less than itself and equal to itself. -/
theorem unbuilt_before_itself : ∃ v, ofString (ascii "1.2") = .ok v ∧
    lt true v v = true ∧ v.eq v = true ∧ ¬ VersionOrder true Set.univ := by
  have hread : ofString (ascii "1.2") =
      .ok { versionStr := ascii "1.2", major := 1, minor := 2, build := none, comment := none } := by
    decide +kernel
  refine ⟨_, hread, rfl, rfl, ?_⟩
  intro h
  have hself := h.irrefl _ ⟨ascii "1.2", Set.mem_univ _, hread⟩
  exact absurd hself (by decide)

end VersionNumber

end PrivmxEndpoint
