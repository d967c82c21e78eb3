import PrivmxEndpoint.CryptoPrimitives
import PrivmxEndpoint.GuardedRuns
import PrivmxEndpoint.HmacList

/-!
# The tag list as a list of tags

`HmacList` is a list of entries of 32 bytes.  The flat string, the counter and the cached
top hash stay in step over every sequence of calls, also of such that throw
(`HmacList.sound_run`), and `set` replaces, appends or throws.  `getHash` compares the
index with `>` instead of `>=`: for the index behind the last entry it returns an empty
string, which `verifyHash` takes for a tag.
-/

namespace PrivmxEndpoint

open Word Splice Runs

/-- `HmacList::verifyHash`. -/
def HmacList.verifyHash (l : HmacList) (chunkIndex : Nat) (hash : Bytes) :
    Except StoreError Bool :=
  (l.getHash chunkIndex).map fun stored => decide (stored = hash)

/-- `HmacList::verifyTopHash`, which fills the cache. -/
def HmacList.verifyTopHash (C : Primitives) (l : HmacList) (topHash : Bytes) : Bool × HmacList :=
  (decide ((l.getTopHash C).1 = topHash), (l.getTopHash C).2)

/-- The calls of a constructed list. -/
inductive HmacListCall
  | sync (topHashKey topHash hashes : Bytes)
  | setAll (hashes : Bytes)
  | set (chunkIndex : Nat) (hash : Bytes) (truncate : Bool)
  | getHash (chunkIndex : Nat)
  | getAll
  | getTopHash
  | verifyHash (chunkIndex : Nat) (hash : Bytes)
  | verifyTopHash (topHash : Bytes)

/-- The list after a call; one that throws leaves it as it was. -/
def HmacListCall.next (C : Primitives) (l : HmacList) : HmacListCall → HmacList
  | .sync topHashKey topHash hashes => (l.sync C topHashKey topHash hashes).toOption.getD l
  | .setAll hashes => (l.setAll hashes).toOption.getD l
  | .set chunkIndex hash truncate => (l.set chunkIndex hash truncate).toOption.getD l
  | .getHash _ => l
  | .getAll => l
  | .getTopHash => (l.getTopHash C).2
  | .verifyHash _ _ => l
  | .verifyTopHash topHash => (l.verifyTopHash C topHash).2

/-- The tag at an index. -/
def HmacList.entry (l : HmacList) (i : Nat) : Bytes :=
  slice l.hashes (i * HMAC_SIZE) HMAC_SIZE

/-- The tags of the list. -/
def HmacList.entries (l : HmacList) : List Bytes :=
  (List.range l.size).map l.entry

/-- What `set` does: it replaces an entry, and drops all later ones if it truncates, or it
appends; otherwise it throws and leaves the list. -/
structure HmacList.SetLaw (C : Primitives) (l : HmacList) (i : Nat) (hash : Bytes)
    (truncate : Bool) : Prop where
  replaces : hash.length = HMAC_SIZE → i < l.size → ∃ l', l.set i hash truncate = .ok l' ∧
    l'.entries = (if truncate then l.entries.take (i + 1) else l.entries).set i hash
  appends : hash.length = HMAC_SIZE → i = l.size → ∃ l', l.set i hash truncate = .ok l' ∧
    l'.entries = l.entries ++ [hash]
  refuses : hash.length ≠ HMAC_SIZE ∨ l.size < i → (∃ e, l.set i hash truncate = .error e) ∧
    HmacListCall.next C l (.set i hash truncate) = l

/-- What `getHash` and `verifyHash` do with an index: they look at its entry, and throw if
there is none. -/
def HmacList.IndexLaw (l : HmacList) (i : Nat) : Prop :=
  match l.entries[i]? with
  | some e => l.getHash i = .ok e ∧ ∀ hash, l.verifyHash i hash = .ok (decide (e = hash))
  | none => l.getHash i = .error .hashIndexOutOfBounds ∧
      ∀ hash, l.verifyHash i hash = .error .hashIndexOutOfBounds

section Entries

variable {C : Primitives} {l l' : HmacList} {i : Nat} {hash : Bytes}

@[simp] theorem HmacList.length_entries (l : HmacList) : l.entries.length = l.size := by
  simp [HmacList.entries]

theorem HmacList.getElem?_entries (l : HmacList) (i : Nat) :
    l.entries[i]? = if i < l.size then some (l.entry i) else none := by
  unfold HmacList.entries
  rw [List.getElem?_map]
  by_cases hi : i < l.size
  · rw [List.getElem?_range hi, if_pos hi]
    rfl
  · rw [List.getElem?_eq_none (by simpa using hi), if_neg hi]
    rfl

/-- The entries of a list after a write of one tag into the flat string. -/
theorem HmacList.entry_writeAt (hpos : i * HMAC_SIZE ≤ l.hashes.length)
    (hhash : hash.length = HMAC_SIZE) {truncate : Bool}
    (hl' : l'.hashes = writeAt l.hashes (i * HMAC_SIZE) hash truncate) (j : Nat) :
    l'.entry j = if j = i then hash else if j < i ∨ truncate = false then l.entry j else [] := by
  have hsize : HMAC_SIZE = 32 := rfl
  have hi : i * HMAC_SIZE = i * 32 := rfl
  have hj : j * HMAC_SIZE = j * 32 := rfl
  apply List.ext_getElem?
  intro k
  rw [HmacList.entry, getElem?_slice, hl', getElem?_writeAt hpos, hhash]
  by_cases heq : j = i
  · subst heq
    rw [if_pos rfl]
    by_cases hk : k < HMAC_SIZE
    · rw [if_pos hk, if_neg (by omega), if_pos (by omega), Nat.add_sub_cancel_left]
    · rw [if_neg hk, List.getElem?_eq_none (by omega)]
  · rw [if_neg heq]
    by_cases hlt : j < i
    · rw [if_pos (Or.inl hlt), HmacList.entry, getElem?_slice]
      by_cases hk : k < HMAC_SIZE
      · rw [if_pos hk, if_pos hk, if_pos (by omega)]
      · rw [if_neg hk, if_neg hk]
    · -- behind the written tag
      by_cases hk : k < HMAC_SIZE
      · rw [if_pos hk, if_neg (by omega), if_neg (by omega)]
        cases truncate with
        | true => simp [hlt]
        | false =>
            rw [if_neg (by decide), if_pos (Or.inr rfl), HmacList.entry, getElem?_slice, if_pos hk]
      · rw [if_neg hk]
        cases truncate with
        | true => simp [hlt]
        | false => rw [if_pos (Or.inr rfl), HmacList.entry, getElem?_slice, if_neg hk]

/-- **Setting** a tag, or the one behind the end. -/
theorem HmacList.Sound.set (h : l.Sound C) (hi : i ≤ l.size) (hhash : hash.length = HMAC_SIZE)
    (truncate : Bool) :
    ∃ l', l.set i hash truncate = .ok l' ∧ l'.Sound C ∧
      l'.size = (if truncate then i + 1 else max l.size (i + 1)) ∧
      ∀ j, l'.entry j =
        if j = i then hash else if j < i ∨ truncate = false then l.entry j else [] := by
  have hsize : HMAC_SIZE = 32 := rfl
  have hlength := h.length_eq
  have hfull : l.size * HMAC_SIZE = l.size * 32 := rfl
  have hstart : i * HMAC_SIZE = i * 32 := rfl
  have hpos : i * HMAC_SIZE ≤ l.hashes.length := by
    rw [hlength]
    exact Nat.mul_le_mul_right _ hi
  refine ⟨_, HmacList.set_eq hlength hi hhash truncate, ⟨?_, fun t ht => nomatch ht⟩, rfl,
    HmacList.entry_writeAt hpos hhash rfl⟩
  dsimp only
  rw [length_writeAt hpos, hhash]
  cases truncate with
  | true => exact (Nat.succ_mul i HMAC_SIZE).symm
  | false =>
      simp only [Bool.false_eq_true, if_false]
      have hcount : max l.size (i + 1) * HMAC_SIZE = max l.size (i + 1) * 32 := rfl
      omega

theorem HmacList.Sound.setLaw (h : l.Sound C) (i : Nat) (hash : Bytes) (truncate : Bool) :
    l.SetLaw C i hash truncate := by
  constructor
  · intro hhash hi
    obtain ⟨l', hset, -, hsize, hentry⟩ := h.set hi.le hhash truncate
    refine ⟨l', hset, ?_⟩
    apply List.ext_getElem?
    intro j
    rw [HmacList.getElem?_entries, hsize, hentry, List.getElem?_set]
    cases truncate with
    | true =>
        simp only [if_true, List.length_take, HmacList.length_entries, List.getElem?_take,
          HmacList.getElem?_entries]
        grind
    | false =>
        simp only [Bool.false_eq_true, if_false, HmacList.length_entries,
          HmacList.getElem?_entries]
        grind
  · intro hhash hi
    obtain ⟨l', hset, -, hsize, hentry⟩ := h.set hi.le hhash truncate
    refine ⟨l', hset, ?_⟩
    apply List.ext_getElem?
    intro j
    rw [HmacList.getElem?_entries, hsize, hentry, List.getElem?_append, HmacList.length_entries,
      HmacList.getElem?_entries]
    subst hi
    have hcount : (if truncate then l.size + 1 else max l.size (l.size + 1)) = l.size + 1 := by
      split <;> omega
    rw [hcount]
    by_cases hlt : j < l.size
    · rw [if_pos (by omega), if_neg (by omega), if_pos (Or.inl hlt), if_pos hlt, if_pos hlt]
    · rw [if_neg hlt]
      by_cases heq : j = l.size
      · subst heq
        simp
      · rw [if_neg (by omega), List.getElem?_eq_none]
        rw [List.length_singleton]
        omega
  · intro hrefuses
    have herror : ∃ e, l.set i hash truncate = .error e := by
      unfold HmacList.set
      by_cases hhash : hash.length = HMAC_SIZE
      · have hlt := hrefuses.resolve_left (not_not.mpr hhash)
        rw [if_neg (not_not.mpr hhash), if_neg (by omega), if_neg (by omega)]
        exact ⟨_, rfl⟩
      · rw [if_pos hhash]
        exact ⟨_, rfl⟩
    refine ⟨herror, ?_⟩
    obtain ⟨e, herror⟩ := herror
    unfold HmacListCall.next
    dsimp only
    rw [herror]
    rfl

/-- **Looking up** an index: the only one that goes wrong is the one behind the end. -/
theorem HmacList.Sound.indexLaw_iff (h : l.Sound C) (i : Nat) : l.IndexLaw i ↔ i ≠ l.size := by
  unfold HmacList.IndexLaw
  rw [HmacList.getElem?_entries]
  by_cases hlt : i < l.size
  · have hget : l.getHash i = .ok (l.entry i) := HmacList.getHash_eq h.length_eq hlt.le
    rw [if_pos hlt]
    refine iff_of_true ⟨hget, ?_⟩ hlt.ne
    intro hash
    rw [HmacList.verifyHash, hget]
    rfl
  · rw [if_neg hlt]
    by_cases heq : i = l.size
    · have hget : l.getHash i = .ok (slice l.hashes (i * HMAC_SIZE) HMAC_SIZE) :=
        HmacList.getHash_eq h.length_eq heq.le
      refine iff_of_false ?_ (not_not.mpr heq)
      intro hlaw
      rw [hget] at hlaw
      cases hlaw.1
    · have hget : l.getHash i = .error .hashIndexOutOfBounds := if_pos (by omega)
      refine iff_of_true ⟨hget, ?_⟩ heq
      intro hash
      rw [HmacList.verifyHash, hget]
      rfl

/-- **Step.**  Every call keeps the string, the counter and the cache in step. -/
theorem HmacList.Sound.next (h : l.Sound C) (call : HmacListCall) : (call.next C l).Sound C := by
  have htop : (l.getTopHash C).2.Sound C := by
    rw [HmacList.getTopHash_snd h]
    exact ⟨h.length_eq, fun t ht => (Option.some.inj ht).symm⟩
  cases call with
  | sync topHashKey topHash hashes =>
      unfold HmacListCall.next
      dsimp only
      cases hsync : l.sync C topHashKey topHash hashes with
      | error e => exact h
      | ok l' => exact (HmacList.sound_create hsync).1
  | setAll hashes =>
      unfold HmacListCall.next HmacList.setAll
      by_cases hmod : hashes.length % HMAC_SIZE = 0
      · dsimp only
        rw [if_neg (not_not.mpr hmod)]
        exact ⟨(Nat.div_mul_cancel (Nat.dvd_of_mod_eq_zero hmod)).symm, fun t ht => nomatch ht⟩
      · dsimp only
        rw [if_pos hmod]
        exact h
  | set i hash truncate =>
      by_cases hok : hash.length = HMAC_SIZE ∧ i ≤ l.size
      · obtain ⟨l', hset, hl', -⟩ := h.set hok.2 hok.1 truncate
        unfold HmacListCall.next
        dsimp only
        rw [hset]
        exact hl'
      · have hrefuses : hash.length ≠ HMAC_SIZE ∨ l.size < i := by omega
        rw [((h.setLaw i hash truncate).refuses hrefuses).2]
        exact h
  | getHash i => exact h
  | getAll => exact h
  | getTopHash => exact htop
  | verifyHash i hash => exact h
  | verifyTopHash topHash => exact htop

/-- By induction on the run. -/
theorem HmacList.Sound.run (h : l.Sound C) {calls : List HmacListCall}
    (hrun : Run (fun l call l' => l' = HmacListCall.next C l call) l calls l') : l'.Sound C := by
  refine hrun.preserves (HmacList.Sound C) ?_ h
  intro l call l' hl hstep
  rw [hstep]
  exact hl.next call

end Entries

/-- **The tag list.**  In every state that a constructed list reaches, by calls that may
throw, the string is as long as the counter says, a cached top hash is the one of the
string, the positions of all entries are below `2 ^ 64`, `set` obeys its law, and an index
is looked up as it should be exactly if it is not the one behind the last entry. -/
theorem HmacList.representation {C : Primitives} {topHashKey topHash hashes : Bytes}
    {l l' : HmacList} {calls : List HmacListCall}
    (hnew : HmacList.create C topHashKey topHash hashes = .ok l)
    (hrun : Run (fun l call l' => l' = HmacListCall.next C l call) l calls l') :
    l'.hashes.length = l'.size * HMAC_SIZE ∧
      (l'.topHash = none ∨ l'.topHash = some (C.hmacSha256 l'.topHashKey l'.hashes)) ∧
      (l'.hashes.length < 2 ^ 64 → ∀ i ≤ l'.size, u64 (i * HMAC_SIZE) = i * HMAC_SIZE) ∧
      (∀ i hash truncate, l'.SetLaw C i hash truncate) ∧
      ∀ i, l'.IndexLaw i ↔ i ≠ l'.size := by
  have h := (HmacList.sound_create hnew).1.run hrun
  refine ⟨h.length_eq, ?_, ?_, h.setLaw, h.indexLaw_iff⟩
  · cases htop : l'.topHash with
    | none => exact Or.inl rfl
    | some t => exact Or.inr (congrArg some (h.topHash_eq t htop))
  · intro hlt i hi
    have hle := Nat.mul_le_mul_right HMAC_SIZE hi
    rw [← h.length_eq] at hle
    exact u64_of_lt (by omega)

/-! ### A list of two tags -/

/-- The tags `1, …, 1` and `2, …, 2` under a key of one byte. -/
def sampleHashes : Bytes :=
  List.replicate 32 1 ++ List.replicate 32 2

@[inherit_doc sampleHashes]
def sampleHmacList : HmacList where
  topHashKey := [7]
  topHash := some (samplePrimitives.hmacSha256 [7] sampleHashes)
  size := 2
  hashes := sampleHashes

theorem sampleHmacList_created :
    HmacList.create samplePrimitives [7] (samplePrimitives.hmacSha256 [7] sampleHashes)
      sampleHashes = .ok sampleHmacList :=
  HmacList.create_ok rfl

/-- After the first tag has been replaced and the second one cut, and after a `set` that
throws. -/
theorem HmacList.representation_sample :
    (HmacListCall.next samplePrimitives
        (HmacListCall.next samplePrimitives sampleHmacList (.set 0 (List.replicate 32 3) true))
        (.set 5 [] false)).IndexLaw 0 :=
  ((HmacList.representation sampleHmacList_created
    (.cons rfl (.cons rfl (.nil _)))).2.2.2.2 0).mpr (by decide +kernel)

/-- Behind the last tag there is an empty one, which passes for a tag. -/
theorem HmacList.empty_tag_behind_end :
    sampleHmacList.getHash 2 = .ok [] ∧ sampleHmacList.verifyHash 2 [] = .ok true ∧
      ¬ sampleHmacList.IndexLaw 2 := by
  have hget : sampleHmacList.getHash 2 = .ok [] := by decide +kernel
  refine ⟨hget, by decide +kernel, ?_⟩
  intro hlaw
  have herror : sampleHmacList.getHash 2 = .error .hashIndexOutOfBounds := hlaw.1
  rw [hget] at herror
  cases herror

end PrivmxEndpoint
