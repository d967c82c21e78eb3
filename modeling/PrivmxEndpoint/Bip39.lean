import PrivmxEndpoint.BitPacking
import PrivmxEndpoint.Bip39Words

/-!
# The codec of BIP39

`Bip39Impl::entropyToMnemonic` reads the entropy and one byte of masked checksum bit by bit
and writes a word for every eleven bits; `Bip39Impl::mnemonicToEntropy` reads the words bit
by bit and fills bytes.  Both read and write the same sequence of bits, in groups of eight
and in groups of eleven: the bits that the words leave over are those that the mask clears.
-/

namespace PrivmxEndpoint

namespace Bip39

open BitPacking

/-- What the codec throws, and an index outside of the table. -/
inductive Bip39Error
  | invalidEntropy
  | invalidMnemonic
  | invalidChecksum
  | outsideTable
  deriving Repr, DecidableEq

/-- The sizes that are accepted: 16, 20, 24, 28 and 32. -/
def ValidSize (size : ℕ) : Prop :=
  ¬ (size < 16 ∨ size > 32 ∨ size % 4 ≠ 0)

instance (size : ℕ) : Decidable (ValidSize size) :=
  inferInstanceAs (Decidable (¬ _))

/-- The places of the bits of a byte, in the order of both loops. -/
def places : List ℕ := [7, 6, 5, 4, 3, 2, 1, 0]

/-! ### The checksum -/

/-- The mask for the first `n` bits of a byte. -/
def mask (n : ℕ) : UInt8 :=
  (List.range n).foldl (fun mask i => mask ||| (1 : UInt8) <<< UInt8.ofNat (7 - i)) 0

/-- `Bip39Impl::deriveChecksumBits`. -/
def deriveChecksumBits (S : Sha256) (entropy : Bytes) : Bytes × ℕ :=
  let cs := entropy.length / 4
  let hash := (S.sha256 entropy).take ((cs + 7) / 8)
  let tmp := cs % 8
  if tmp ≠ 0 then
    (hash.dropLast ++ [hash.getLastD 0 &&& mask tmp], cs)
  else
    (hash, cs)

/-! ### Writing words -/

/-- The local variables of `entropyToMnemonic`. -/
structure PackState where
  result : Bytes
  pos : ℕ
  index : ℕ

/-- One round of the inner loop. -/
def packBit (c : UInt8) (s : PackState) (j : ℕ) : Except Bip39Error PackState :=
  let index := (s.index <<< 1) ||| ((c.toNat &&& (1 <<< j)) >>> j)
  if s.pos + 1 = 11 then
    match words[index]? with
    | none => .error .outsideTable
    | some word => .ok { result := s.result ++ word ++ [BLANK], pos := 0, index := 0 }
  else
    .ok { s with pos := s.pos + 1, index := index }

/-- One round of the outer loop. -/
def packByte (s : PackState) (c : UInt8) : Except Bip39Error PackState :=
  places.foldlM (packBit c) s

/-- `Bip39Impl::entropyToMnemonic`. -/
def entropyToMnemonic (S : Sha256) (entropy : Bytes) : Except Bip39Error Bytes := do
  if ¬ ValidSize entropy.length then
    throw .invalidEntropy
  let s ← (entropy ++ (deriveChecksumBits S entropy).1).foldlM packByte ⟨[], 0, 0⟩
  return s.result.take (s.result.length - 1)

/-! ### Reading words -/

/-- `Poco::StringTokenizer(mnemonic, " ")`: an empty string has no tokens. -/
def tokens (mnemonic : Bytes) : List Bytes :=
  if mnemonic = [] then [] else mnemonic.splitOn BLANK

/-- `Bip39Impl::indexOfWord`; `none` is `-1`. -/
def indexOfWord (word : Bytes) : Option ℕ :=
  words.findIdx? fun w => decide (word = w)

/-- The local variables of `mnemonicToEntropy`: the tokens from `word_pos` on, and one more
than its `pos`, the number of bits of `index` that are not read. -/
structure UnpackState where
  rest : List Bytes
  pos : ℕ
  index : ℕ

/-- `c |= (((index >> pos) & 1) << j)`. -/
def orBit (c : UInt8) (index pos j : ℕ) : UInt8 :=
  UInt8.ofNat (c.toNat ||| (((index >>> pos) &&& 1) <<< j))

/-- One round of the inner loop; `none` is its `break`. -/
def unpackBit (c : UInt8) (s : UnpackState) (j : ℕ) :
    Except Bip39Error (Option (UInt8 × UnpackState)) :=
  match s.pos with
  | pos + 1 => .ok (some (orBit c s.index pos j, { s with pos := pos }))
  | 0 =>
      match s.rest with
      | [] => .ok none
      | word :: rest =>
          match indexOfWord word with
          | none => .error .invalidMnemonic
          | some index => .ok (some (orBit c index 10 j, ⟨rest, 10, index⟩))

/-- The inner loop. -/
def unpackByte : List ℕ → UInt8 → UnpackState → Except Bip39Error (UInt8 × UnpackState)
  | [], c, s => .ok (c, s)
  | j :: js, c, s =>
      match unpackBit c s j with
      | .error e => .error e
      | .ok none => .ok (c, s)
      | .ok (some (c, s)) => unpackByte js c s

/-- The outer loop over a buffer of `size` zeros. -/
def unpackBytes : ℕ → UnpackState → Except Bip39Error (Bytes × UnpackState)
  | 0, s => .ok ([], s)
  | size + 1, s =>
      match unpackByte places 0 s with
      | .error e => .error e
      | .ok (c, s) =>
          match unpackBytes size s with
          | .error e => .error e
          | .ok (buf, s) => .ok (c :: buf, s)

/-- `Bip39Impl::mnemonicToEntropy`.  The buffer is never shorter than the entropy. -/
def mnemonicToEntropy (S : Sha256) (mnemonic : Bytes) : Except Bip39Error Bytes := do
  let st := tokens mnemonic
  if st.length % 3 ≠ 0 then
    throw .invalidMnemonic
  let (buf, _) ← unpackBytes ((st.length * 11 + 7) / 8) ⟨st, 0, 0⟩
  let entropy := buf.take (st.length / 3 * 4)
  let checksum := buf.drop (st.length / 3 * 4)
  if ¬ ValidSize entropy.length then
    throw .invalidEntropy
  if checksum ≠ (deriveChecksumBits S entropy).1 then
    throw .invalidChecksum
  return entropy

/-! ### The bits of bytes -/

/-- The bits of a string. -/
def bitsOf (s : Bytes) : List Bool :=
  s.flatMap fun c => bits 8 c.toNat

/-- There are eight bits to a byte. -/
theorem length_bitsOf (s : Bytes) : (bitsOf s).length = 8 * s.length := by
  have h := length_flatMap_bits 8 (s.map UInt8.toNat)
  rw [List.flatMap_map, List.length_map] at h
  exact h

/-- Bytes are the groups of their bits. -/
theorem groups_bitsOf (s : Bytes) : (groups 8 s.length (bitsOf s)).map UInt8.ofNat = s := by
  have hlt : ∀ n ∈ s.map UInt8.toNat, n < 2 ^ 8 := by
    intro n hn
    obtain ⟨c, _, rfl⟩ := List.mem_map.mp hn
    exact c.toNat_lt
  have h := groups_flatMap_bits hlt []
  rw [List.append_nil, List.flatMap_map, List.length_map] at h
  have hmap : (groups 8 s.length (bitsOf s)) = s.map UInt8.toNat := h
  rw [hmap, List.map_map]
  exact (List.map_congr_left fun c _ => UInt8.ofNat_toNat).trans (List.map_id s)

/-- Bits are those of their groups of eight. -/
theorem bitsOf_groups {k : ℕ} {l : List Bool} (h : 8 * k ≤ l.length) :
    bitsOf ((groups 8 k l).map UInt8.ofNat) = l.take (8 * k) := by
  rw [bitsOf, List.flatMap_map, ← flatMap_groups h]
  refine List.flatMap_congr fun n hn => ?_
  rw [UInt8.toNat_ofNat_of_lt' (groups_lt h n hn)]

/-! ### What the writer writes -/

/-- A word with the blank behind it. -/
def wordAndBlank (index : ℕ) : Bytes :=
  words.getD index [] ++ [BLANK]

/-- One round as a step on bits. -/
def packBool (s : PackState) (b : Bool) : Except Bip39Error PackState :=
  if s.pos + 1 = 11 then
    match words[2 * s.index + b.toNat]? with
    | none => .error .outsideTable
    | some word => .ok { result := s.result ++ word ++ [BLANK], pos := 0, index := 0 }
  else
    .ok { s with pos := s.pos + 1, index := 2 * s.index + b.toNat }

/-- The source takes out one bit. -/
theorem testBit_eq_shift (n j : ℕ) : (n &&& (1 <<< j)) >>> j = (n.testBit j).toNat := by
  rw [Nat.shiftRight_and_distrib, Nat.shiftLeft_shiftRight, Nat.and_one_is_mod, Nat.toNat_testBit,
    Nat.shiftRight_eq_div_pow]

/-- The source puts a bit behind the others. -/
theorem shiftLeft_or_bit (n : ℕ) (b : Bool) : (n <<< 1) ||| b.toNat = 2 * n + b.toNat := by
  have hlt : b.toNat < 2 ^ 1 := by
    cases b with
    | false => decide
    | true => decide
  rw [← Nat.shiftLeft_add_eq_or_of_lt hlt, Nat.shiftLeft_eq, Nat.mul_comm, pow_one]

/-- One turn of the inner loop packs one bit. -/
theorem packBit_eq (c : UInt8) (s : PackState) (j : ℕ) :
    packBit c s j = packBool s (c.toNat.testBit j) := by
  unfold packBit packBool
  rw [testBit_eq_shift, shiftLeft_or_bit]

/-- One turn of the outer loop packs the bits of a byte. -/
theorem packByte_eq (s : PackState) (c : UInt8) :
    packByte s c = (bits 8 c.toNat).foldlM packBool s := by
  have hplaces : bits 8 c.toNat = places.map c.toNat.testBit := rfl
  rw [hplaces, List.foldlM_map]
  unfold packByte
  congr 1
  funext s j
  exact packBit_eq c s j

/-- **The writer** sees the bytes as one sequence of bits. -/
theorem foldlM_packByte (bytes : Bytes) (s : PackState) :
    bytes.foldlM packByte s = (bitsOf bytes).foldlM packBool s := by
  induction bytes generalizing s with
  | nil => rfl
  | cons c bytes ih =>
      rw [List.foldlM_cons, packByte_eq, bitsOf, List.flatMap_cons, List.foldlM_append]
      congr 1
      funext t
      exact ih t

/-- Fewer bits than a word needs. -/
theorem foldlM_packBool_short {l : List Bool} {r : Bytes} {pos index : ℕ}
    (h : pos + l.length < 11) :
    l.foldlM packBool ⟨r, pos, index⟩ =
      .ok ⟨r, pos + l.length, l.foldl (fun n b => 2 * n + b.toNat) index⟩ := by
  induction l generalizing pos index with
  | nil => rfl
  | cons b l ih =>
      rw [List.length_cons] at h
      have hstep : packBool ⟨r, pos, index⟩ b = .ok ⟨r, pos + 1, 2 * index + b.toNat⟩ :=
        if_neg (by dsimp only; omega)
      rw [List.foldlM_cons, hstep]
      change l.foldlM packBool ⟨r, pos + 1, 2 * index + b.toNat⟩ = _
      rw [ih (by omega), List.foldl_cons, List.length_cons]
      congr 2
      omega

/-- There is a word for each number below 2048. -/
theorem getElem?_words {n : ℕ} (hn : n < 2048) : words[n]? = some (words.getD n []) := by
  have hlt : n < words.length := by rw [length_words]; exact hn
  rw [List.getElem?_eq_getElem hlt, List.getD_eq_getElem _ _ hlt]

/-- The bits of one word. -/
theorem foldlM_packBool_word {n : ℕ} (hn : n < 2048) (r : Bytes) :
    (bits 11 n).foldlM packBool ⟨r, 0, 0⟩ = .ok ⟨r ++ wordAndBlank n, 0, 0⟩ := by
  obtain ⟨init, last, hbits⟩ : ∃ init last, bits 11 n = init ++ [last] :=
    (List.eq_nil_or_concat' (bits 11 n)).resolve_left (List.cons_ne_nil _ _)
  have hlength : init.length = 10 := by
    have h := congrArg List.length hbits
    rw [length_bits, List.length_append, List.length_singleton] at h
    omega
  have hvalue : 2 * value init + last.toNat = n := by
    rw [← value_append_singleton, ← hbits]
    exact value_bits_of_lt hn
  have hinit : init.foldlM packBool ⟨r, 0, 0⟩ = .ok ⟨r, 10, value init⟩ := by
    rw [foldlM_packBool_short (by omega), hlength]
    rfl
  rw [hbits, List.foldlM_append, hinit]
  change [last].foldlM packBool ⟨r, 10, value init⟩ = _
  rw [List.foldlM_cons, packBool, if_pos rfl]
  dsimp only
  rw [hvalue, getElem?_words hn, wordAndBlank, ← List.append_assoc]
  rfl

/-- **The writer** writes a word for every eleven bits, and nothing for fewer. -/
theorem foldlM_packBool_words {ns : List ℕ} (hns : ∀ n ∈ ns, n < 2048) {rest : List Bool}
    (hrest : rest.length < 11) (r : Bytes) :
    (ns.flatMap (bits 11) ++ rest).foldlM packBool ⟨r, 0, 0⟩ =
      .ok ⟨r ++ ns.flatMap wordAndBlank, rest.length, value rest⟩ := by
  induction ns generalizing r with
  | nil =>
      rw [List.flatMap_nil, List.nil_append, foldlM_packBool_short (by omega), Nat.zero_add,
        List.flatMap_nil, List.append_nil]
      rfl
  | cons n ns ih =>
      rw [List.flatMap_cons, List.append_assoc, List.foldlM_append,
        foldlM_packBool_word (hns n List.mem_cons_self)]
      change (ns.flatMap (bits 11) ++ rest).foldlM packBool ⟨r ++ wordAndBlank n, 0, 0⟩ = _
      rw [ih fun m hm => hns m (List.mem_cons_of_mem n hm), List.flatMap_cons, List.append_assoc]

/-- The words, with blanks between them. -/
def sentence (ns : List ℕ) : Bytes :=
  [BLANK].intercalate (ns.map fun n => words.getD n [])

/-- The last blank is cut off. -/
theorem take_flatMap_wordAndBlank {ns : List ℕ} (hns : ns ≠ []) :
    (ns.flatMap wordAndBlank).take ((ns.flatMap wordAndBlank).length - 1) = sentence ns := by
  rw [← List.dropLast_eq_take]
  induction ns with
  | nil => exact absurd rfl hns
  | cons n ns ih =>
      cases ns with
      | nil =>
          rw [List.flatMap_singleton, wordAndBlank, List.dropLast_concat]
          exact (List.append_nil _).symm
      | cons m ns =>
          have hne : (m :: ns).flatMap wordAndBlank ≠ [] := by
            rw [List.flatMap_cons, wordAndBlank]
            simp
          rw [List.flatMap_cons, List.dropLast_append_of_ne_nil hne,
            ih (List.cons_ne_nil m ns), wordAndBlank, List.append_assoc]
          rfl

/-- **`entropyToMnemonic`** in terms of bits: the words of the groups of eleven. -/
theorem entropyToMnemonic_eq {S : Sha256} {entropy : Bytes} (hsize : ValidSize entropy.length)
    {ns : List ℕ} (hns : ∀ n ∈ ns, n < 2048) (hne : ns ≠ []) {rest : List Bool}
    (hrest : rest.length < 11)
    (hbits : bitsOf (entropy ++ (deriveChecksumBits S entropy).1) =
      ns.flatMap (bits 11) ++ rest) :
    entropyToMnemonic S entropy = .ok (sentence ns) := by
  have hloop := foldlM_packBool_words hns hrest []
  rw [← hbits, ← foldlM_packByte, List.nil_append] at hloop
  unfold entropyToMnemonic
  rw [if_neg (not_not.mpr hsize), hloop]
  change Except.ok ((ns.flatMap wordAndBlank).take ((ns.flatMap wordAndBlank).length - 1)) = _
  rw [take_flatMap_wordAndBlank hne]

/-! ### What the reader reads -/

/-- The number of a word is found again. -/
theorem indexOfWord_word {n : ℕ} (hn : n < 2048) : indexOfWord (words.getD n []) = some n := by
  have hlt : n < words.length := by rw [length_words]; exact hn
  unfold indexOfWord
  rw [List.getD_eq_getElem _ _ hlt, List.findIdx?_eq_some_iff_getElem]
  refine ⟨hlt, by simp, ?_⟩
  intro m hm
  have hne : words[n] ≠ words[m] := by
    intro heq
    have hinj := (nodup_words.getElem_inj_iff).mp heq
    omega
  simpa using hne

/-- A word that is found is the one of its number. -/
theorem of_indexOfWord {word : Bytes} {n : ℕ} (h : indexOfWord word = some n) :
    n < 2048 ∧ words.getD n [] = word := by
  unfold indexOfWord at h
  rw [List.findIdx?_eq_some_iff_getElem] at h
  obtain ⟨hlt, hword, _⟩ := h
  rw [List.getD_eq_getElem _ _ hlt]
  rw [length_words] at hlt
  exact ⟨hlt, (of_decide_eq_true hword).symm⟩

/-- The bits that are still to be read. -/
def Pending (s : UnpackState) (l : List Bool) : Prop :=
  ∃ ns : List ℕ, s.rest.map indexOfWord = ns.map some ∧
    l = bits s.pos s.index ++ ns.flatMap (bits 11)

/-- One bit in its place. -/
def placeBit (c : UInt8) (b : Bool) (j : ℕ) : UInt8 :=
  UInt8.ofNat (c.toNat ||| (b.toNat <<< j))

/-- The source puts a bit into its place in a byte. -/
theorem orBit_eq (c : UInt8) (index pos j : ℕ) :
    orBit c index pos j = placeBit c (index.testBit pos) j := by
  rw [orBit, placeBit, Nat.and_one_is_mod, Nat.toNat_testBit, Nat.shiftRight_eq_div_pow]

/-- **One round of the reader** takes the next bit, if there is one. -/
theorem unpackBit_spec (c : UInt8) {s : UnpackState} (j : ℕ) {l : List Bool} (h : Pending s l) :
    (l = [] ∧ unpackBit c s j = .ok none) ∨
      ∃ b rest s', l = b :: rest ∧ unpackBit c s j = .ok (some (placeBit c b j, s')) ∧
        Pending s' rest := by
  obtain ⟨ns, hns, hl⟩ := h
  obtain ⟨words', pos, index⟩ := s
  cases pos with
  | succ pos =>
      refine Or.inr ⟨index.testBit pos, bits pos index ++ ns.flatMap (bits 11),
        ⟨words', pos, index⟩, hl, ?_, ns, hns, rfl⟩
      rw [← orBit_eq]
      rfl
  | zero =>
      cases words' with
      | nil =>
          have hnil : ns = [] := by simpa using hns.symm
          refine Or.inl ⟨?_, rfl⟩
          rw [hl, hnil]
          rfl
      | cons word words' =>
          cases ns with
          | nil => cases hns
          | cons n ns =>
              rw [List.map_cons, List.map_cons, List.cons.injEq] at hns
              obtain ⟨hword, hrest⟩ := hns
              refine Or.inr ⟨n.testBit 10, bits 10 n ++ ns.flatMap (bits 11), ⟨words', 10, n⟩,
                hl, ?_, ns, hrest, rfl⟩
              unfold unpackBit
              dsimp only
              rw [hword]
              dsimp only
              rw [orBit_eq]

/-- The places below `j`, from the highest on. -/
def placesBelow : ℕ → List ℕ
  | 0 => []
  | j + 1 => j :: placesBelow j

/-- A byte has eight places. -/
theorem places_eq : places = placesBelow 8 := rfl

/-- A bit is added where only zeros are. -/
theorem toNat_placeBit {c : UInt8} {j : ℕ} (hj : j + 1 ≤ 8) (hc : 2 ^ (j + 1) ∣ c.toNat)
    (b : Bool) : (placeBit c b j).toNat = c.toNat + b.toNat * 2 ^ j := by
  obtain ⟨k, hk⟩ := hc
  have hb : b.toNat ≤ 1 := Bool.toNat_le b
  have hplace : b.toNat <<< j = b.toNat * 2 ^ j := Nat.shiftLeft_eq _ _
  have hsmall : b.toNat <<< j < 2 ^ (j + 1) := by
    rw [hplace, pow_succ]
    have hpos := Nat.two_pow_pos j
    nlinarith
  have hor : c.toNat ||| b.toNat <<< j = c.toNat + b.toNat * 2 ^ j := by
    have hshift : c.toNat = k <<< (j + 1) := by rw [hk, Nat.shiftLeft_eq, Nat.mul_comm]
    rw [hshift, ← Nat.shiftLeft_add_eq_or_of_lt hsmall, hplace]
  have hlt : c.toNat ||| b.toNat <<< j < 2 ^ 8 := by
    refine Nat.or_lt_two_pow c.toNat_lt (lt_of_lt_of_le hsmall ?_)
    exact Nat.pow_le_pow_right (by decide) hj
  rw [placeBit, UInt8.toNat_ofNat_of_lt' hlt, hor]

/-- **The inner loop** fills a byte with the next bits, and with zeros behind them. -/
theorem unpackByte_spec {j : ℕ} (hj : j ≤ 8) {c : UInt8} (hc : 2 ^ j ∣ c.toNat)
    {s : UnpackState} {l : List Bool} (h : Pending s l) :
    ∃ c' s', unpackByte (placesBelow j) c s = .ok (c', s') ∧
      c'.toNat = c.toNat + value (l.takeD j false) ∧ Pending s' (l.drop j) := by
  induction j generalizing c s l with
  | zero => exact ⟨c, s, rfl, rfl, h⟩
  | succ j ih =>
      rcases unpackBit_spec c j h with ⟨hnil, hbit⟩ | ⟨b, rest, s', hl, hbit, hs'⟩
      · refine ⟨c, s, ?_, ?_, ?_⟩
        · rw [placesBelow, unpackByte, hbit]
        · rw [hnil, List.takeD_nil, value_replicate_false, Nat.add_zero]
        · rw [hnil] at h ⊢
          exact h
      · have hplaced := toNat_placeBit hj hc b
        have hc' : 2 ^ j ∣ (placeBit c b j).toNat := by
          rw [hplaced]
          exact dvd_add ((pow_dvd_pow 2 (Nat.le_succ j)).trans hc) (dvd_mul_left _ _)
        obtain ⟨c', s'', hloop, hvalue, hpending⟩ := ih (by omega) hc' hs'
        refine ⟨c', s'', ?_, ?_, ?_⟩
        · rw [placesBelow, unpackByte, hbit]
          exact hloop
        · rw [hvalue, hplaced, hl, List.takeD_succ, value_cons, List.takeD_length]
          simp only [List.head?_cons, Option.getD_some, List.tail_cons]
          omega
        · rw [hl, List.drop_succ_cons]
          exact hpending

/-- A longer prefix, filled up, is two of them. -/
theorem takeD_add (m n : ℕ) (l : List Bool) :
    l.takeD (m + n) false = l.takeD m false ++ (l.drop m).takeD n false := by
  induction m generalizing l with
  | zero => rw [Nat.zero_add]; rfl
  | succ m ih =>
      rw [Nat.succ_add, List.takeD_succ, List.takeD_succ, ih, List.cons_append, List.drop_tail]

/-- **The reader** fills the buffer with the bits of the words, and with zeros behind them. -/
theorem unpackBytes_spec (size : ℕ) {s : UnpackState} {l : List Bool} (h : Pending s l) :
    ∃ s', unpackBytes size s =
      .ok ((groups 8 size (l.takeD (8 * size) false)).map UInt8.ofNat, s') := by
  induction size generalizing s l with
  | zero => exact ⟨s, rfl⟩
  | succ size ih =>
      obtain ⟨c, s', hbyte, hvalue, hpending⟩ :=
        unpackByte_spec (c := 0) (le_refl 8) (dvd_zero _) h
      obtain ⟨s'', hbytes⟩ := ih hpending
      have hsplit : l.takeD (8 * (size + 1)) false =
          l.takeD 8 false ++ (l.drop 8).takeD (8 * size) false := by
        rw [Nat.mul_succ, Nat.add_comm, takeD_add]
      have hlength : (l.takeD 8 false).length = 8 := List.takeD_length 8 l false
      refine ⟨s'', ?_⟩
      rw [unpackBytes, places_eq, hbyte]
      dsimp only
      rw [hbytes, hsplit, groups, List.take_left' hlength, List.drop_left' hlength, List.map_cons]
      dsimp only
      congr 3
      rw [UInt8.toNat_zero, Nat.zero_add] at hvalue
      rw [← hvalue, UInt8.ofNat_toNat]

/-- All tokens are words. -/
def Known (s : UnpackState) : Prop :=
  ∀ word ∈ s.rest, ∃ n, indexOfWord word = some n

/-- How many bits are still to be read. -/
def UnpackState.left (s : UnpackState) : ℕ :=
  s.pos + 11 * s.rest.length

/-- A round that does not break reads one bit, and no token but a word. -/
theorem left_unpackBit {c : UInt8} {s : UnpackState} {j : ℕ} {step : Option (UInt8 × UnpackState)}
    (h : unpackBit c s j = .ok step) :
    (step = none → s.left = 0) ∧
      ∀ c' s', step = some (c', s') → s.left = s'.left + 1 ∧ (Known s' → Known s) := by
  obtain ⟨words', pos, index⟩ := s
  unfold unpackBit at h
  cases pos with
  | succ pos =>
      cases h
      refine ⟨fun hnone => (by cases hnone), fun c' s' hsome => ?_⟩
      cases hsome
      refine ⟨?_, id⟩
      simp only [UnpackState.left]
      omega
  | zero =>
      cases words' with
      | nil =>
          cases h
          exact ⟨fun _ => rfl, fun c' s' hsome => (by cases hsome)⟩
      | cons word words' =>
          dsimp only at h
          cases hword : indexOfWord word with
          | none =>
              rw [hword] at h
              cases h
          | some n =>
              rw [hword] at h
              cases h
              refine ⟨fun hnone => (by cases hnone), fun c' s' hsome => ?_⟩
              cases hsome
              refine ⟨by simp only [UnpackState.left, List.length_cons]; omega, fun hknown => ?_⟩
              intro w hw
              rcases List.mem_cons.mp hw with hw | hw
              · exact ⟨n, hw ▸ hword⟩
              · exact hknown w hw

/-- A byte takes as many bits as it has places, and no word that is not known. -/
theorem left_unpackByte {js : List ℕ} {c c' : UInt8} {s s' : UnpackState}
    (h : unpackByte js c s = .ok (c', s')) :
    s'.left = s.left - js.length ∧ (Known s' → Known s) := by
  induction js generalizing c s with
  | nil =>
      cases h
      exact ⟨rfl, id⟩
  | cons j js ih =>
      rw [unpackByte] at h
      cases hbit : unpackBit c s j with
      | error e =>
          rw [hbit] at h
          cases h
      | ok step =>
          rw [hbit] at h
          obtain ⟨hbreak, hstep⟩ := left_unpackBit hbit
          cases step with
          | none =>
              cases h
              refine ⟨?_, id⟩
              rw [hbreak rfl, Nat.zero_sub]
          | some next =>
              obtain ⟨c₁, s₁⟩ := next
              obtain ⟨hleft, hknown⟩ := hstep c₁ s₁ rfl
              obtain ⟨hrest, hknown'⟩ := ih h
              refine ⟨?_, fun hs' => hknown (hknown' hs')⟩
              rw [hrest, hleft, List.length_cons]
              omega

/-- So do all bytes. -/
theorem left_unpackBytes {size : ℕ} {buf : Bytes} {s s' : UnpackState}
    (h : unpackBytes size s = .ok (buf, s')) :
    s'.left = s.left - 8 * size ∧ (Known s' → Known s) := by
  induction size generalizing buf s with
  | zero =>
      cases h
      exact ⟨rfl, id⟩
  | succ size ih =>
      rw [unpackBytes] at h
      cases hbyte : unpackByte places 0 s with
      | error e =>
          rw [hbyte] at h
          cases h
      | ok next =>
          obtain ⟨c, s₁⟩ := next
          rw [hbyte] at h
          dsimp only at h
          obtain ⟨hleft, hknown⟩ := left_unpackByte hbyte
          cases hbytes : unpackBytes size s₁ with
          | error e =>
              rw [hbytes] at h
              cases h
          | ok result =>
              obtain ⟨rest, s₂⟩ := result
              rw [hbytes] at h
              cases h
              obtain ⟨hleft', hknown'⟩ := ih hbytes
              refine ⟨?_, fun hs' => hknown (hknown' hs')⟩
              rw [hleft', hleft]
              simp only [places, List.length_cons, List.length_nil]
              omega

/-- **A mnemonic that is read to its end** has only words. -/
theorem known_of_unpackBytes {size : ℕ} {st : List Bytes} {buf : Bytes} {s' : UnpackState}
    (h : unpackBytes size ⟨st, 0, 0⟩ = .ok (buf, s')) (hsize : 11 * st.length ≤ 8 * size) :
    ∃ ns : List ℕ, st.map indexOfWord = ns.map some := by
  obtain ⟨hleft, hknown⟩ := left_unpackBytes h
  have hzero : s'.left = 0 := by
    rw [hleft]
    simp only [UnpackState.left]
    omega
  have hrest : s'.rest = [] := by
    simp only [UnpackState.left] at hzero
    exact List.length_eq_zero_iff.mp (by omega)
  have hall := hknown (fun word hword => absurd (hrest ▸ hword) List.not_mem_nil)
  refine ⟨st.map fun word => (indexOfWord word).getD 0, ?_⟩
  rw [List.map_map]
  refine List.map_congr_left fun word hword => ?_
  obtain ⟨n, hn⟩ := hall word hword
  rw [Function.comp_apply, hn, Option.getD_some]

/-! ### The checksum byte -/

/-- The sizes in blocks of four bytes. -/
theorem validSize_iff {size : ℕ} : ValidSize size ↔ ∃ m, 4 ≤ m ∧ m ≤ 8 ∧ size = 4 * m := by
  unfold ValidSize
  constructor
  · intro h
    exact ⟨size / 4, by omega, by omega, by omega⟩
  · intro h
    obtain ⟨m, hlow, hhigh, rfl⟩ := h
    omega

/-- The mask clears the last bits. -/
theorem testBit_mask : ∀ m ≤ 8, ∀ i < 8 - m, (mask m).toNat.testBit i = false := by
  decide

/-- The bits of the checksum fit into one byte. -/
theorem length_deriveChecksumBits {S : Sha256} {entropy : Bytes} {m : ℕ} (hlow : 4 ≤ m)
    (hhigh : m ≤ 8) (hsize : entropy.length = 4 * m) :
    ((deriveChecksumBits S entropy).1).length = 1 := by
  have hcs : entropy.length / 4 = m := by omega
  have hone : (m + 7) / 8 = 1 := by omega
  have hhash := S.length_sha256 entropy
  unfold deriveChecksumBits
  simp only [hcs, hone]
  split
  · rw [List.length_append, List.length_dropLast, List.length_take, hhash]
    rfl
  · rw [List.length_take, hhash]
    rfl

/-- **The checksum** is one byte whose bits behind the first `m` are zero. -/
theorem deriveChecksumBits_spec {S : Sha256} {entropy : Bytes} {m : ℕ} (hlow : 4 ≤ m)
    (hhigh : m ≤ 8) (hsize : entropy.length = 4 * m) :
    ∃ c : UInt8, (deriveChecksumBits S entropy).1 = [c] ∧
      bits (8 - m) c.toNat = List.replicate (8 - m) false := by
  obtain ⟨c, hc⟩ := List.length_eq_one_iff.mp (length_deriveChecksumBits (S := S) hlow hhigh hsize)
  refine ⟨c, hc, ?_⟩
  have hcs : entropy.length / 4 = m := by omega
  have hzeros : ∀ k, bits k 0 = List.replicate k false := by
    intro k
    induction k with
    | zero => rfl
    | succ k ih => rw [bits, ih, Nat.zero_testBit, List.replicate_succ]
  rw [← hzeros]
  apply bits_congr
  intro i hi
  rw [Nat.zero_testBit]
  have hm : m % 8 ≠ 0 := by omega
  have hmod : m % 8 = m := by omega
  unfold deriveChecksumBits at hc
  simp only [hcs] at hc
  rw [if_pos hm, hmod] at hc
  have hlast := congrArg (List.getLastD · 0) hc
  simp only [List.getLastD_concat] at hlast
  rw [show c = _ from hlast.symm, UInt8.toNat_and, Nat.testBit_and,
    testBit_mask m hhigh i hi, Bool.and_false]

/-! ### Round trips -/

/-- The tokens of a sentence are its words. -/
theorem tokens_sentence {ns : List ℕ} (hns : ∀ n ∈ ns, n < 2048) (hne : ns ≠ []) :
    tokens (sentence ns) = ns.map fun n => words.getD n [] := by
  have hmem : ∀ word ∈ ns.map (fun n => words.getD n []), word ∈ words := by
    intro word hword
    obtain ⟨n, hn, rfl⟩ := List.mem_map.mp hword
    exact List.mem_of_getElem? (getElem?_words (hns n hn))
  have hsplit : (sentence ns).splitOn BLANK = ns.map fun n => words.getD n [] :=
    List.splitOn_intercalate BLANK
      (fun word hword => blank_notMem_of_mem_words (hmem word hword))
      (fun hnil => hne (List.map_eq_nil_iff.mp hnil))
  rw [tokens, if_neg, hsplit]
  intro hempty
  rw [hempty] at hsplit
  have hnil : ([] : Bytes) ∈ ns.map fun n => words.getD n [] := by
    rw [← hsplit]
    exact List.mem_singleton_self _
  exact ne_nil_of_mem_words (hmem _ hnil) rfl

/-- A buffer that is read from words: their bits, with zeros behind them. -/
theorem takeD_bits {l : List Bool} {k : ℕ} :
    l.takeD (l.length + k) false = l ++ List.replicate k false := by
  rw [takeD_add, List.takeD_eq_take false (le_refl _), List.take_length, List.drop_length,
    List.takeD_nil]

/-- Where all words are known, the bytes are the groups of the bits of their numbers, filled
up with zeros. -/
theorem unpackBytes_known {st : List Bytes} {ns : List ℕ} {m : ℕ} (hm : m ≤ 8)
    (hst : st.map indexOfWord = ns.map some) (hlength : st.length = 3 * m) :
    ∃ s', unpackBytes (4 * m + 1) ⟨st, 0, 0⟩ =
      .ok ((groups 8 (4 * m + 1)
        (ns.flatMap (bits 11) ++ List.replicate (8 - m) false)).map UInt8.ofNat, s') := by
  have hns : ns.length = 3 * m := by
    have h := congrArg List.length hst
    rw [List.length_map, List.length_map] at h
    omega
  have hpending : Pending ⟨st, 0, 0⟩ (ns.flatMap (bits 11)) := ⟨ns, hst, rfl⟩
  obtain ⟨s', hread⟩ := unpackBytes_spec (4 * m + 1) hpending
  have hbits := length_flatMap_bits 11 ns
  have hsize : 8 * (4 * m + 1) = (ns.flatMap (bits 11)).length + (8 - m) := by
    rw [hbits, hns]
    omega
  rw [hsize, takeD_bits] at hread
  exact ⟨s', hread⟩

/-- The buffer has one byte more than four for each three words. -/
theorem bufferSize {m : ℕ} (hlow : 1 ≤ m) (hhigh : m ≤ 8) :
    (3 * m * 11 + 7) / 8 = 4 * m + 1 := by
  omega

/-- **`mnemonicToEntropy`** of words, when there are enough of them. -/
theorem mnemonicToEntropy_eq (S : Sha256) {mnemonic : Bytes} {ns : List ℕ} {m : ℕ} (hlow : 4 ≤ m)
    (hhigh : m ≤ 8) (hst : (tokens mnemonic).map indexOfWord = ns.map some)
    (hlength : (tokens mnemonic).length = 3 * m) {buf : Bytes}
    (hbuf : (groups 8 (4 * m + 1)
      (ns.flatMap (bits 11) ++ List.replicate (8 - m) false)).map UInt8.ofNat = buf) :
    mnemonicToEntropy S mnemonic =
      if buf.drop (4 * m) ≠ (deriveChecksumBits S (buf.take (4 * m))).1 then
        .error .invalidChecksum
      else
        .ok (buf.take (4 * m)) := by
  obtain ⟨s', hread⟩ := unpackBytes_known hhigh hst hlength
  rw [hbuf] at hread
  have hcount : ¬ 3 * m % 3 ≠ 0 := by omega
  have hblocks : 3 * m / 3 * 4 = 4 * m := by omega
  have hbufLength : buf.length = 4 * m + 1 := by
    rw [← hbuf, List.length_map, length_groups]
  have hsize : ¬ ¬ ValidSize (buf.take (4 * m)).length := by
    rw [not_not, List.length_take, hbufLength, Nat.min_eq_left (Nat.le_succ _)]
    exact validSize_iff.mpr ⟨m, hlow, hhigh, rfl⟩
  unfold mnemonicToEntropy
  simp only [hlength]
  rw [if_neg hcount, bufferSize (by omega) hhigh, hread]
  simp only [bind, Except.bind, hblocks]
  rw [if_neg hsize]
  split
  · rfl
  · rfl

/-- The last bits of a number are those of a shorter one. -/
theorem drop_bits {w k : ℕ} (h : k ≤ w) (n : ℕ) : (bits w n).drop k = bits (w - k) n := by
  induction w generalizing k with
  | zero =>
      obtain rfl : k = 0 := by omega
      rfl
  | succ w ih =>
      cases k with
      | zero => rfl
      | succ k => rw [bits, List.drop_succ_cons, ih (by omega), Nat.succ_sub_succ]

/-- The bits of the entropy and its checksum are those of words and zeros. -/
theorem bitsOf_eq {S : Sha256} {entropy : Bytes} {m : ℕ} (hlow : 4 ≤ m) (hhigh : m ≤ 8)
    (hlength : entropy.length = 4 * m) :
    ∃ ns : List ℕ, ns.length = 3 * m ∧ (∀ n ∈ ns, n < 2048) ∧
      bitsOf (entropy ++ (deriveChecksumBits S entropy).1) =
        ns.flatMap (bits 11) ++ List.replicate (8 - m) false := by
  obtain ⟨c, hc, hzeros⟩ := deriveChecksumBits_spec (S := S) hlow hhigh hlength
  have hall : (bitsOf (entropy ++ [c])).length = 8 * (4 * m + 1) := by
    rw [length_bitsOf, List.length_append, hlength]
    rfl
  have henough : 11 * (3 * m) ≤ (bitsOf (entropy ++ [c])).length := by omega
  refine ⟨groups 11 (3 * m) (bitsOf (entropy ++ [c])), length_groups _ _ _,
    groups_lt henough, ?_⟩
  have hrest : (bitsOf (entropy ++ [c])).drop (11 * (3 * m)) = List.replicate (8 - m) false := by
    have happend : bitsOf (entropy ++ [c]) = bitsOf entropy ++ bits 8 c.toNat := by
      rw [bitsOf, List.flatMap_append, List.flatMap_singleton]
      rfl
    have hfirst : (bitsOf entropy).length = 32 * m := by
      rw [length_bitsOf, hlength]
      ring
    have hsplit : 11 * (3 * m) = 32 * m + m := by ring
    rw [happend, hsplit, ← List.drop_drop, List.drop_left' hfirst, drop_bits hhigh, hzeros]
  rw [hc, flatMap_groups henough, ← hrest, List.take_append_drop]

/-- **Writing and reading** gives the entropy back. -/
theorem mnemonicToEntropy_entropyToMnemonic (S : Sha256) {entropy : Bytes}
    (hsize : ValidSize entropy.length) :
    ∃ mnemonic, entropyToMnemonic S entropy = .ok mnemonic ∧
      mnemonicToEntropy S mnemonic = .ok entropy := by
  obtain ⟨m, hlow, hhigh, hlength⟩ := validSize_iff.mp hsize
  obtain ⟨ns, hcount, hns, hbits⟩ := bitsOf_eq (S := S) hlow hhigh hlength
  have hne : ns ≠ [] := by
    intro hnil
    rw [hnil] at hcount
    simp at hcount
    omega
  have hrest : (List.replicate (8 - m) false).length < 11 := by
    rw [List.length_replicate]
    omega
  have hwritten := entropyToMnemonic_eq hsize hns hne hrest hbits
  have htokens := tokens_sentence hns hne
  have hst : (tokens (sentence ns)).map indexOfWord = ns.map some := by
    rw [htokens, List.map_map]
    exact List.map_congr_left fun n hn => indexOfWord_word (hns n hn)
  have htokensLength : (tokens (sentence ns)).length = 3 * m := by
    rw [htokens, List.length_map, hcount]
  have hchecksum := length_deriveChecksumBits (S := S) hlow hhigh hlength
  have hbuf : (groups 8 (4 * m + 1)
      (ns.flatMap (bits 11) ++ List.replicate (8 - m) false)).map UInt8.ofNat =
      entropy ++ (deriveChecksumBits S entropy).1 := by
    have hgroups := groups_bitsOf (entropy ++ (deriveChecksumBits S entropy).1)
    rw [hbits, List.length_append, hlength, hchecksum] at hgroups
    exact hgroups
  refine ⟨_, hwritten, ?_⟩
  rw [mnemonicToEntropy_eq S hlow hhigh hst htokensLength hbuf, List.take_left' hlength,
    List.drop_left' hlength, if_neg (not_not.mpr rfl)]

/-- The sentence of the tokens of a string is the string. -/
theorem sentence_of_tokens {mnemonic : Bytes} {ns : List ℕ}
    (hst : (tokens mnemonic).map indexOfWord = ns.map some) (hne : tokens mnemonic ≠ []) :
    sentence ns = mnemonic := by
  have hwords : ∀ (st : List Bytes) (ns : List ℕ), st.map indexOfWord = ns.map some →
      ns.map (fun n => words.getD n []) = st := by
    intro st ns h
    induction st generalizing ns with
    | nil =>
        have hnil : ns = [] := by simpa using h.symm
        rw [hnil]
        rfl
    | cons word st ih =>
        cases ns with
        | nil => cases h
        | cons n ns =>
            rw [List.map_cons, List.map_cons, List.cons.injEq] at h
            rw [List.map_cons, (of_indexOfWord h.1).2, ih ns h.2]
  unfold tokens at hst hne
  split at hne
  · exact absurd rfl hne
  · rename_i hempty
    rw [if_neg hempty] at hst
    rw [sentence, hwords _ _ hst]
    exact List.intercalate_splitOn BLANK

/-- The buffer is filled. -/
theorem length_unpackBytes {size : ℕ} {s s' : UnpackState} {buf : Bytes}
    (h : unpackBytes size s = .ok (buf, s')) : buf.length = size := by
  induction size generalizing s buf with
  | zero =>
      cases h
      rfl
  | succ size ih =>
      rw [unpackBytes] at h
      split at h
      · cases h
      · split at h
        · cases h
        · rename_i hrest
          cases h
          rw [List.length_cons, ih hrest]

/-- Only an unknown word ends the loops. -/
theorem error_unpackBytes {size : ℕ} {s : UnpackState} {e : Bip39Error}
    (h : unpackBytes size s = .error e) : e = .invalidMnemonic := by
  have hbit : ∀ {c s j e'}, unpackBit c s j = .error e' → e' = .invalidMnemonic := by
    intro c s j e' hbit
    unfold unpackBit at hbit
    split at hbit
    · cases hbit
    · split at hbit
      · cases hbit
      · split at hbit
        · cases hbit
          rfl
        · cases hbit
  have hbyte : ∀ {js c s e'}, unpackByte js c s = .error e' → e' = .invalidMnemonic := by
    intro js
    induction js with
    | nil => intro c s e' hbyte; cases hbyte
    | cons j js ih =>
        intro c s e' hbyte
        rw [unpackByte] at hbyte
        split at hbyte
        · rename_i he
          cases hbyte
          exact hbit he
        · cases hbyte
        · exact ih hbyte
  induction size generalizing s with
  | zero => cases h
  | succ size ih =>
      rw [unpackBytes] at h
      split at h
      · rename_i he
        cases h
        exact hbyte he
      · split at h
        · rename_i he
          cases h
          exact ih he
        · cases h

/-- **What is accepted**: 12, 15, 18, 21 or 24 words. -/
theorem words_of_accepted {S : Sha256} {mnemonic entropy : Bytes}
    (h : mnemonicToEntropy S mnemonic = .ok entropy) :
    ∃ (ns : List ℕ) (m : ℕ), 4 ≤ m ∧ m ≤ 8 ∧ (tokens mnemonic).map indexOfWord = ns.map some ∧
      (tokens mnemonic).length = 3 * m := by
  unfold mnemonicToEntropy at h
  dsimp only at h
  by_cases hcount : (tokens mnemonic).length % 3 ≠ 0
  · rw [if_pos hcount] at h
    cases h
  · rw [if_neg hcount] at h
    cases hloop : unpackBytes (((tokens mnemonic).length * 11 + 7) / 8) ⟨tokens mnemonic, 0, 0⟩ with
    | error e =>
        rw [hloop] at h
        cases h
    | ok result =>
        obtain ⟨buf, s'⟩ := result
        obtain ⟨ns, hns⟩ := known_of_unpackBytes hloop (by omega)
        have hbuf := length_unpackBytes hloop
        rw [hloop] at h
        simp only [bind, Except.bind, pure, Except.pure] at h
        by_cases hsize : ValidSize (buf.take ((tokens mnemonic).length / 3 * 4)).length
        · rw [List.length_take, hbuf] at hsize
          obtain ⟨m, hlow, hhigh, hm⟩ := validSize_iff.mp hsize
          exact ⟨ns, m, hlow, hhigh, hns, by omega⟩
        · rw [if_pos hsize] at h
          cases h

/-- **Reading and writing** gives the string back. -/
theorem entropyToMnemonic_mnemonicToEntropy {S : Sha256} {mnemonic entropy : Bytes}
    (h : mnemonicToEntropy S mnemonic = .ok entropy) :
    entropyToMnemonic S entropy = .ok mnemonic := by
  obtain ⟨ns, m, hlow, hhigh, hst, hlength⟩ := words_of_accepted h
  have hcount : ns.length = 3 * m := by
    have hmap := congrArg List.length hst
    rw [List.length_map, List.length_map] at hmap
    omega
  have hbits := length_flatMap_bits 11 ns
  have hpadded : (ns.flatMap (bits 11) ++ List.replicate (8 - m) false).length =
      8 * (4 * m + 1) := by
    rw [List.length_append, hbits, hcount, List.length_replicate]
    omega
  rw [mnemonicToEntropy_eq S hlow hhigh hst hlength rfl] at h
  split at h
  · cases h
  · rename_i hchecksum
    have hentropy := Except.ok.inj h
    rw [not_not, hentropy] at hchecksum
    have hsize : ValidSize entropy.length := by
      rw [← hentropy, List.length_take, List.length_map, length_groups,
        Nat.min_eq_left (Nat.le_succ _)]
      exact validSize_iff.mpr ⟨m, hlow, hhigh, rfl⟩
    have hns : ∀ n ∈ ns, n < 2048 := by
      intro n hn
      have hmem : some n ∈ (tokens mnemonic).map indexOfWord := by
        rw [hst]
        exact List.mem_map_of_mem hn
      obtain ⟨word, _, hword⟩ := List.mem_map.mp hmem
      exact (of_indexOfWord hword).1
    have hwritten : bitsOf (entropy ++ (deriveChecksumBits S entropy).1) =
        ns.flatMap (bits 11) ++ List.replicate (8 - m) false := by
      rw [← hchecksum, ← hentropy, List.take_append_drop, bitsOf_groups hpadded.ge,
        ← hpadded, List.take_length]
    have hne : ns ≠ [] := by
      intro hnil
      rw [hnil, List.length_nil] at hcount
      omega
    have hrest : (List.replicate (8 - m) false).length < 11 := by
      rw [List.length_replicate]
      omega
    have htokens : tokens mnemonic ≠ [] := by
      intro hnil
      rw [hnil, List.length_nil] at hlength
      omega
    rw [entropyToMnemonic_eq hsize hns hne hrest hwritten, sentence_of_tokens hst htokens]

/-- Entropy of another size is refused. -/
theorem entropyToMnemonic_of_invalid {S : Sha256} {entropy : Bytes}
    (h : ¬ ValidSize entropy.length) : entropyToMnemonic S entropy = .error .invalidEntropy := by
  unfold entropyToMnemonic
  rw [if_pos h]
  rfl

/-- What a mnemonic is refused with. -/
theorem error_mnemonicToEntropy {S : Sha256} {mnemonic : Bytes} {e : Bip39Error}
    (h : mnemonicToEntropy S mnemonic = .error e) : e ≠ .outsideTable := by
  unfold mnemonicToEntropy at h
  dsimp only at h
  split at h
  · cases h
    exact Bip39Error.noConfusion
  · cases hloop : unpackBytes (((tokens mnemonic).length * 11 + 7) / 8) ⟨tokens mnemonic, 0, 0⟩ with
    | error e' =>
        rw [hloop] at h
        cases h
        rw [error_unpackBytes hloop]
        exact Bip39Error.noConfusion
    | ok result =>
        rw [hloop] at h
        simp only [bind, Except.bind, pure, Except.pure] at h
        split at h
        · cases h
          exact Bip39Error.noConfusion
        · split at h
          · cases h
            exact Bip39Error.noConfusion
          · cases h

/-- **The codec**: for every hash, both functions are inverse to each other, the reader accepts
what the writer writes and nothing else, and neither reads outside of the table. -/
theorem codec (S : Sha256) :
    (∀ entropy, ValidSize entropy.length → ∃ mnemonic,
      entropyToMnemonic S entropy = .ok mnemonic ∧
        mnemonicToEntropy S mnemonic = .ok entropy) ∧
    (∀ mnemonic entropy, mnemonicToEntropy S mnemonic = .ok entropy →
      entropyToMnemonic S entropy = .ok mnemonic) ∧
    (∀ mnemonic, (∃ entropy, mnemonicToEntropy S mnemonic = .ok entropy) ↔
      ∃ entropy, entropyToMnemonic S entropy = .ok mnemonic) ∧
    (∀ entropy, ¬ ValidSize entropy.length →
      entropyToMnemonic S entropy = .error .invalidEntropy) ∧
    ∀ mnemonic e, mnemonicToEntropy S mnemonic = .error e → e ≠ .outsideTable := by
  refine ⟨fun _ => mnemonicToEntropy_entropyToMnemonic S,
    fun _ _ => entropyToMnemonic_mnemonicToEntropy, ?_,
    fun _ => entropyToMnemonic_of_invalid, fun _ _ => error_mnemonicToEntropy⟩
  intro mnemonic
  constructor
  · intro h
    obtain ⟨entropy, h⟩ := h
    exact ⟨entropy, entropyToMnemonic_mnemonicToEntropy h⟩
  · intro h
    obtain ⟨entropy, h⟩ := h
    by_cases hsize : ValidSize entropy.length
    · obtain ⟨mnemonic', hwritten, hread⟩ := mnemonicToEntropy_entropyToMnemonic S hsize
      rw [h] at hwritten
      cases hwritten
      exact ⟨entropy, hread⟩
    · rw [entropyToMnemonic_of_invalid hsize] at h
      cases h

end Bip39

end PrivmxEndpoint
