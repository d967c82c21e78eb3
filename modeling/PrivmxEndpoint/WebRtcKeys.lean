import PrivmxEndpoint.WebRtcConnections

/-!
# Current keys for every track

A frame cryptor is made with the keys of its connection, and it gets into the map of the
connection under another lock; `updateKeys` reaches the frame cryptors of the maps only.  So
every track has the keys that were set last, if keys are not set while a track is on its way
to the map, no track is added under an identifier that is taken, and tracks are only added to
a connection that has been given keys (`current_keys`).

The frame cryptors of the receivers are in another map, which `UpdateCurrentKeys` walks over.
A receiver whose frame cryptor is on the way there keeps the old keys
(`current_keys_not_received`).
-/

namespace PrivmxEndpoint

open Runs

namespace Stream

/-- A map has one entry for a key. -/
theorem lookup_of_mem_of_nodup {κ α : Type} [BEq κ] [LawfulBEq κ] {entries : List (κ × α)}
    (h : (entries.map Prod.fst).Nodup) {entry : κ × α} (hmem : entry ∈ entries) :
    entries.lookup entry.1 = some entry.2 := by
  induction entries with
  | nil => cases hmem
  | cons first rest ih =>
      obtain ⟨hfirst, hrest⟩ := List.nodup_cons.mp h
      rcases List.mem_cons.mp hmem with rfl | hlater
      · rw [List.lookup_cons, beq_self_eq_true]
      · have hne : entry.1 ≠ first.1 := by
          intro heq
          exact hfirst (heq ▸ List.mem_map.mpr ⟨entry, hlater, rfl⟩)
        rw [List.lookup_cons, beq_eq_false_iff_ne.mpr hne]
        exact ih hrest hlater

/-- What is found under a key is one of the values. -/
theorem mem_of_lookup {κ α : Type} [BEq κ] [LawfulBEq κ] {entries : List (κ × α)} {k : κ} {a : α}
    (h : entries.lookup k = some a) : a ∈ entries.map Prod.snd := by
  obtain ⟨front, back, heq, -⟩ := List.lookup_eq_some_iff.mp h
  rw [heq]
  simp

namespace PeerConnection

variable {c : PeerConnection} {kind : TrackKind} {id track : Bytes} {n : ℕ} {keys : KeyStore}
  {inserting inserting' : ℕ → Prop} {applying applying' : Prop}

/-- A sender has a track if one of the two maps leads to it. -/
theorem hasTrack_iff : c.hasTrack n = true ↔ ∃ kind, n ∈ (c.tracks kind).map Prod.snd := by
  have hkinds : (∃ kind, n ∈ (c.tracks kind).map Prod.snd) ↔
      n ∈ (c.tracks .audio).map Prod.snd ∨ n ∈ (c.tracks .video).map Prod.snd :=
    ⟨fun ⟨kind, h⟩ => by cases kind; exacts [Or.inl h, Or.inr h],
      fun h => h.elim (fun h => ⟨.audio, h⟩) fun h => ⟨.video, h⟩⟩
  rw [hkinds, hasTrack, List.contains_iff_mem, List.map_append, List.mem_append]

/-- The frame cryptors of a connection have its keys, but for those that a thread is about to
insert or to apply the keys to. -/
structure Keyed (c : PeerConnection) (inserting : ℕ → Prop) (applying : Prop) : Prop where
  tracked : ∀ s ∈ c.senders, c.hasTrack s.number = true → s.keys = c.keys ∨ applying
  inserted : ∀ s ∈ c.senders, inserting s.number → s.keys = c.keys
  held : ∀ s ∈ c.senders, c.hasTrack s.number = true ∨ inserting s.number
  unique : ∀ kind, ((c.tracks kind).map Prod.fst).Nodup
  made : ∀ s ∈ c.senders, s.number < c.made
  madeTrack : ∀ n, c.hasTrack n = true → n < c.made
  madeInserting : ∀ n, inserting n → n < c.made
  keyed : c.senders ≠ [] → c.keys.isSome = true
  received : ∀ entry ∈ c.frameCryptors, entry.2 = c.currentKeys
  receiving : ∀ entry ∈ c.receiving, entry.2 = c.currentKeys
  observed : c.currentKeys = c.keys.getD []

/-- A new connection has no senders and no receivers. -/
theorem keyed_create (h : ∀ n, ¬ inserting n) : create.Keyed inserting applying where
  tracked _ hs := absurd hs List.not_mem_nil
  inserted _ hs := absurd hs List.not_mem_nil
  held _ hs := absurd hs List.not_mem_nil
  unique _ := List.nodup_nil
  made _ hs := absurd hs List.not_mem_nil
  madeTrack n hn := by simp [hasTrack, create] at hn
  madeInserting n hn := absurd hn (h n)
  keyed h := absurd rfl h
  received _ he := absurd he List.not_mem_nil
  receiving _ he := absurd he List.not_mem_nil
  observed := rfl

/-- The same senders are on the way, and keys are about to be applied at least where they
were. -/
theorem Keyed.mono (h : c.Keyed inserting applying) (hinserting : ∀ n, inserting' n ↔ inserting n)
    (happlying : applying → applying') : c.Keyed inserting' applying' where
  tracked s hs ht := (h.tracked s hs ht).imp_right happlying
  inserted s hs hn := h.inserted s hs ((hinserting _).mp hn)
  held s hs := (h.held s hs).imp_right (hinserting _).mpr
  unique := h.unique
  made := h.made
  madeTrack := h.madeTrack
  madeInserting n hn := h.madeInserting n ((hinserting n).mp hn)
  keyed := h.keyed
  received := h.received
  receiving := h.receiving
  observed := h.observed

/-- The new sender has the keys, and it is about to be inserted. -/
theorem Keyed.addSender (h : c.Keyed inserting applying) (hkeys : c.keys.isSome = true)
    (hinserting : ∀ n, inserting' n ↔ n = c.made ∨ inserting n) :
    c.addSender.Keyed inserting' applying where
  tracked s hs ht := by
    rcases List.mem_append.mp hs with hold | hnew
    · exact h.tracked s hold ht
    · obtain rfl := List.mem_singleton.mp hnew
      exact Or.inl rfl
  inserted s hs hn := by
    rcases List.mem_append.mp hs with hold | hnew
    · rcases (hinserting _).mp hn with heq | hn
      · exact absurd (h.made s hold) (by omega)
      · exact h.inserted s hold hn
    · obtain rfl := List.mem_singleton.mp hnew
      rfl
  held s hs := by
    rcases List.mem_append.mp hs with hold | hnew
    · exact (h.held s hold).imp_right fun hn => (hinserting _).mpr (Or.inr hn)
    · obtain rfl := List.mem_singleton.mp hnew
      exact Or.inr ((hinserting _).mpr (Or.inl rfl))
  unique := h.unique
  made s hs := by
    show s.number < c.made + 1
    rcases List.mem_append.mp hs with hold | hnew
    · exact Nat.lt_succ_of_lt (h.made s hold)
    · obtain rfl := List.mem_singleton.mp hnew
      exact Nat.lt_succ_self _
  madeTrack n hn := Nat.lt_succ_of_lt (h.madeTrack n hn)
  madeInserting n hn := by
    rcases (hinserting n).mp hn with rfl | hn
    · exact Nat.lt_succ_self _
    · exact Nat.lt_succ_of_lt (h.madeInserting n hn)
  keyed _ := hkeys
  received := h.received
  receiving := h.receiving
  observed := h.observed

/-- A track gets into its map if its place there is free. -/
theorem insertTrack_of_free (hfree : (c.tracks kind).lookup id = none) :
    c.insertTrack kind id n =
      { c with tracks := Function.update c.tracks kind ((id, n) :: c.tracks kind) } := by
  rw [insertTrack, if_neg (by simp [hfree])]

/-- A free id leads to the inserted sender and changes nothing for the others. -/
theorem hasTrack_insertTrack (hfree : (c.tracks kind).lookup id = none) {m : ℕ} :
    (c.insertTrack kind id n).hasTrack m = true ↔ m = n ∨ c.hasTrack m = true := by
  rw [hasTrack_iff, hasTrack_iff, insertTrack_of_free hfree]
  constructor
  · rintro ⟨kind', hm⟩
    dsimp only at hm
    by_cases hkind : kind' = kind
    · subst hkind
      rw [Function.update_self, List.map_cons, List.mem_cons] at hm
      exact hm.imp_right fun hm => ⟨kind', hm⟩
    · rw [Function.update_of_ne hkind] at hm
      exact Or.inr ⟨kind', hm⟩
  · rintro (rfl | ⟨kind', hm⟩)
    · exact ⟨kind, by simp⟩
    · refine ⟨kind', ?_⟩
      dsimp only
      by_cases hkind : kind' = kind
      · subst hkind
        rw [Function.update_self, List.map_cons]
        exact List.mem_cons_of_mem _ hm
      · rw [Function.update_of_ne hkind]
        exact hm

/-- A track whose place is free gets into its map. -/
theorem Keyed.insertTrack (h : c.Keyed inserting applying)
    (hfree : (c.tracks kind).lookup id = none) (hn : inserting n)
    (hinserting : ∀ m, inserting m → m = n ∨ inserting' m) (hkept : ∀ m, inserting' m → inserting m) :
    (c.insertTrack kind id n).Keyed inserting' applying := by
  have htrack := @hasTrack_insertTrack c kind id n hfree
  have hinsert := insertTrack_of_free (n := n) hfree
  have hnew : ∀ s ∈ c.senders, s.number = n → s.keys = c.keys :=
    fun s hs heq => h.inserted s hs (heq ▸ hn)
  refine ⟨?_, ?_, ?_, ?_, ?_, ?_, ?_, ?_, ?_, ?_, ?_⟩
  · intro s hs ht
    rw [hinsert] at hs ⊢
    rcases htrack.mp ht with heq | hold
    · exact Or.inl (hnew s hs heq)
    · exact h.tracked s hs hold
  · intro s hs hm
    rw [hinsert] at hs ⊢
    exact h.inserted s hs (hkept _ hm)
  · intro s hs
    rw [hinsert] at hs
    rcases h.held s hs with hold | hm
    · exact Or.inl (htrack.mpr (Or.inr hold))
    · exact (hinserting _ hm).imp_left fun heq => htrack.mpr (Or.inl heq)
  · intro kind'
    rw [hinsert]
    dsimp only
    by_cases hkind : kind' = kind
    · subst hkind
      rw [Function.update_self, List.map_cons]
      refine List.nodup_cons.mpr ⟨fun hmem => ?_, h.unique kind'⟩
      obtain ⟨entry, hentry, rfl⟩ := List.mem_map.mp hmem
      have hsome := List.lookup_eq_none_iff.mp hfree entry hentry
      simp at hsome
    · rw [Function.update_of_ne hkind]
      exact h.unique kind'
  · rw [hinsert]
    exact h.made
  · intro m hm
    rw [hinsert]
    rcases htrack.mp hm with rfl | hold
    · exact h.madeInserting m hn
    · exact h.madeTrack m hold
  · intro m hm
    rw [hinsert]
    exact h.madeInserting m (hkept m hm)
  · rw [hinsert]
    exact h.keyed
  · rw [hinsert]
    exact h.received
  · rw [hinsert]
    exact h.receiving
  · rw [hinsert]
    exact h.observed

/-- A sender with a track after a removal had one before. -/
theorem mem_of_removeTrack {m : ℕ} (h : (c.removeTrack kind id n).hasTrack m = true) :
    c.hasTrack m = true := by
  rw [hasTrack_iff] at h ⊢
  obtain ⟨kind', hm⟩ := h
  refine ⟨kind', ?_⟩
  rw [removeTrack] at hm
  dsimp only at hm
  by_cases hkind : kind' = kind
  · subst hkind
    rw [Function.update_self] at hm
    obtain ⟨entry, hentry, heq⟩ := List.mem_map.mp hm
    exact List.mem_map.mpr ⟨entry, List.mem_of_mem_filter hentry, heq⟩
  · rwa [Function.update_of_ne hkind] at hm

/-- Only the sender of the track leaves the maps. -/
theorem hasTrack_removeTrack (hunique : ((c.tracks kind).map Prod.fst).Nodup)
    (hfound : (c.tracks kind).lookup id = some n) {m : ℕ} (hne : m ≠ n)
    (h : c.hasTrack m = true) : (c.removeTrack kind id n).hasTrack m = true := by
  rw [hasTrack_iff] at h ⊢
  obtain ⟨kind', hm⟩ := h
  refine ⟨kind', ?_⟩
  rw [removeTrack]
  dsimp only
  by_cases hkind : kind' = kind
  · subst hkind
    rw [Function.update_self]
    obtain ⟨entry, hentry, rfl⟩ := List.mem_map.mp hm
    refine List.mem_map.mpr ⟨entry, List.mem_filter.mpr ⟨hentry, ?_⟩, rfl⟩
    have hother : entry.1 ≠ id := by
      rintro rfl
      have hlookup := lookup_of_mem_of_nodup hunique hentry
      rw [hfound] at hlookup
      exact hne (Option.some.inj hlookup).symm
    simpa using hother
  · rwa [Function.update_of_ne hkind]

/-- A track is removed together with its sender. -/
theorem Keyed.removeTrack (h : c.Keyed inserting applying)
    (hfound : (c.tracks kind).lookup id = some n) :
    (c.removeTrack kind id n).Keyed inserting applying where
  tracked s hs ht := h.tracked s (List.mem_of_mem_filter hs) (mem_of_removeTrack ht)
  inserted s hs hn := h.inserted s (List.mem_of_mem_filter hs) hn
  held s hs := by
    obtain ⟨hold, hne⟩ := List.mem_filter.mp hs
    refine (h.held s hold).imp_left fun ht => hasTrack_removeTrack (h.unique kind) hfound ?_ ht
    simpa using hne
  unique kind' := by
    rw [PeerConnection.removeTrack]
    dsimp only
    by_cases hkind : kind' = kind
    · subst hkind
      rw [Function.update_self]
      exact (h.unique kind').sublist (List.filter_sublist.map _)
    · rw [Function.update_of_ne hkind]
      exact h.unique kind'
  made s hs := h.made s (List.mem_of_mem_filter hs)
  madeTrack m hm := h.madeTrack m (mem_of_removeTrack hm)
  madeInserting := h.madeInserting
  keyed hs := h.keyed fun hnil => hs (by rw [PeerConnection.removeTrack, hnil]; rfl)
  received := h.received
  receiving := h.receiving
  observed := h.observed

/-- The keys are changed, and a thread is about to apply them. -/
theorem Keyed.setKeys (h : c.Keyed inserting applying) (hnone : ∀ n, ¬ inserting n)
    (hreceiving : c.receiving = []) (happlying : applying') :
    (c.setKeys keys).Keyed inserting applying' where
  tracked _ _ _ := Or.inr happlying
  inserted _ _ hn := absurd hn (hnone _)
  held s hs := h.held s hs
  unique := h.unique
  made := h.made
  madeTrack := h.madeTrack
  madeInserting := h.madeInserting
  keyed _ := rfl
  received entry he := by
    obtain ⟨entry', -, rfl⟩ := List.mem_map.mp he
    rfl
  receiving entry he := by
    change entry ∈ c.receiving at he
    rw [hreceiving] at he
    cases he
  observed := rfl

/-- The keys are applied, and nothing else has to be. -/
theorem Keyed.applyKeys (h : c.Keyed inserting applying) :
    c.applyKeys.Keyed inserting applying' := by
  have hsender : ∀ s ∈ c.applyKeys.senders, ∃ s' ∈ c.senders, s.number = s'.number ∧
      (c.hasTrack s.number = true → s.keys = c.keys) ∧ (s'.keys = c.keys → s.keys = c.keys) := by
    intro s hs
    obtain ⟨s', hs', rfl⟩ := List.mem_map.mp hs
    refine ⟨s', hs', ?_⟩
    split
    · exact ⟨rfl, fun _ => rfl, fun _ => rfl⟩
    · rename_i hnot
      exact ⟨rfl, fun ht => absurd ht hnot, id⟩
  refine ⟨?_, ?_, ?_, h.unique, ?_, h.madeTrack, h.madeInserting, ?_, h.received, h.receiving,
    h.observed⟩
  · intro s hs ht
    obtain ⟨s', -, -, hkeys, -⟩ := hsender s hs
    exact Or.inl (hkeys ht)
  · intro s hs hn
    obtain ⟨s', hs', heq, -, hkeys⟩ := hsender s hs
    exact hkeys (h.inserted s' hs' (heq ▸ hn))
  · intro s hs
    obtain ⟨s', hs', heq, -, -⟩ := hsender s hs
    rw [heq]
    exact h.held s' hs'
  · intro s hs
    obtain ⟨s', hs', heq, -, -⟩ := hsender s hs
    rw [heq]
    exact h.made s' hs'
  · intro hs
    exact h.keyed fun hnil => hs (by rw [PeerConnection.applyKeys, hnil]; rfl)

/-- A track that arrives gets a frame cryptor with the current keys. -/
theorem Keyed.onAddTrack (h : c.Keyed inserting applying) :
    (c.onAddTrack track).Keyed inserting applying where
  tracked := h.tracked
  inserted := h.inserted
  held := h.held
  unique := h.unique
  made := h.made
  madeTrack := h.madeTrack
  madeInserting := h.madeInserting
  keyed := h.keyed
  received := h.received
  receiving entry he := by
    rcases List.mem_cons.mp he with rfl | hold
    · rfl
    · exact h.receiving entry hold
  observed := h.observed

/-- The frame cryptor comes into the map with the keys that it was made with. -/
theorem Keyed.insertReceiver (h : c.Keyed inserting applying) {receiver : Bytes × KeyStore}
    (hreceiver : receiver ∈ c.receiving) :
    (c.insertReceiver receiver).Keyed inserting applying where
  tracked := h.tracked
  inserted := h.inserted
  held := h.held
  unique := h.unique
  made := h.made
  madeTrack := h.madeTrack
  madeInserting := h.madeInserting
  keyed := h.keyed
  received entry he := by
    rcases List.mem_cons.mp he with rfl | hold
    · exact h.receiving entry hreceiver
    · exact h.received entry (List.mem_of_mem_filter hold)
  receiving entry he := h.receiving entry (List.mem_of_mem_erase he)
  observed := h.observed

/-- A receiver that is dropped takes its frame cryptor along. -/
theorem Keyed.onRemoveTrack (h : c.Keyed inserting applying) :
    (c.onRemoveTrack track).Keyed inserting applying where
  tracked := h.tracked
  inserted := h.inserted
  held := h.held
  unique := h.unique
  made := h.made
  madeTrack := h.madeTrack
  madeInserting := h.madeInserting
  keyed := h.keyed
  received entry he := h.received entry (List.mem_of_mem_filter he)
  receiving := h.receiving
  observed := h.observed

/-- A closed connection has neither senders nor receivers. -/
theorem Keyed.close (h : c.Keyed inserting applying) : c.close.Keyed inserting applying where
  tracked _ hs := absurd hs List.not_mem_nil
  inserted _ hs := absurd hs List.not_mem_nil
  held _ hs := absurd hs List.not_mem_nil
  unique _ := List.nodup_nil
  made _ hs := absurd hs List.not_mem_nil
  madeTrack n hn := by simp [hasTrack, PeerConnection.close] at hn
  madeInserting := h.madeInserting
  keyed hs := absurd rfl hs
  received _ he := absurd he List.not_mem_nil
  receiving _ he := absurd he List.not_mem_nil
  observed := h.observed

end PeerConnection

namespace WebRtcRoom

variable {x x' y : WebRtcRoom} {c n i : ℕ} {t : ConnectionType} {last last' : Option KeyStore}
  {action a : WebRtcAction} {actions rest : List WebRtcAction} {next : Option (List WebRtcAction)}

/-- A thread has still to do it. -/
def Pending (x : WebRtcRoom) (a : WebRtcAction) : Prop :=
  ∃ actions ∈ x.threads, a ∈ actions

/-- A sender of the connection is about to get into its map. -/
def Inserting (x : WebRtcRoom) (c n : ℕ) : Prop :=
  ∃ kind id, x.Pending (.insertTrack c kind id n)

/-- The keys are about to be applied to the frame cryptors of the connection. -/
def Applying (x : WebRtcRoom) (c : ℕ) : Prop :=
  ∃ p s, x.Pending (.applyKeys p s) ∧ (c = p ∨ c = s)

end WebRtcRoom

/-- A step that may be given up by an exception. -/
def WebRtcAction.Plain : WebRtcAction → Prop
  | .addTrack _ _ _ => True
  | .removeTrack _ _ _ => True
  | _ => False

/-- Only plain steps come behind one that may throw, and keys that are set are applied. -/
structure Tidy (actions : List WebRtcAction) : Prop where
  plain : actions.Pairwise fun a b => (∃ c kind id, a = .removeTrack c kind id) → b.Plain
  applied : ∀ p s keys, .setKeys p s keys ∈ actions →
    actions = [.setKeys p s keys, .applyKeys p s]

/-- Steps that may be given up are tidy in any order. -/
theorem tidy_of_plain {actions : List WebRtcAction} (h : ∀ a ∈ actions, a.Plain) :
    Tidy actions where
  plain := List.pairwise_of_forall_mem_list fun _ _ b hb _ => h b hb
  applied _ _ _ hmem := (h _ hmem).elim

/-- The two actions of `updateKeys` are in order. -/
theorem tidy_updateKeys (p s : ℕ) (keys : KeyStore) :
    Tidy [.setKeys p s keys, .applyKeys p s] where
  plain := List.pairwise_pair.mpr fun ⟨_, _, _, h⟩ => nomatch h
  applied p' s' keys' hmem := by
    rcases List.mem_cons.mp hmem with heq | happly
    · cases heq
      rfl
    · cases List.mem_singleton.mp happly

/-- What is left of the actions of a thread is in order. -/
theorem Tidy.tail {a : WebRtcAction} {rest : List WebRtcAction} (h : Tidy (a :: rest)) :
    Tidy rest where
  plain := (List.pairwise_cons.mp h.plain).2
  applied p s keys hmem := by
    obtain ⟨-, rfl⟩ := List.cons.inj (h.applied p s keys (List.mem_cons_of_mem _ hmem))
    cases List.mem_singleton.mp hmem

/-- A step takes the place of one that sets no keys. -/
theorem Tidy.replace {a b : WebRtcAction} {rest : List WebRtcAction} (h : Tidy (a :: rest))
    (ha : ∀ p s keys, a ≠ .setKeys p s keys)
    (hremove : ∀ c kind id, b ≠ .removeTrack c kind id)
    (hset : ∀ p s keys, b ≠ .setKeys p s keys) : Tidy (b :: rest) where
  plain := List.pairwise_cons.mpr
    ⟨fun _ _ ⟨c, kind, id, heq⟩ => absurd heq (hremove c kind id), h.tail.plain⟩
  applied p s keys hmem := by
    rcases List.mem_cons.mp hmem with heq | hrest
    · exact absurd heq.symm (hset p s keys)
    · have hall := h.applied p s keys (List.mem_cons_of_mem _ hrest)
      exact absurd (List.cons.inj hall).1 (ha p s keys)

namespace WebRtcRoom

variable {x x' y : WebRtcRoom} {c n i : ℕ} {t : ConnectionType} {last last' : Option KeyStore}
  {action a : WebRtcAction} {actions rest : List WebRtcAction} {next : Option (List WebRtcAction)}

/-- The invariant: the frame cryptors have the keys of their connections, and the current
connections the last keys if they have any. -/
structure Keyed (x : WebRtcRoom) (last : Option KeyStore) : Prop where
  connection : ∀ c, (x.connections c).Keyed (x.Inserting c) (x.Applying c)
  unopened : ∀ c, x.opened ≤ c → (x.connections c).hasPc = false
  inserting : ∀ c n, x.Inserting c n → c < x.opened
  current : ∀ t c, x.connection t = some c → c < x.opened
  setting : ∀ p s keys, x.Pending (.setKeys p s keys) →
    x.publisher = some p ∧ x.subscriber = some s
  latest : ∀ t c keys, x.connection t = some c → (x.connections c).keys = some keys →
    last = some keys
  tidy : ∀ actions ∈ x.threads, Tidy actions

/-- A call that starts adds its own actions to those that are pending. -/
theorem pending_start : (x.start actions).Pending a ↔ x.Pending a ∨ a ∈ actions := by
  simp [Pending, start, or_and_right, exists_or]

/-- The slots of the connections are no matter of the threads. -/
theorem threads_setConnection (c : Option ℕ) : (x.setConnection t c).threads = x.threads := by
  cases t <;> rfl

/-- The slot has what was put there. -/
theorem connection_setConnection_self (c : Option ℕ) : (x.setConnection t c).connection t = c := by
  cases t <;> rfl

/-- The other slot has what it had. -/
theorem connection_setConnection_ne {t' : ConnectionType} (h : t' ≠ t) (c : Option ℕ) :
    (x.setConnection t c).connection t' = x.connection t' := by
  cases t <;> cases t' <;> first | rfl | exact absurd rfl h

/-- A connection that is opened is the current one of its type. -/
theorem connection_initializeConnection_self : (x.initializeConnection t).connection t = some x.opened := by
  cases t <;> rfl

/-- It does not replace the connection of the other type. -/
theorem connection_initializeConnection_ne {t' : ConnectionType} (h : t' ≠ t) :
    (x.initializeConnection t).connection t' = x.connection t' := by
  cases t <;> cases t' <;> first | rfl | exact absurd rfl h

/-- Opening a connection is no matter of the threads. -/
theorem pending_initializeConnection : (x.initializeConnection t).Pending a ↔ x.Pending a := by
  rw [Pending, Pending, initializeConnection]
  exact iff_of_eq (by rw [threads_setConnection])

/-- A new connection has no keys and no tracks. -/
theorem Keyed.initializeConnection (h : x.Keyed last) (hnone : x.connection t = none) :
    (x.initializeConnection t).Keyed last := by
  have hpending := @pending_initializeConnection x t
  have hinserting : ∀ c n, (x.initializeConnection t).Inserting c n ↔ x.Inserting c n := fun c n =>
    exists_congr fun kind => exists_congr fun id => hpending
  have happlying : ∀ c, (x.initializeConnection t).Applying c ↔ x.Applying c := fun c =>
    exists_congr fun p => exists_congr fun s => and_congr_left' hpending
  have hold : ∀ t' c, (x.initializeConnection t).connection t' = some c →
      c = x.opened ∨ x.connection t' = some c := by
    intro t' c hc
    by_cases ht : t' = t
    · subst ht
      rw [connection_initializeConnection_self] at hc
      exact Or.inl (Option.some.inj hc).symm
    · rw [connection_initializeConnection_ne ht] at hc
      exact Or.inr hc
  refine ⟨?_, ?_, ?_, ?_, ?_, ?_, ?_⟩
  · intro c
    show (Function.update x.connections x.opened .create c).Keyed _ _
    by_cases hc : c = x.opened
    · subst hc
      rw [Function.update_self]
      refine PeerConnection.keyed_create fun n hn => ?_
      exact absurd (h.inserting _ _ ((hinserting _ n).mp hn)) (Nat.lt_irrefl _)
    · rw [Function.update_of_ne hc]
      exact (h.connection c).mono (hinserting c) (happlying c).mpr
  · intro c hc
    have hne : c ≠ x.opened := fun heq => absurd hc (heq ▸ Nat.not_succ_le_self _)
    show (Function.update x.connections x.opened .create c).hasPc = false
    rw [Function.update_of_ne hne]
    exact h.unopened c (Nat.le_of_succ_le hc)
  · intro c n hn
    exact Nat.lt_succ_of_lt (h.inserting c n ((hinserting c n).mp hn))
  · intro t' c hc
    rcases hold t' c hc with rfl | hc
    · exact Nat.lt_succ_self _
    · exact Nat.lt_succ_of_lt (h.current t' c hc)
  · intro p s keys hset
    obtain ⟨hp, hs⟩ := h.setting p s keys (hpending.mp hset)
    cases t with
    | Publisher => exact absurd (hnone.symm.trans hp) (by simp)
    | Subscriber => exact absurd (hnone.symm.trans hs) (by simp)
  · intro t' c keys hc hkeys
    change (Function.update x.connections x.opened .create c).keys = some keys at hkeys
    by_cases hnew : c = x.opened
    · subst hnew
      rw [Function.update_self] at hkeys
      cases hkeys
    · rw [Function.update_of_ne hnew] at hkeys
      exact h.latest t' c keys ((hold t' c hc).resolve_left hnew) hkeys
  · intro actions hactions
    refine h.tidy actions ?_
    rwa [WebRtcRoom.initializeConnection, threads_setConnection] at hactions

/-- Looking for a connection, which opens one if there is none, keeps the invariant. -/
theorem Keyed.getConnectionWithSession (h : x.Keyed last) (t : ConnectionType) :
    (x.getConnectionWithSession t).2.Keyed last := by
  rw [WebRtcRoom.getConnectionWithSession]
  cases hcurrent : x.connection t with
  | some c => exact h
  | none => exact h.initializeConnection hcurrent

/-- The connection that is found is the current one, and the others stay. -/
theorem connection_getConnectionWithSession (x : WebRtcRoom) (t : ConnectionType) :
    (x.getConnectionWithSession t).2.connection t = some (x.getConnectionWithSession t).1 ∧
      ∀ t' c, x.connection t' = some c →
        (x.getConnectionWithSession t).2.connection t' = some c := by
  rw [WebRtcRoom.getConnectionWithSession]
  cases hcurrent : x.connection t with
  | some c => exact ⟨hcurrent, fun _ _ h => h⟩
  | none =>
      refine ⟨connection_initializeConnection_self, fun t' c hc => ?_⟩
      have hne : t' ≠ t := by
        rintro rfl
        rw [hcurrent] at hc
        cases hc
      exact (connection_initializeConnection_ne hne).trans hc

/-- A call that inserts no track begins. -/
theorem Keyed.start (h : x.Keyed last)
    (hinsert : ∀ c kind id n, .insertTrack c kind id n ∉ actions)
    (hset : ∀ p s keys, .setKeys p s keys ∈ actions → x.publisher = some p ∧ x.subscriber = some s)
    (htidy : Tidy actions) : (x.start actions).Keyed last := by
  have hinserting : ∀ c n, (x.start actions).Inserting c n ↔ x.Inserting c n := by
    intro c n
    refine exists_congr fun kind => exists_congr fun id => pending_start.trans ?_
    exact or_iff_left (hinsert c kind id n)
  refine ⟨?_, h.unopened, ?_, h.current, ?_, h.latest, ?_⟩
  · intro c
    refine (h.connection c).mono (hinserting c) ?_
    rintro ⟨p, s, hpending, hc⟩
    exact ⟨p, s, pending_start.mpr (Or.inl hpending), hc⟩
  · intro c n hn
    exact h.inserting c n ((hinserting c n).mp hn)
  · intro p s keys hpending
    rcases pending_start.mp hpending with hold | hnew
    · exact h.setting p s keys hold
    · exact hset p s keys hnew
  · intro actions' hmem
    rcases List.mem_append.mp hmem with hold | hnew
    · exact h.tidy actions' hold
    · rwa [List.mem_singleton.mp hnew]

/-- So does a call that only adds and removes tracks. -/
theorem Keyed.startPlain (h : x.Keyed last) (hplain : ∀ a ∈ actions, a.Plain) :
    (x.start actions).Keyed last :=
  h.start (fun _ _ _ _ hmem => hplain _ hmem) (fun _ _ _ hmem => (hplain _ hmem).elim)
    (tidy_of_plain hplain)

/-- Nothing is pending or current that was not, and every connection keeps its keys. -/
theorem Keyed.of_same (h : x.Keyed last) (hthreads : y.threads = x.threads)
    (hopened : y.opened = x.opened)
    (hconnection : ∀ c inserting applying, (x.connections c).Keyed inserting applying →
      (y.connections c).Keyed inserting applying)
    (hpc : ∀ c, (x.connections c).hasPc = false → (y.connections c).hasPc = false)
    (hkeys : ∀ c, (y.connections c).keys = (x.connections c).keys)
    (hcurrent : ∀ t c, y.connection t = some c → x.connection t = some c)
    (hset : ∀ p s keys, x.Pending (.setKeys p s keys) →
      y.publisher = x.publisher ∧ y.subscriber = x.subscriber) : y.Keyed last := by
  have hpending : ∀ a, y.Pending a ↔ x.Pending a := fun a => by rw [Pending, Pending, hthreads]
  have hinserting : ∀ c n, y.Inserting c n ↔ x.Inserting c n := fun c n =>
    exists_congr fun kind => exists_congr fun id => hpending _
  have happlying : ∀ c, y.Applying c ↔ x.Applying c := fun c =>
    exists_congr fun p => exists_congr fun s => and_congr_left' (hpending _)
  refine ⟨?_, ?_, ?_, ?_, ?_, ?_, hthreads ▸ h.tidy⟩
  · intro c
    exact (hconnection c _ _ (h.connection c)).mono (hinserting c) (happlying c).mpr
  · intro c hc
    exact hpc c (h.unopened c (hopened ▸ hc))
  · intro c n hn
    exact hopened ▸ h.inserting c n ((hinserting c n).mp hn)
  · intro t c hc
    exact hopened ▸ h.current t c (hcurrent t c hc)
  · intro p s keys hpend
    have hx := (hpending _).mp hpend
    obtain ⟨hp, hs⟩ := hset p s keys hx
    rw [hp, hs]
    exact h.setting p s keys hx
  · intro t c keys hc hk
    exact h.latest t c keys (hcurrent t c hc) ((hkeys c).symm.trans hk)

/-- What a function keeps of one connection, the update keeps of all. -/
theorem update_of_forall {f : PeerConnection → PeerConnection} {p : PeerConnection → PeerConnection → Prop}
    (hf : ∀ c, p c (f c)) (hrefl : ∀ c, p c c) (c₀ c : ℕ) :
    p (x.connections c) ((x.update c₀ f).connections c) := by
  show p (x.connections c) (Function.update x.connections c₀ (f (x.connections c₀)) c)
  by_cases hc : c = c₀
  · subst hc
    rw [Function.update_self]
    exact hf _
  · rw [Function.update_of_ne hc]
    exact hrefl _

/-- The connections that an update leaves alone. -/
theorem connections_update_ne {f : PeerConnection → PeerConnection} {c' : ℕ} (h : c' ≠ c) :
    (x.update c f).connections c' = x.connections c' :=
  Function.update_of_ne h _ _

/-- The connection that is updated. -/
theorem connections_update_self {f : PeerConnection → PeerConnection} :
    (x.update c f).connections c = f (x.connections c) :=
  Function.update_self _ _ _

/-- A connection is closed while no thread is about to set its keys. -/
theorem Keyed.closeConnection (h : x.Keyed last)
    (hset : ∀ p s keys, ¬ x.Pending (.setKeys p s keys)) : (x.closeConnection t).Keyed last := by
  rw [WebRtcRoom.closeConnection]
  cases hcurrent : x.connection t with
  | none => exact h
  | some closed =>
      have hconnections : ((x.update closed .close).setConnection t none).connections =
          (x.update closed .close).connections := by
        cases t <;> rfl
      refine h.of_same (threads_setConnection none) (by cases t <;> rfl) ?_ ?_ ?_ ?_ ?_
      · intro c inserting applying
        rw [hconnections]
        exact update_of_forall (p := fun c c' => c.Keyed inserting applying →
          c'.Keyed inserting applying) (fun _ h => h.close) (fun _ h => h) closed c
      · intro c
        rw [hconnections]
        exact update_of_forall (p := fun c c' => c.hasPc = false → c'.hasPc = false)
          (fun _ _ => rfl) (fun _ h => h) closed c
      · intro c
        rw [hconnections]
        exact update_of_forall (p := fun c c' => c'.keys = c.keys)
          (fun c => (rfl : c.close.keys = c.keys)) (fun _ => rfl) closed c
      · intro t' c hc
        by_cases ht : t' = t
        · subst ht
          rw [connection_setConnection_self] at hc
          cases hc
        · rw [connection_setConnection_ne ht] at hc
          exact hc
      · intro p s keys hpending
        exact absurd hpending (hset p s keys)

/-- Closing a connection takes no action from a thread. -/
theorem pending_closeConnection : (x.closeConnection t).Pending a ↔ x.Pending a := by
  rw [WebRtcRoom.closeConnection]
  cases x.connection t with
  | none => rfl
  | some closed =>
      rw [Pending, Pending, threads_setConnection]
      rfl

/-- A receiver comes or goes. -/
theorem Keyed.onReceiver (h : x.Keyed last) {c : ℕ} {f : PeerConnection → PeerConnection}
    (hf : ∀ inserting applying, (x.connections c).Keyed inserting applying →
      (f (x.connections c)).Keyed inserting applying)
    (hpc : ∀ c, (f c).hasPc = c.hasPc) (hkeys : ∀ c, (f c).keys = c.keys) :
    (x.update c f).Keyed last := by
  refine h.of_same rfl rfl ?_ ?_ ?_ (fun _ _ h => h) fun _ _ _ _ => ⟨rfl, rfl⟩
  · intro c' inserting applying hc'
    by_cases hc : c' = c
    · subst hc
      rw [connections_update_self]
      exact hf _ _ hc'
    · rwa [connections_update_ne hc]
  · intro c'
    exact update_of_forall (p := fun c c' => c.hasPc = false → c'.hasPc = false)
      (fun c h => (hpc c).trans h) (fun _ h => h) c c'
  · intro c'
    exact update_of_forall (p := fun c c' => c'.keys = c.keys) hkeys (fun _ => rfl) c c'

/-! ### Steps of threads -/

/-- What is pending behind a step was pending before it, or the step has put it there. -/
theorem pending_continueThread (hthreads : x'.threads = x.threads)
    (hthread : x.threads[i]? = some (action :: rest)) {a : WebRtcAction}
    (h : (x'.continueThread i rest next).Pending a) :
    x.Pending a ∨ ∃ first, next = some first ∧ a ∈ first := by
  have hrest : ∀ b ∈ rest, x.Pending b := fun b hb =>
    ⟨action :: rest, List.mem_of_getElem? hthread, List.mem_cons_of_mem _ hb⟩
  cases next with
  | none =>
      obtain ⟨actions, hactions, ha⟩ := h
      rcases List.mem_or_eq_of_mem_set hactions with hold | rfl
      · exact Or.inl ⟨actions, hthreads ▸ hold, ha⟩
      · cases ha
  | some first =>
      obtain ⟨actions, hactions, ha⟩ := h
      rcases List.mem_or_eq_of_mem_set hactions with hold | rfl
      · exact Or.inl ⟨actions, hthreads ▸ hold, ha⟩
      · rcases List.mem_append.mp ha with hfirst | hlater
        · exact Or.inr ⟨first, rfl, hfirst⟩
        · exact Or.inl (hrest a hlater)

/-- What was pending is so behind a step, but for the step itself and for plain steps that
an exception gives up. -/
theorem pending_of_pending (hthreads : x'.threads = x.threads)
    (hthread : x.threads[i]? = some (action :: rest)) (htidy : Tidy (action :: rest))
    (hthrown : next = none → ∃ c kind id, action = .removeTrack c kind id)
    (h : x.Pending a) (hne : a ≠ action) (hplain : ¬ a.Plain) :
    (x'.continueThread i rest next).Pending a := by
  obtain ⟨actions, hactions, ha⟩ := h
  obtain ⟨j, hj⟩ := List.mem_iff_getElem?.mp hactions
  by_cases hij : j = i
  · subst hij
    obtain rfl := Option.some.inj (hj.symm.trans hthread)
    have hlater : a ∈ rest := (List.mem_cons.mp ha).resolve_left hne
    have hlt : j < x'.threads.length := by
      rw [hthreads]
      exact (List.getElem?_eq_some_iff.mp hthread).1
    cases next with
    | none => exact absurd ((List.pairwise_cons.mp htidy.plain).1 a hlater (hthrown rfl)) hplain
    | some first =>
        exact ⟨first ++ rest, List.mem_set hlt _, List.mem_append_right _ hlater⟩
  · have hother : ∀ new, actions ∈ x'.threads.set i new := by
      intro new
      refine List.mem_of_getElem? (i := j) ?_
      rw [List.getElem?_set_ne (Ne.symm hij), hthreads]
      exact hj
    cases next with
    | none => exact ⟨actions, hother _, ha⟩
    | some first => exact ⟨actions, hother _, ha⟩

/-- A thread goes on: what the step has to make sure of. -/
theorem Keyed.continueThread (h : x.Keyed last) (hthreads : x'.threads = x.threads)
    (hopened : x'.opened = x.opened) (hcurrent : ∀ t, x'.connection t = x.connection t)
    (hpc : ∀ c, (x.connections c).hasPc = false → (x'.connections c).hasPc = false)
    (hthread : x.threads[i]? = some (action :: rest))
    (hconnection : ∀ c, (x'.connections c).Keyed ((x'.continueThread i rest next).Inserting c)
      ((x'.continueThread i rest next).Applying c))
    (hinsert : ∀ first c kind id n, next = some first → .insertTrack c kind id n ∈ first →
      c < x.opened)
    (hset : ∀ first p s keys, next = some first → .setKeys p s keys ∉ first)
    (hlatest : ∀ t c keys, x.connection t = some c → (x'.connections c).keys = some keys →
      last' = some keys)
    (htidy : ∀ first, next = some first → Tidy (first ++ rest)) :
    (x'.continueThread i rest next).Keyed last' := by
  have hpending : ∀ a, (x'.continueThread i rest next).Pending a →
      x.Pending a ∨ ∃ first, next = some first ∧ a ∈ first := fun _ =>
    pending_continueThread hthreads hthread
  have hstays : ∀ t, (x'.continueThread i rest next).connection t = x'.connection t := by
    intro t
    cases next <;> rfl
  have hconnections : (x'.continueThread i rest next).connections = x'.connections := by
    cases next <;> rfl
  have hstaysOpened : (x'.continueThread i rest next).opened = x.opened := by
    rw [← hopened]
    cases next <;> rfl
  refine ⟨?_, ?_, ?_, ?_, ?_, ?_, ?_⟩
  · intro c
    rw [hconnections]
    exact hconnection c
  · intro c hc
    rw [hconnections]
    exact hpc c (h.unopened c (hstaysOpened ▸ hc))
  · rintro c n ⟨kind, id, hn⟩
    rw [hstaysOpened]
    rcases hpending _ hn with hold | ⟨first, hfirst, hmem⟩
    · exact h.inserting c n ⟨kind, id, hold⟩
    · exact hinsert first c kind id n hfirst hmem
  · intro t c hc
    rw [hstaysOpened]
    exact h.current t c (by rw [← hcurrent, ← hstays, hc])
  · intro p s keys hn
    rcases hpending _ hn with hold | ⟨first, hfirst, hmem⟩
    · obtain ⟨hp, hs⟩ := h.setting p s keys hold
      exact ⟨(hstays .Publisher).trans ((hcurrent .Publisher).trans hp),
        (hstays .Subscriber).trans ((hcurrent .Subscriber).trans hs)⟩
    · exact absurd hmem (hset first p s keys hfirst)
  · intro t c keys hc hkeys
    rw [hconnections] at hkeys
    exact hlatest t c keys (by rw [← hcurrent, ← hstays, hc]) hkeys
  · intro actions hactions
    cases next with
    | none =>
        rcases List.mem_or_eq_of_mem_set hactions with hold | rfl
        · exact h.tidy actions (hthreads ▸ hold)
        · exact tidy_of_plain (by simp)
    | some first =>
        rcases List.mem_or_eq_of_mem_set hactions with hold | rfl
        · exact h.tidy actions (hthreads ▸ hold)
        · exact htidy first rfl

/-- A sender that is on the way stays on the way when another action is carried out. -/
theorem inserting_continueThread (hthreads : x'.threads = x.threads)
    (hthread : x.threads[i]? = some (action :: rest)) (h : x.Keyed last)
    (hthrown : next = none → ∃ c kind id, action = .removeTrack c kind id)
    (hne : ∀ kind id, action ≠ .insertTrack c kind id n) (hn : x.Inserting c n) :
    (x'.continueThread i rest next).Inserting c n := by
  obtain ⟨kind, id, hpending⟩ := hn
  have htidy := h.tidy _ (List.mem_of_getElem? hthread)
  exact ⟨kind, id, pending_of_pending hthreads hthread htidy hthrown hpending
    (Ne.symm (hne kind id)) not_false⟩

/-- Keys that are about to be applied stay so when another action is carried out. -/
theorem applying_continueThread (hthreads : x'.threads = x.threads)
    (hthread : x.threads[i]? = some (action :: rest)) (h : x.Keyed last)
    (hthrown : next = none → ∃ c kind id, action = .removeTrack c kind id)
    (hne : ∀ p s, c = p ∨ c = s → action ≠ .applyKeys p s) (hc : x.Applying c) :
    (x'.continueThread i rest next).Applying c := by
  obtain ⟨p, s, hpending, hon⟩ := hc
  have htidy := h.tidy _ (List.mem_of_getElem? hthread)
  exact ⟨p, s, pending_of_pending hthreads hthread htidy hthrown hpending
    (Ne.symm (hne p s hon)) not_false, hon⟩

/-- A sender is made, and its track is about to be inserted. -/
theorem Keyed.run_addTrack (h : x.Keyed last) {kind : TrackKind} {id : Bytes}
    (hthread : x.threads[i]? = some (.addTrack c kind id :: rest))
    (hpc : (x.connections c).hasPc = true) (hkeys : (x.connections c).keys.isSome = true) :
    ((x.update c .addSender).continueThread i rest
      (some [.insertTrack c kind id (x.connections c).made])).Keyed last := by
  have hopened : c < x.opened := by
    by_contra hnot
    rw [h.unopened c (not_lt.mp hnot)] at hpc
    cases hpc
  have hthreads : (x.update c .addSender).threads = x.threads := rfl
  have hthrown : (some [WebRtcAction.insertTrack c kind id (x.connections c).made]) = none →
      ∃ c' kind' id', WebRtcAction.addTrack c kind id = .removeTrack c' kind' id' := nofun
  have hkept := fun c' n => inserting_continueThread (c := c') (n := n) hthreads hthread h hthrown
    (fun _ _ => by simp)
  have happlying := fun c' => applying_continueThread (c := c') hthreads hthread h hthrown
    (fun _ _ _ => by simp)
  have hold : ∀ c' n, ((x.update c .addSender).continueThread i rest
      (some [.insertTrack c kind id (x.connections c).made])).Inserting c' n →
      x.Inserting c' n ∨ c' = c ∧ n = (x.connections c).made := by
    rintro c' n ⟨kind', id', hn⟩
    rcases pending_continueThread hthreads hthread hn with hx | ⟨first, hfirst, hmem⟩
    · exact Or.inl ⟨kind', id', hx⟩
    · obtain rfl := Option.some.inj hfirst
      cases List.mem_singleton.mp hmem
      exact Or.inr ⟨rfl, rfl⟩
  have hlength : i < x.threads.length := (List.getElem?_eq_some_iff.mp hthread).1
  refine h.continueThread hthreads rfl (fun t => by cases t <;> rfl) ?_ hthread ?_ ?_ ?_ ?_ ?_
  · intro c'
    exact update_of_forall (f := .addSender) (p := fun c c' => c.hasPc = false → c'.hasPc = false)
      (fun _ h => h) (fun _ h => h) c c'
  · intro c'
    by_cases hc : c' = c
    · subst hc
      rw [connections_update_self]
      refine ((h.connection c').mono (fun _ => Iff.rfl) (happlying c')).addSender hkeys fun n => ?_
      constructor
      · intro hn
        exact (hold c' n hn).symm.imp_left And.right
      · rintro (rfl | hn)
        · exact ⟨kind, id, _, List.mem_set hlength _, List.mem_cons_self⟩
        · exact hkept c' n hn
    · rw [connections_update_ne hc]
      refine (h.connection c').mono (fun n => ⟨fun hn => ?_, hkept c' n⟩) (happlying c')
      exact (hold c' n hn).resolve_right fun heq => hc heq.1
  · intro first c' kind' id' n hfirst hmem
    obtain rfl := Option.some.inj hfirst
    cases List.mem_singleton.mp hmem
    exact hopened
  · intro first p s keys hfirst hmem
    obtain rfl := Option.some.inj hfirst
    cases List.mem_singleton.mp hmem
  · intro t c' keys hc hk
    refine h.latest t c' keys hc ?_
    rw [← hk]
    exact update_of_forall (f := .addSender) (p := fun c c' => c.keys = c'.keys) (fun _ => rfl)
      (fun _ => rfl) c c'
  · intro first hfirst
    obtain rfl := Option.some.inj hfirst
    exact (h.tidy _ (List.mem_of_getElem? hthread)).replace nofun nofun nofun

/-- A step that puts nothing in front of the rest of its thread. -/
theorem Keyed.finish (h : x.Keyed last) (hthreads : x'.threads = x.threads)
    (hopened : x'.opened = x.opened) (hcurrent : ∀ t, x'.connection t = x.connection t)
    (hpc : ∀ c, (x.connections c).hasPc = false → (x'.connections c).hasPc = false)
    (hthread : x.threads[i]? = some (action :: rest))
    (hnext : next = some [] ∨ next = none)
    (hconnection : ∀ c, (∀ n, (x'.continueThread i rest next).Inserting c n → x.Inserting c n) →
      (x'.connections c).Keyed ((x'.continueThread i rest next).Inserting c)
        ((x'.continueThread i rest next).Applying c))
    (hlatest : ∀ t c keys, x.connection t = some c → (x'.connections c).keys = some keys →
      last' = some keys) : (x'.continueThread i rest next).Keyed last' := by
  have hnil : ∀ first, next = some first → first = [] := by
    rintro first rfl
    rcases hnext with heq | heq
    · exact Option.some.inj heq
    · cases heq
  refine h.continueThread hthreads hopened hcurrent hpc hthread (fun c => hconnection c ?_) ?_ ?_
    hlatest ?_
  · rintro n ⟨kind, id, hn⟩
    rcases pending_continueThread hthreads hthread hn with hx | ⟨first, hfirst, hmem⟩
    · exact ⟨kind, id, hx⟩
    · rw [hnil first hfirst] at hmem
      cases hmem
  · intro first c kind id n hfirst hmem
    rw [hnil first hfirst] at hmem
    cases hmem
  · intro first p s keys hfirst hmem
    rw [hnil first hfirst] at hmem
    cases hmem
  · intro first hfirst
    rw [hnil first hfirst]
    exact (h.tidy _ (List.mem_of_getElem? hthread)).tail

/-- A track gets into its map. -/
theorem Keyed.run_insertTrack (h : x.Keyed last) {kind : TrackKind} {id : Bytes}
    (hthread : x.threads[i]? = some (.insertTrack c kind id n :: rest))
    (hfree : ((x.connections c).tracks kind).lookup id = none) :
    ((x.update c (.insertTrack · kind id n)).continueThread i rest (some [])).Keyed last := by
  have hthreads : (x.update c (.insertTrack · kind id n)).threads = x.threads := rfl
  have hinsert : ∀ d : PeerConnection, (d.insertTrack kind id n).hasPc = d.hasPc ∧
      (d.insertTrack kind id n).keys = d.keys := by
    intro d
    rw [PeerConnection.insertTrack]
    split <;> exact ⟨rfl, rfl⟩
  have hn : x.Inserting c n :=
    ⟨kind, id, _, List.mem_of_getElem? hthread, List.mem_cons_self⟩
  refine h.finish hthreads rfl (fun t => by cases t <;> rfl) ?_ hthread (Or.inl rfl) ?_ ?_
  · intro c'
    exact update_of_forall (f := (.insertTrack · kind id n))
      (p := fun c c' => c.hasPc = false → c'.hasPc = false)
      (fun d hd => (hinsert d).1.trans hd) (fun _ h => h) c c'
  · intro c' hback
    have happlying : x.Applying c' →
        ((x.update c (.insertTrack · kind id n)).continueThread i rest (some [])).Applying c' :=
      applying_continueThread hthreads hthread h nofun (fun _ _ _ => by simp)
    have hconnection := (h.connection c').mono (fun _ => Iff.rfl) happlying
    by_cases hc : c' = c
    · subst hc
      rw [connections_update_self]
      refine hconnection.insertTrack hfree hn (fun m hm => ?_) hback
      by_cases hmn : m = n
      · exact Or.inl hmn
      · refine Or.inr (inserting_continueThread hthreads hthread h nofun (fun _ _ heq => ?_) hm)
        cases heq
        exact hmn rfl
    · rw [connections_update_ne hc]
      refine hconnection.mono (fun m => ⟨hback m, fun hm => ?_⟩) fun h => h
      refine inserting_continueThread hthreads hthread h nofun (fun _ _ heq => ?_) hm
      cases heq
      exact hc rfl
  · intro t c' keys hc hk
    refine h.latest t c' keys hc ?_
    rw [← hk]
    exact update_of_forall (f := (.insertTrack · kind id n)) (p := fun c c' => c.keys = c'.keys)
      (fun d => (hinsert d).2.symm) (fun _ => rfl) c c'

/-- A track is removed, or it is not found. -/
theorem Keyed.run_removeTrack (h : x.Keyed last) {kind : TrackKind} {id : Bytes}
    (hthread : x.threads[i]? = some (.removeTrack c kind id :: rest))
    (hexec : x.exec (.removeTrack c kind id) = some (x', next)) :
    (x'.continueThread i rest next).Keyed last := by
  have hthrown : next = none → ∃ c' kind' id',
      WebRtcAction.removeTrack c kind id = .removeTrack c' kind' id' := fun _ => ⟨c, kind, id, rfl⟩
  rw [exec] at hexec
  cases hlookup : ((x.connections c).tracks kind).lookup id with
  | none =>
      rw [hlookup] at hexec
      obtain ⟨rfl, rfl⟩ := Prod.mk.inj (Option.some.inj hexec)
      refine h.finish rfl rfl (fun _ => rfl) (fun _ h => h) hthread (Or.inr rfl) ?_ h.latest
      intro c' hback
      refine (h.connection c').mono (fun m => ⟨hback m, fun hm => ?_⟩) ?_
      · exact inserting_continueThread rfl hthread h hthrown (fun _ _ => by simp) hm
      · exact applying_continueThread rfl hthread h hthrown (fun _ _ _ => by simp)
  | some sender =>
      rw [hlookup] at hexec
      dsimp only at hexec
      split at hexec
      · obtain ⟨rfl, rfl⟩ := Prod.mk.inj (Option.some.inj hexec)
        refine h.finish rfl rfl (fun t => by cases t <;> rfl) ?_ hthread (Or.inl rfl) ?_ ?_
        · intro c'
          exact update_of_forall (f := (.removeTrack · kind id sender))
            (p := fun c c' => c.hasPc = false → c'.hasPc = false) (fun _ h => h) (fun _ h => h) c c'
        · intro c' hback
          have hconnection : (x.connections c').Keyed _ _ :=
            (h.connection c').mono
              (fun m => ⟨hback m, inserting_continueThread rfl hthread h hthrown
                (fun _ _ => by simp)⟩)
              (applying_continueThread rfl hthread h hthrown (fun _ _ _ => by simp))
          by_cases hc : c' = c
          · subst hc
            rw [connections_update_self]
            exact hconnection.removeTrack hlookup
          · rw [connections_update_ne hc]
            exact hconnection
        · intro t c' keys hc hk
          refine h.latest t c' keys hc ?_
          rw [← hk]
          exact update_of_forall (f := (.removeTrack · kind id sender))
            (p := fun c c' => c.keys = c'.keys) (fun _ => rfl) (fun _ => rfl) c c'
      · cases hexec

/-- The two parts of a change of keys, as one of the connections sees them. -/
theorem keyed_setKeys {p s : ℕ} {keys : KeyStore} {inserting : ℕ → Prop}
    (h : (x.connections c).Keyed inserting True) (hnone : ∀ n, ¬ inserting n)
    (hreceiving : (x.connections c).receiving = []) :
    (((x.update s (.setKeys · keys)).update p (.setKeys · keys)).connections c).Keyed
      inserting True := by
  have hkeep : ∀ d : PeerConnection, (d.Keyed inserting True ∧ d.receiving = []) →
      (d.setKeys keys).Keyed inserting True ∧ (d.setKeys keys).receiving = [] := fun _ hd =>
    ⟨hd.1.setKeys hnone hd.2 trivial, hd.2⟩
  have hfirst := update_of_forall (x := x) (f := (.setKeys · keys))
    (p := fun d d' => (d.Keyed inserting True ∧ d.receiving = []) →
      d'.Keyed inserting True ∧ d'.receiving = []) hkeep (fun _ h => h) s c ⟨h, hreceiving⟩
  have hboth := update_of_forall (x := x.update s (.setKeys · keys)) (f := (.setKeys · keys))
    (p := fun d d' => (d.Keyed inserting True ∧ d.receiving = []) →
      d'.Keyed inserting True ∧ d'.receiving = []) hkeep (fun _ h => h) p c hfirst
  exact hboth.1

/-- The keys of the current connections are changed, while no track and no receiver is about
to get into their maps. -/
theorem Keyed.run_setKeys (h : x.Keyed last) {p s : ℕ} {keys : KeyStore}
    (hthread : x.threads[i]? = some (.setKeys p s keys :: rest))
    (hnone : ∀ c n, x.Inserting c n → c ≠ p ∧ c ≠ s)
    (hreceiving : ∀ c, c = p ∨ c = s → (x.connections c).receiving = []) :
    (((x.update s (.setKeys · keys)).update p (.setKeys · keys)).continueThread i rest
      (some [])).Keyed (some keys) := by
  have hset := (h.tidy _ (List.mem_of_getElem? hthread)).applied p s keys List.mem_cons_self
  obtain ⟨-, rfl⟩ := List.cons.inj hset
  have hlength : i < x.threads.length := (List.getElem?_eq_some_iff.mp hthread).1
  have happly : (((x.update s (.setKeys · keys)).update p (.setKeys · keys)).continueThread i
      [.applyKeys p s] (some [])).Pending (.applyKeys p s) :=
    ⟨_, List.mem_set hlength _, List.mem_cons_self⟩
  obtain ⟨hp, hs⟩ := h.setting p s keys
    ⟨_, List.mem_of_getElem? hthread, List.mem_cons_self⟩
  have hkeys : ∀ c, c = p ∨ c = s →
      (((x.update s (.setKeys · keys)).update p (.setKeys · keys)).connections c).keys =
        some keys := by
    intro c hc
    by_cases hcp : c = p
    · subst hcp
      rw [connections_update_self]
      rfl
    · rw [connections_update_ne hcp, hc.resolve_left hcp, connections_update_self]
      rfl
  refine h.finish rfl rfl (fun t => by cases t <;> rfl) ?_ hthread (Or.inl rfl) ?_ ?_
  · intro c hc
    refine update_of_forall (x := x.update s (.setKeys · keys)) (f := (.setKeys · keys))
      (p := fun c c' => c.hasPc = false → c'.hasPc = false) (fun _ h => h) (fun _ h => h) p c ?_
    exact update_of_forall (f := (.setKeys · keys))
      (p := fun c c' => c.hasPc = false → c'.hasPc = false) (fun _ h => h) (fun _ h => h) s c hc
  · intro c hback
    by_cases hon : c = p ∨ c = s
    · have hno : ∀ n, ¬ x.Inserting c n := by
        intro n hn
        obtain ⟨hcp, hcs⟩ := hnone c n hn
        exact hon.elim hcp hcs
      have hnot := fun n hn => hno n (hback n hn)
      have hempty : (x.connections c).Keyed _ _ :=
        (h.connection c).mono (fun n => ⟨hback n, fun hn => absurd hn (hno n)⟩) fun _ => trivial
      exact (keyed_setKeys hempty hnot (hreceiving c hon)).mono (fun _ => Iff.rfl)
        fun _ => ⟨p, s, happly, hon⟩
    · obtain ⟨hcp, hcs⟩ := not_or.mp hon
      rw [connections_update_ne hcp, connections_update_ne hcs]
      exact (h.connection c).mono
        (fun n => ⟨hback n, inserting_continueThread rfl hthread h nofun (fun _ _ => by simp)⟩)
        (applying_continueThread rfl hthread h nofun (fun _ _ _ => by simp))
  · intro t c keys' hc hk
    have hon : c = p ∨ c = s := by
      cases t with
      | Publisher => exact Or.inl (Option.some.inj (hc.symm.trans hp))
      | Subscriber => exact Or.inr (Option.some.inj (hc.symm.trans hs))
    exact (hkeys c hon).symm.trans hk

/-- The frame cryptors of both connections get their keys. -/
theorem Keyed.run_applyKeys (h : x.Keyed last) {p s : ℕ}
    (hthread : x.threads[i]? = some (.applyKeys p s :: rest)) :
    (((x.update p .applyKeys).update s .applyKeys).continueThread i rest (some [])).Keyed last := by
  refine h.finish rfl rfl (fun t => by cases t <;> rfl) ?_ hthread (Or.inl rfl) ?_ ?_
  · intro c hc
    refine update_of_forall (x := x.update p .applyKeys) (f := .applyKeys)
      (p := fun c c' => c.hasPc = false → c'.hasPc = false) (fun _ h => h) (fun _ h => h) s c ?_
    exact update_of_forall (f := .applyKeys)
      (p := fun c c' => c.hasPc = false → c'.hasPc = false) (fun _ h => h) (fun _ h => h) p c hc
  · intro c hback
    have hinserting : ∀ n, x.Inserting c n →
        (((x.update p .applyKeys).update s .applyKeys).continueThread i rest
          (some [])).Inserting c n := fun n =>
      inserting_continueThread rfl hthread h nofun (fun _ _ => by simp)
    have hconnection := (h.connection c).mono (fun n => ⟨hback n, hinserting n⟩) fun h => h
    by_cases hcs : c = s
    · subst hcs
      rw [connections_update_self]
      refine @PeerConnection.Keyed.applyKeys _ _ (x.Applying c) _ ?_
      exact update_of_forall (f := .applyKeys)
        (p := fun c' c'' => c'.Keyed _ (x.Applying c) → c''.Keyed _ (x.Applying c))
        (fun d hd => hd.applyKeys) (fun _ h => h) p c hconnection
    · rw [connections_update_ne hcs]
      by_cases hcp : c = p
      · subst hcp
        rw [connections_update_self]
        exact hconnection.applyKeys
      · rw [connections_update_ne hcp]
        refine hconnection.mono (fun _ => Iff.rfl)
          (applying_continueThread rfl hthread h nofun fun p' s' hon heq => ?_)
        cases heq
        exact hon.elim hcp hcs
  · intro t c keys hc hk
    refine h.latest t c keys hc ?_
    rw [← hk]
    refine (update_of_forall (f := .applyKeys) (p := fun c c' => c.keys = c'.keys) (fun _ => rfl)
      (fun _ => rfl) p c).trans ?_
    exact update_of_forall (x := x.update p .applyKeys) (f := .applyKeys)
      (p := fun c c' => c.keys = c'.keys) (fun _ => rfl) (fun _ => rfl) s c

/-! ### Runs -/

/-- What a step has to take care of: a track is added to a connection that has keys, and its
place in the map is free; keys are not set while a track or a receiver is on the way to its
map; and no connection is closed while its keys are about to be set. -/
def Careful (x : WebRtcRoom) : WebRtcEvent → Prop
  | .run _ (.addTrack c _ _) => (x.connections c).keys.isSome = true
  | .run _ (.insertTrack c kind id _) => ((x.connections c).tracks kind).lookup id = none
  | .run _ (.setKeys p s _) =>
      (∀ c n, x.Inserting c n → c ≠ p ∧ c ≠ s) ∧
        ∀ c, c = p ∨ c = s → (x.connections c).receiving = []
  | .call (.closeSingleConnection _) => ∀ p s keys, ¬ x.Pending (.setKeys p s keys)
  | .call .close => ∀ p s keys, ¬ x.Pending (.setKeys p s keys)
  | _ => True

/-- The keys that were set last. -/
def lastKeys (last : Option KeyStore) : WebRtcEvent → Option KeyStore
  | .run _ (.setKeys _ _ keys) => some keys
  | _ => last

/-- **Calls** keep the invariant. -/
theorem Keyed.call (h : x.Keyed last) {call : WebRtcCall} (hcareful : x.Careful (.call call)) :
    (x.call call).Keyed last := by
  cases call with
  | createPeerConnectionWithLocalStream audioTracks videoTracks =>
      refine (h.getConnectionWithSession .Publisher).startPlain ?_
      simp [or_imp, forall_and, WebRtcAction.Plain]
  | updatePeerConnectionWithLocalStream audioTracksToAdd videoTracksToAdd audioTracksToRemove
      videoTracksToRemove =>
      refine (h.getConnectionWithSession .Publisher).startPlain ?_
      simp [or_imp, forall_and, WebRtcAction.Plain]
  | updateKeys keys =>
      obtain ⟨hp, -⟩ := x.connection_getConnectionWithSession .Publisher
      obtain ⟨hs, hkept⟩ :=
        (x.getConnectionWithSession .Publisher).2.connection_getConnectionWithSession .Subscriber
      refine ((h.getConnectionWithSession .Publisher).getConnectionWithSession .Subscriber).start
        ?_ ?_ (tidy_updateKeys _ _ keys)
      · simp
      · intro p s keys' hmem
        rcases List.mem_cons.mp hmem with heq | happly
        · cases heq
          exact ⟨hkept .Publisher _ hp, hs⟩
        · cases List.mem_singleton.mp happly
  | closeSingleConnection connectionType => exact h.closeConnection hcareful
  | close =>
      refine (h.closeConnection hcareful).closeConnection fun p s keys hpending => ?_
      exact hcareful p s keys (pending_closeConnection.mp hpending)
  | getConnectionWithSession connectionType => exact h.getConnectionWithSession connectionType

/-- **Step.** The keys that were set last are carried along. -/
theorem Keyed.step (h : x.Keyed last) {e : WebRtcEvent} (hcareful : x.Careful e)
    (hstep : x.Step e y) : y.Keyed (lastKeys last e) := by
  cases e with
  | call call =>
      obtain rfl := hstep
      exact h.call hcareful
  | run thread action =>
      obtain ⟨rest, x', next, hthread, hexec, rfl⟩ := hstep
      cases action with
      | addTrack c kind id =>
          rw [exec] at hexec
          split at hexec
          · rename_i hpc
            obtain ⟨rfl, rfl⟩ := Prod.mk.inj (Option.some.inj hexec)
            exact h.run_addTrack hthread hpc hcareful
          · cases hexec
      | insertTrack c kind id n =>
          obtain ⟨rfl, rfl⟩ := Prod.mk.inj (Option.some.inj hexec)
          exact h.run_insertTrack hthread hcareful
      | removeTrack c kind id => exact h.run_removeTrack hthread hexec
      | setKeys p s keys =>
          obtain ⟨rfl, rfl⟩ := Prod.mk.inj (Option.some.inj hexec)
          exact h.run_setKeys hthread hcareful.1 hcareful.2
      | applyKeys p s =>
          obtain ⟨rfl, rfl⟩ := Prod.mk.inj (Option.some.inj hexec)
          exact h.run_applyKeys hthread
  | onAddTrack c track =>
      obtain ⟨-, rfl⟩ := hstep
      exact h.onReceiver (fun _ _ h => h.onAddTrack) (fun _ => rfl) fun _ => rfl
  | insertReceiver c receiver =>
      obtain ⟨hreceiver, rfl⟩ := hstep
      exact h.onReceiver (fun _ _ h => h.insertReceiver hreceiver) (fun _ => rfl) fun _ => rfl
  | onRemoveTrack c track =>
      obtain ⟨-, rfl⟩ := hstep
      exact h.onReceiver (fun _ _ h => h.onRemoveTrack) (fun _ => rfl) fun _ => rfl

def sampleKey (n : UInt8) : Key where
  keyId := [n]
  key := [n, n]
  type := .LOCAL

/-- The keys of a new room are set. -/
def sampleJoin (keys : KeyStore) : List WebRtcEvent :=
  [.call (.updateKeys keys), .run 0 (.setKeys 0 1 keys), .run 0 (.applyKeys 0 1)]

/-- No thread has anything to do. -/
theorem not_pending (h : x.threads.all List.isEmpty = true) : ¬ x.Pending a := by
  rintro ⟨actions, hactions, hmem⟩
  have hnil := List.isEmpty_iff.mp (List.all_eq_true.mp h actions hactions)
  rw [hnil] at hmem
  cases hmem

/-- A track that is received while the keys change: its frame cryptor is made with the old
keys, and gets into the map behind the walk over it. -/
def sampleReceive : List WebRtcEvent :=
  [.onAddTrack 1 [98], .call (.updateKeys [sampleKey 2]), .run 1 (.setKeys 0 1 [sampleKey 2]),
    .run 1 (.applyKeys 0 1), .insertReceiver 1 ([98], [sampleKey 1])]

/-- Keys that are set while a received track is on the way to its map do not reach it. -/
theorem current_keys_not_received :
    ∃ x, Run Step initial (sampleJoin [sampleKey 1] ++ sampleReceive) x ∧
      x.connection .Subscriber = some 1 ∧ x.threads.all List.isEmpty = true ∧
        (x.connections 1).frameCryptors = [([98], [sampleKey 1])] ∧
          (x.connections 1).keys = some [sampleKey 2] :=
  ⟨_, .cons rfl <| .cons ⟨_, _, _, rfl, rfl, rfl⟩ <| .cons ⟨_, _, _, rfl, rfl, rfl⟩ <|
    .cons ⟨rfl, rfl⟩ <| .cons rfl <| .cons ⟨_, _, _, rfl, rfl, rfl⟩ <|
    .cons ⟨_, _, _, rfl, rfl, rfl⟩ <| .cons ⟨List.mem_cons_self, rfl⟩ <| .nil _,
    rfl, rfl, rfl, rfl⟩

/-- A track that is published again: `unpublishStream` has closed the connection, and the new
one has no keys before they change the next time. -/
def sampleRepublish : List WebRtcEvent :=
  [.call (.closeSingleConnection .Publisher),
    .call (.createPeerConnectionWithLocalStream [[97]] []), .run 1 (.addTrack 2 .audio [97]),
    .run 1 (.insertTrack 2 .audio [97] 0)]

/-- A track that is published again on a new connection is sent without keys. -/
theorem current_keys_not_republished :
    ∃ x, Run Step initial (sampleJoin [sampleKey 1] ++ sampleRepublish) x ∧
      x.connection .Publisher = some 2 ∧ x.threads.all List.isEmpty = true ∧
        (x.connections 2).senders = [⟨0, none⟩] ∧
          (sampleJoin [sampleKey 1] ++ sampleRepublish).foldl lastKeys none = some [sampleKey 1] :=
  ⟨_, .cons rfl <| .cons ⟨_, _, _, rfl, rfl, rfl⟩ <| .cons ⟨_, _, _, rfl, rfl, rfl⟩ <|
    .cons rfl <| .cons rfl <| .cons ⟨_, _, _, rfl, rfl, rfl⟩ <|
    .cons ⟨_, _, _, rfl, rfl, rfl⟩ <| .nil _, rfl, rfl, rfl, rfl⟩

end WebRtcRoom

end Stream

end PrivmxEndpoint
