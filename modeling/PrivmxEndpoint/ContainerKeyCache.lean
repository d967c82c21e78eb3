import PrivmxEndpoint.KeyProvider

/-!
# The cache of container keys

`ContainerKeyCache` keeps the keys of modules as the server last sent them.
Several threads feed it, from notifications, listings and single requests, and
`getModuleKeys` asks the server when the cache has nothing suitable; between
that request and the storing of its answer other threads go on.

An entry is replaced only by one that is not older, and what is returned is an
entry that was stored since the module was last cleared.  A minimum for the
schema version is checked only together with key ids
(`ModuleBaseApi.module_key_cache`).
-/

namespace PrivmxEndpoint

open Runs

/-- `ContainerKeyCache::CachedModuleKeys`. -/
structure CachedModuleKeys where
  keys : List KeyEntry
  currentKeyId : Bytes
  moduleSchemaVersion : ℤ
  moduleResourceId : Bytes
  contextId : Bytes
  moduleVersion : ℤ

/-- `ContainerKeyCache`. -/
structure ContainerKeyCache where
  storage : AList (fun _ : Bytes => CachedModuleKeys)

namespace ContainerKeyCache

/-- `value < optional` for integers. -/
def ltOptional (value : ℤ) : Option ℤ → Bool
  | none => false
  | some bound => value < bound

/-- The loop of `getKeys`: the key ids that are still looked for. -/
def missingKeyIds (keys : List KeyEntry) (keyIds : Finset Bytes) : Finset Bytes :=
  keys.foldl (fun (keyIds : Finset Bytes) (key : KeyEntry) =>
    if key.keyId ∈ keyIds then keyIds.erase key.keyId else keyIds) keyIds

/-- `getKeys`. -/
def getKeys (c : ContainerKeyCache) (moduleId : Bytes) (requiredKeyIds : Option (Finset Bytes))
    (minimumRequiredModuleSchemaVersion : Option ℤ) : Option CachedModuleKeys :=
  match c.storage.lookup moduleId with
  | none => none
  | some moduleKeys =>
      let missing := match requiredKeyIds with
        | none => ∅
        | some keyIds => missingKeyIds moduleKeys.keys keyIds
      if missing ≠ ∅ then
        none
      else if requiredKeyIds.isSome = true ∧
          ltOptional moduleKeys.moduleSchemaVersion minimumRequiredModuleSchemaVersion = true then
        none
      else
        some moduleKeys

/-- `set`. -/
def set (c : ContainerKeyCache) (moduleId : Bytes) (newKeys : CachedModuleKeys) (force : Bool) :
    ContainerKeyCache :=
  match c.storage.lookup moduleId with
  | none => { storage := c.storage.insert moduleId newKeys }
  | some moduleKeys =>
      if moduleKeys.moduleVersion > newKeys.moduleVersion ∧ force = false then
        c
      else
        { storage := c.storage.insert moduleId newKeys }

/-- `clear`. -/
def clear (c : ContainerKeyCache) (moduleId : Option Bytes) : ContainerKeyCache :=
  match moduleId with
  | none => { storage := ∅ }
  | some moduleId => { storage := c.storage.erase moduleId }

theorem lookup_set_ne (c : ContainerKeyCache) {moduleId other : Bytes} (hother : other ≠ moduleId)
    (newKeys : CachedModuleKeys) (force : Bool) :
    (c.set moduleId newKeys force).storage.lookup other = c.storage.lookup other := by
  unfold set
  split
  · exact AList.lookup_insert_ne hother
  · split
    · rfl
    · exact AList.lookup_insert_ne hother

/-- After `set` the new entry is there, or still the old one if that is newer. -/
theorem lookup_set_self (c : ContainerKeyCache) (moduleId : Bytes) (newKeys : CachedModuleKeys) :
    (c.set moduleId newKeys false).storage.lookup moduleId = some newKeys ∨
      (c.set moduleId newKeys false).storage.lookup moduleId = c.storage.lookup moduleId := by
  unfold set
  split
  · exact Or.inl (AList.lookup_insert _)
  · split
    · exact Or.inr rfl
    · exact Or.inl (AList.lookup_insert _)

/-- What `set` leaves for a module depends on what was there for it alone. -/
theorem lookup_set_congr {c c' : ContainerKeyCache} {moduleId : Bytes}
    (h : c'.storage.lookup moduleId = c.storage.lookup moduleId) (newKeys : CachedModuleKeys)
    (force : Bool) :
    (c'.set moduleId newKeys force).storage.lookup moduleId =
      (c.set moduleId newKeys force).storage.lookup moduleId := by
  unfold set
  rw [h]
  cases hlookup : c.storage.lookup moduleId with
  | none =>
      dsimp only
      rw [AList.lookup_insert, AList.lookup_insert]
  | some moduleKeys =>
      dsimp only
      split
      · exact h
      · dsimp only
        rw [AList.lookup_insert, AList.lookup_insert]

/-- The stored version does not decrease. -/
theorem version_le_of_set {c : ContainerKeyCache} {moduleId other : Bytes}
    {newKeys moduleKeys : CachedModuleKeys} (h : c.storage.lookup other = some moduleKeys) :
    ∃ k, (c.set moduleId newKeys false).storage.lookup other = some k ∧
      moduleKeys.moduleVersion ≤ k.moduleVersion := by
  by_cases hother : other = moduleId
  · subst hother
    unfold set
    rw [h]
    dsimp only
    split
    · exact ⟨moduleKeys, h, le_refl _⟩
    · rename_i hold
      refine ⟨newKeys, AList.lookup_insert _, ?_⟩
      by_contra hlt
      exact hold ⟨not_le.mp hlt, rfl⟩
  · exact ⟨moduleKeys, (c.lookup_set_ne hother newKeys false).trans h, le_refl _⟩

/-- What is left after the keys of an entry were looked for. -/
theorem mem_missingKeyIds (keys : List KeyEntry) (keyIds : Finset Bytes) (keyId : Bytes) :
    keyId ∈ missingKeyIds keys keyIds ↔ keyId ∈ keyIds ∧ ∀ key ∈ keys, key.keyId ≠ keyId := by
  induction keys generalizing keyIds with
  | nil => simp [missingKeyIds]
  | cons key keys ih =>
      have hcons : missingKeyIds (key :: keys) keyIds = missingKeyIds keys
          (if key.keyId ∈ keyIds then keyIds.erase key.keyId else keyIds) := rfl
      rw [hcons, ih, List.forall_mem_cons, ← and_assoc]
      refine and_congr_left fun _ => ?_
      split
      · rw [Finset.mem_erase, and_comm, ne_comm]
      · rename_i hnot
        constructor
        · intro hmem
          refine ⟨hmem, ?_⟩
          intro heq
          exact hnot (heq ▸ hmem)
        · exact And.left

/-- What `getKeys` returns. -/
theorem getKeys_eq_some_iff {c : ContainerKeyCache} {moduleId : Bytes}
    {requiredKeyIds : Option (Finset Bytes)} {minimum : Option ℤ} {k : CachedModuleKeys} :
    c.getKeys moduleId requiredKeyIds minimum = some k ↔
      c.storage.lookup moduleId = some k ∧
        ∀ keyIds, requiredKeyIds = some keyIds →
          (∀ keyId ∈ keyIds, ∃ key ∈ k.keys, key.keyId = keyId) ∧
            ∀ n, minimum = some n → n ≤ k.moduleSchemaVersion := by
  unfold getKeys
  cases hlookup : c.storage.lookup moduleId with
  | none => simp
  | some moduleKeys =>
      cases requiredKeyIds with
      | none => simp
      | some keyIds =>
          have hmissing : missingKeyIds moduleKeys.keys keyIds = ∅ ↔
              ∀ keyId ∈ keyIds, ∃ key ∈ moduleKeys.keys, key.keyId = keyId := by
            rw [Finset.eq_empty_iff_forall_notMem]
            refine forall_congr' fun keyId => ?_
            rw [mem_missingKeyIds, not_and]
            refine imp_congr_right fun _ => ?_
            simp
          have hversion : ¬ ltOptional moduleKeys.moduleSchemaVersion minimum = true ↔
              ∀ n, minimum = some n → n ≤ moduleKeys.moduleSchemaVersion := by
            cases minimum with
            | none => simp [ltOptional]
            | some n => simp [ltOptional]
          dsimp only
          constructor
          · intro h
            split at h
            · cases h
            · rename_i hfound
              split at h
              · cases h
              · rename_i hnew
                obtain rfl := Option.some.inj h
                refine ⟨rfl, fun keyIds' heq => ?_⟩
                obtain rfl := Option.some.inj heq
                exact ⟨hmissing.mp (not_not.mp hfound), hversion.mp fun hlt => hnew ⟨rfl, hlt⟩⟩
          · intro h
            obtain ⟨heq, hall⟩ := h
            obtain rfl := Option.some.inj heq
            obtain ⟨hfound, hnew⟩ := hall keyIds rfl
            rw [if_neg (not_not.mpr (hmissing.mpr hfound)),
              if_neg fun hold => hversion.mpr hnew hold.2]

end ContainerKeyCache

/-! ### The threads -/

namespace ModuleBaseApi

/-- `core::ModuleKeys`. -/
structure ModuleKeys where
  keys : List KeyEntry
  currentKeyId : Bytes
  moduleSchemaVersion : ℤ
  moduleResourceId : Bytes
  contextId : Bytes

/-- `convertModuleKeysToContainerKeyCacheFormat`. -/
def convertModuleKeysToContainerKeyCacheFormat (moduleKeys : ModuleKeys) (moduleVersion : ℤ) :
    CachedModuleKeys where
  keys := moduleKeys.keys
  currentKeyId := moduleKeys.currentKeyId
  moduleSchemaVersion := moduleKeys.moduleSchemaVersion
  moduleResourceId := moduleKeys.moduleResourceId
  contextId := moduleKeys.contextId
  moduleVersion := moduleVersion

/-- Where a thread is in `getNewModuleKeysAndUpdateCache`. -/
inductive ThreadState
  | idle
  /-- In `getModuleKeysAndVersionFromServer`. -/
  | requesting (moduleId : Bytes)
  /-- Before `set`. -/
  | storing (moduleId : Bytes) (keys : ModuleKeys) (moduleVersion : ℤ)

/-- The cache and the threads that use it. -/
structure State where
  keyCache : ContainerKeyCache
  threads : ℕ → ThreadState

/-- An empty cache, and no thread that uses it. -/
def State.start : State where
  keyCache := { storage := ∅ }
  threads _ := .idle

/-- The critical sections of the cache, and the answers of the server. -/
inductive CacheEvent
  | set (moduleId : Bytes) (newKeys : CachedModuleKeys)
  | clear (moduleId : Option Bytes)
  | getKeys (moduleId : Bytes) (requiredKeyIds : Option (Finset Bytes)) (minimum : Option ℤ)
      (result : Option CachedModuleKeys)
  | request (moduleId : Bytes)
  | answer (answer : Option (ModuleKeys × ℤ))

/-- One step of one thread. -/
inductive Step : State → ℕ × CacheEvent → State → Prop
  /-- `setNewModuleKeysInCache`. -/
  | set {s : State} {t : ℕ} (ht : s.threads t = .idle) (moduleId : Bytes)
      (newKeys : ModuleKeys) (moduleVersion : ℤ) :
      Step s
        (t, .set moduleId (convertModuleKeysToContainerKeyCacheFormat newKeys moduleVersion))
        { s with
          keyCache := s.keyCache.set moduleId
            (convertModuleKeysToContainerKeyCacheFormat newKeys moduleVersion) false }
  /-- `invalidateModuleKeysInCache`. -/
  | clear {s : State} {t : ℕ} (ht : s.threads t = .idle) (moduleId : Option Bytes) :
      Step s (t, .clear moduleId) { s with keyCache := s.keyCache.clear moduleId }
  /-- `getKeys` alone, or `getModuleKeys` with an entry in the cache. -/
  | get {s : State} {t : ℕ} (ht : s.threads t = .idle) (moduleId : Bytes)
      (requiredKeyIds : Option (Finset Bytes)) (minimum : Option ℤ) :
      Step s (t, .getKeys moduleId requiredKeyIds minimum
        (s.keyCache.getKeys moduleId requiredKeyIds minimum)) s
  /-- `getModuleKeys` without one. -/
  | miss {s : State} {t : ℕ} (ht : s.threads t = .idle) {moduleId : Bytes}
      {requiredKeyIds : Option (Finset Bytes)} {minimum : Option ℤ}
      (hnone : s.keyCache.getKeys moduleId requiredKeyIds minimum = none) :
      Step s (t, .getKeys moduleId requiredKeyIds minimum none)
        { s with threads := Function.update s.threads t (.requesting moduleId) }
  /-- `getNewModuleKeysAndUpdateCache`. -/
  | request {s : State} {t : ℕ} (ht : s.threads t = .idle) (moduleId : Bytes) :
      Step s (t, .request moduleId)
        { s with threads := Function.update s.threads t (.requesting moduleId) }
  | answer {s : State} {t : ℕ} {moduleId : Bytes} (ht : s.threads t = .requesting moduleId)
      (keys : ModuleKeys) (moduleVersion : ℤ) :
      Step s (t, .answer (some (keys, moduleVersion)))
        { s with threads := Function.update s.threads t (.storing moduleId keys moduleVersion) }
  | failed {s : State} {t : ℕ} {moduleId : Bytes} (ht : s.threads t = .requesting moduleId) :
      Step s (t, .answer none) { s with threads := Function.update s.threads t .idle }
  | store {s : State} {t : ℕ} {moduleId : Bytes} {keys : ModuleKeys} {moduleVersion : ℤ}
      (ht : s.threads t = .storing moduleId keys moduleVersion) :
      Step s (t, .set moduleId (convertModuleKeysToContainerKeyCacheFormat keys moduleVersion))
        { keyCache := s.keyCache.set moduleId
            (convertModuleKeysToContainerKeyCacheFormat keys moduleVersion) false
          threads := Function.update s.threads t .idle }

/-- The operation is one of the module, or one of all modules. -/
def CacheEvent.Concerns (moduleId : Bytes) : CacheEvent → Prop
  | .set m _ => m = moduleId
  | .clear (some m) => m = moduleId
  | .clear none => True
  | .getKeys m _ _ _ => m = moduleId
  | .request m => m = moduleId
  | .answer _ => False

/-- The module is cleared. -/
def CacheEvent.Clears (moduleId : Bytes) : CacheEvent → Prop
  | .clear (some m) => m = moduleId
  | .clear none => True
  | _ => False

/-- The entries that were set since a module was last cleared. -/
def noteEvent (stored : Bytes → List CachedModuleKeys) (label : ℕ × CacheEvent) :
    Bytes → List CachedModuleKeys :=
  match label.2 with
  | .set moduleId newKeys => Function.update stored moduleId (newKeys :: stored moduleId)
  | .clear (some moduleId) => Function.update stored moduleId []
  | .clear none => fun _ => []
  | _ => stored

@[inherit_doc noteEvent]
def storedSinceClear (labels : List (ℕ × CacheEvent)) : Bytes → List CachedModuleKeys :=
  labels.foldl noteEvent fun _ => []

/-- An operation leaves the entries of other modules alone. -/
theorem lookup_of_step {s s' : State} {label : ℕ × CacheEvent} (hstep : Step s label s')
    {moduleId : Bytes} (h : ¬ label.2.Concerns moduleId) :
    s'.keyCache.storage.lookup moduleId = s.keyCache.storage.lookup moduleId := by
  cases hstep with
  | set ht m newKeys moduleVersion =>
      exact s.keyCache.lookup_set_ne (fun heq => h heq.symm) _ false
  | clear ht m =>
      cases m with
      | none => exact absurd trivial h
      | some m => exact AList.lookup_erase_ne fun heq => h heq.symm
  | get ht m requiredKeyIds minimum => rfl
  | miss ht hnone => rfl
  | request ht m => rfl
  | answer ht keys moduleVersion => rfl
  | failed ht => rfl
  | store ht => exact s.keyCache.lookup_set_ne (fun heq => h heq.symm) _ false

/-- A step that does not clear the module keeps an entry or stores a newer one. -/
theorem version_le_of_step {s s' : State} {label : ℕ × CacheEvent} (hstep : Step s label s')
    {moduleId : Bytes} (h : ¬ label.2.Clears moduleId) {k : CachedModuleKeys}
    (hk : s.keyCache.storage.lookup moduleId = some k) :
    ∃ k', s'.keyCache.storage.lookup moduleId = some k' ∧
      k.moduleVersion ≤ k'.moduleVersion := by
  have hkept : ∃ k', s.keyCache.storage.lookup moduleId = some k' ∧
      k.moduleVersion ≤ k'.moduleVersion := ⟨k, hk, le_refl _⟩
  cases hstep with
  | set ht m newKeys moduleVersion => exact ContainerKeyCache.version_le_of_set hk
  | clear ht m =>
      cases m with
      | none => exact absurd trivial h
      | some m =>
          have hother : moduleId ≠ m := fun heq => h heq.symm
          exact ⟨k, (AList.lookup_erase_ne hother).trans hk, le_refl _⟩
  | get ht m requiredKeyIds minimum => exact hkept
  | miss ht hnone => exact hkept
  | request ht m => exact hkept
  | answer ht keys moduleVersion => exact hkept
  | failed ht => exact hkept
  | store ht => exact ContainerKeyCache.version_le_of_set hk

/-- **Versions.**  Between two clears of a module its version does not
decrease. -/
theorem version_le_of_run {s s' : State} {labels : List (ℕ × CacheEvent)}
    (hrun : Run Step s labels s') {moduleId : Bytes}
    (h : ∀ label ∈ labels, ¬ label.2.Clears moduleId) {k : CachedModuleKeys}
    (hk : s.keyCache.storage.lookup moduleId = some k) :
    ∃ k', s'.keyCache.storage.lookup moduleId = some k' ∧
      k.moduleVersion ≤ k'.moduleVersion := by
  induction hrun generalizing k with
  | nil s => exact ⟨k, hk, le_refl _⟩
  | cons hstep _ ih =>
      obtain ⟨k₁, hk₁, hle₁⟩ := version_le_of_step hstep (h _ List.mem_cons_self) hk
      obtain ⟨k₂, hk₂, hle₂⟩ := ih (fun label hl => h label (List.mem_cons_of_mem _ hl)) hk₁
      exact ⟨k₂, hk₂, le_trans hle₁ hle₂⟩

/-- Every entry was set since its module was last cleared. -/
def Noted (s : State) (stored : Bytes → List CachedModuleKeys) : Prop :=
  ∀ moduleId k, s.keyCache.storage.lookup moduleId = some k → k ∈ stored moduleId

theorem noted_set {s : State} {stored : Bytes → List CachedModuleKeys} (hs : Noted s stored)
    (moduleId : Bytes) (newKeys : CachedModuleKeys) (threads : ℕ → ThreadState) :
    Noted { keyCache := s.keyCache.set moduleId newKeys false, threads := threads }
      (Function.update stored moduleId (newKeys :: stored moduleId)) := by
  intro m k hk
  by_cases hm : m = moduleId
  · subst hm
    rw [Function.update_self]
    rcases s.keyCache.lookup_set_self m newKeys with hnew | hold
    · obtain rfl := Option.some.inj (hnew.symm.trans hk)
      exact List.mem_cons_self
    · exact List.mem_cons_of_mem _ (hs m k (hold.symm.trans hk))
  · rw [Function.update_of_ne hm]
    exact hs m k ((s.keyCache.lookup_set_ne hm newKeys false).symm.trans hk)

/-- Steps keep it. -/
theorem noted_of_step {s s' : State} {label : ℕ × CacheEvent}
    {stored : Bytes → List CachedModuleKeys} (hs : Noted s stored) (hstep : Step s label s') :
    Noted s' (noteEvent stored label) := by
  cases hstep with
  | set ht m newKeys moduleVersion => exact noted_set hs m _ s.threads
  | clear ht m =>
      intro moduleId k hk
      cases m with
      | none => cases hk
      | some m =>
          by_cases hm : moduleId = m
          · subst hm
            cases (AList.lookup_erase moduleId s.keyCache.storage).symm.trans hk
          · have hold := hs moduleId k ((AList.lookup_erase_ne hm).symm.trans hk)
            change k ∈ Function.update stored m [] moduleId
            rw [Function.update_of_ne hm]
            exact hold
  | get ht m requiredKeyIds minimum => exact hs
  | miss ht hnone => exact hs
  | request ht m => exact hs
  | answer ht keys moduleVersion => exact hs
  | failed ht => exact hs
  | store ht => exact noted_set hs _ _ _

/-- **Entries.**  In every run from the start. -/
theorem noted_of_run {s : State} {labels : List (ℕ × CacheEvent)}
    (hrun : Run Step State.start labels s) : Noted s (storedSinceClear labels) := by
  refine hrun.simulates Noted noteEvent (fun _ _ _ _ => noted_of_step) ?_
  intro moduleId k hk
  cases hk

/-- What was returned is what the cache gives. -/
theorem getKeys_of_step {s s' : State} {t : ℕ} {moduleId : Bytes}
    {requiredKeyIds : Option (Finset Bytes)} {minimum : Option ℤ}
    {result : Option CachedModuleKeys}
    (hstep : Step s (t, .getKeys moduleId requiredKeyIds minimum result) s') :
    s.keyCache.getKeys moduleId requiredKeyIds minimum = result := by
  cases hstep with
  | get ht m requiredKeyIds minimum => rfl
  | miss ht hnone => exact hnone

/-- A returned entry is what was asked for. -/
structure Suitable (labels : List (ℕ × CacheEvent)) (moduleId : Bytes)
    (requiredKeyIds : Option (Finset Bytes)) (minimum : Option ℤ) (k : CachedModuleKeys) :
    Prop where
  stored : k ∈ storedSinceClear labels moduleId
  keyIds : ∀ keyIds, requiredKeyIds = some keyIds →
    ∀ keyId ∈ keyIds, ∃ key ∈ k.keys, key.keyId = keyId
  schemaVersion : ∀ n, minimum = some n → n ≤ k.moduleSchemaVersion

/-- Every entry that calls with these requirements return is what was asked
for. -/
def AlwaysSuitable (requiredKeyIds : Option (Finset Bytes)) (minimum : Option ℤ) : Prop :=
  ∀ (labels : List (ℕ × CacheEvent)) (s s' : State) (t : ℕ) (moduleId : Bytes)
    (k : CachedModuleKeys), Run Step State.start labels s →
    Step s (t, .getKeys moduleId requiredKeyIds minimum (some k)) s' →
      Suitable labels moduleId requiredKeyIds minimum k

/-- An entry of a schema version. -/
def entryOfSchema (moduleSchemaVersion : ℤ) : ModuleKeys where
  keys := []
  currentKeyId := []
  moduleSchemaVersion := moduleSchemaVersion
  moduleResourceId := []
  contextId := []

/-- An entry is returned that has a schema version below the minimum. -/
theorem exists_unsuitable (n : ℤ) : ¬ AlwaysSuitable none (some n) := by
  intro h
  have hset := Step.set (s := State.start) (t := 0) rfl [] (entryOfSchema (n - 1)) 0
  have hget := Step.get (s := { State.start with
      keyCache := State.start.keyCache.set [] (convertModuleKeysToContainerKeyCacheFormat
        (entryOfSchema (n - 1)) 0) false }) (t := 0) rfl [] none (some n)
  have hsuit := h _ _ _ _ _ _ (.cons hset (.nil _)) hget
  have hle := hsuit.schemaVersion n rfl
  exact absurd hle (by simp [convertModuleKeysToContainerKeyCacheFormat, entryOfSchema])

/-- What is returned is as asked for exactly if a minimum is not given without
key ids. -/
theorem alwaysSuitable_iff {requiredKeyIds : Option (Finset Bytes)} {minimum : Option ℤ} :
    AlwaysSuitable requiredKeyIds minimum ↔ (minimum = none ∨ requiredKeyIds.isSome = true) := by
  constructor
  · intro h
    cases requiredKeyIds with
    | some keyIds => exact Or.inr rfl
    | none =>
        cases minimum with
        | none => exact Or.inl rfl
        | some n => exact absurd h (exists_unsuitable n)
  · intro h labels s s' t moduleId k hrun hstep
    obtain ⟨hlookup, hrequired⟩ :=
      ContainerKeyCache.getKeys_eq_some_iff.mp (getKeys_of_step hstep)
    refine ⟨noted_of_run hrun moduleId k hlookup, fun keyIds hkeyIds => (hrequired keyIds hkeyIds).1,
      ?_⟩
    intro n hn
    rcases h with hnone | hsome
    · cases hnone.symm.trans hn
    · obtain ⟨keyIds, hkeyIds⟩ := Option.isSome_iff_exists.mp hsome
      exact (hrequired keyIds hkeyIds).2 n hn

/-- **The key cache.**  Versions do not decrease between clears, modules do not
disturb each other, and what is returned is as asked for exactly if a minimum
is not given without key ids. -/
theorem module_key_cache (moduleId : Bytes) :
    (∀ (s s' : State) (labels : List (ℕ × CacheEvent)) (k : CachedModuleKeys),
      Run Step s labels s' → (∀ label ∈ labels, ¬ label.2.Clears moduleId) →
      s.keyCache.storage.lookup moduleId = some k →
      ∃ k', s'.keyCache.storage.lookup moduleId = some k' ∧
        k.moduleVersion ≤ k'.moduleVersion) ∧
    (∀ (s s' : State) (label : ℕ × CacheEvent), Step s label s' →
      ¬ label.2.Concerns moduleId →
      s'.keyCache.storage.lookup moduleId = s.keyCache.storage.lookup moduleId) ∧
    ∀ (requiredKeyIds : Option (Finset Bytes)) (minimum : Option ℤ),
      AlwaysSuitable requiredKeyIds minimum ↔
        (minimum = none ∨ requiredKeyIds.isSome = true) :=
  ⟨fun _ _ _ _ hrun h hk => version_le_of_run hrun h hk,
    fun _ _ _ hstep h => lookup_of_step hstep h, fun _ _ => alwaysSuitable_iff⟩

/-- The entry of schema version 4 in the cache. -/
def sampleEntry : CachedModuleKeys :=
  convertModuleKeysToContainerKeyCacheFormat (entryOfSchema 4) 7

/-- The cache after it was set for the module `1`. -/
def sampleState : State :=
  { State.start with keyCache := State.start.keyCache.set [1] sampleEntry false }

theorem sampleState_run : Run Step State.start [(0, .set [1] sampleEntry)] sampleState :=
  .cons (.set rfl [1] (entryOfSchema 4) 7) (.nil _)

/-- A newer answer of the server, with a key. -/
def newerEntry : ModuleKeys :=
  { entryOfSchema 5 with keys := [⟨[107], .empty⟩], currentKeyId := [107] }

theorem newerEntry_set (t : ℕ) :
    Step sampleState (t, .set [1] (convertModuleKeysToContainerKeyCacheFormat newerEntry 9))
      { sampleState with
        keyCache := sampleState.keyCache.set [1]
          (convertModuleKeysToContainerKeyCacheFormat newerEntry 9) false } :=
  .set rfl [1] newerEntry 9

theorem module_key_cache_sample :
    (∃ k', (sampleState.keyCache.set [1]
        (convertModuleKeysToContainerKeyCacheFormat newerEntry 9) false).storage.lookup [1] =
          some k' ∧ sampleEntry.moduleVersion ≤ k'.moduleVersion) ∧
    (sampleState.keyCache.set [1]
        (convertModuleKeysToContainerKeyCacheFormat newerEntry 9) false).storage.lookup [2] =
      sampleState.keyCache.storage.lookup [2] ∧
    AlwaysSuitable (some {[107]}) (some 5) := by
  refine ⟨(module_key_cache [1]).1 sampleState _ _ sampleEntry
      (.cons (newerEntry_set 1) (.nil _)) ?_ rfl,
    (module_key_cache [2]).2.1 _ _ _ (newerEntry_set 1) ?_,
    ((module_key_cache [1]).2.2 _ _).mpr (Or.inr rfl)⟩
  · intro label hlabel
    rw [List.mem_singleton.mp hlabel]
    exact id
  · change ¬ ([1] : Bytes) = [2]
    decide

/-- A minimum of 5 without key ids gets the entry of schema version 4. -/
theorem module_key_cache_fails :
    Run Step State.start [(0, .set [1] sampleEntry)] sampleState ∧
      sampleState.keyCache.getKeys [1] none (some 5) = some sampleEntry ∧
      ¬ Suitable [(0, .set [1] sampleEntry)] [1] none (some 5) sampleEntry := by
  refine ⟨sampleState_run, rfl, ?_⟩
  intro h
  exact absurd (h.schemaVersion 5 rfl) (by decide)

end ModuleBaseApi

end PrivmxEndpoint
