import PrivmxEndpoint.GuardedRuns
import PrivmxEndpoint.Headcount

/-!
# Channels shared by connections

`ChannelManager` keeps one `SingleServerChannels` for each server, with the number of
connections that use it.  `AuthorizedConnection` asks for it in its constructor and gives it
back in its destructor.

The servers are told apart by a text: the scheme, the host and the port without a mark
between the first two.  Two live connections share their channels exactly if these texts are
the same, which may happen for two servers: `http://sfoo.com:443` and `https://foo.com:443`.
-/

namespace PrivmxEndpoint

open Runs Headcount

/-- The parts of a `Poco::URI` that are used. -/
structure ServerUri where
  scheme : String
  host : String
  port : ℕ
  deriving Repr, DecidableEq

/-- The text that names a server in `add` and `remove`. -/
def ServerUri.key (uri : ServerUri) : String :=
  uri.scheme ++ uri.host ++ ":" ++ toString uri.port

/-- `ChannelManager::SingleServer`.  The `SingleServerChannels` are named by their number. -/
structure SingleServer where
  server : ℕ
  count : ℤ
  deriving Repr, DecidableEq

/-- The fields of `ChannelManager`, and how many `SingleServerChannels` it has made. -/
structure ChannelManager where
  servers : String → Option SingleServer
  made : ℕ

namespace ChannelManager

/-- `ChannelManager::add`. -/
def add (m : ChannelManager) (uri : ServerUri) : ℕ × ChannelManager :=
  match m.servers uri.key with
  | none =>
      (m.made,
        { servers := Function.update m.servers uri.key (some { server := m.made, count := 1 })
          made := m.made + 1 })
  | some e =>
      (e.server,
        { m with
          servers := Function.update m.servers uri.key (some { e with count := e.count + 1 }) })

/-- `ChannelManager::remove`. -/
def remove (m : ChannelManager) (uri : ServerUri) : ChannelManager :=
  match m.servers uri.key with
  | none => m
  | some e =>
      { m with
        servers := Function.update m.servers uri.key
          (if e.count - 1 ≤ 0 then none else some { e with count := e.count - 1 }) }

end ChannelManager

/-- The fields of `AuthorizedConnection` that hold the channels. -/
structure ChannelUser where
  uri : ServerUri
  serverChannels : ℕ
  isInitialized : Bool
  deriving Repr, DecidableEq

/-- A connection that uses the channels of a server. -/
def ChannelUser.uses (key : String) (c : ChannelUser) : Bool :=
  c.isInitialized && c.uri.key == key

/-- The manager and all connections so far. -/
structure ChannelUsers where
  manager : ChannelManager
  users : List ChannelUser

/-- `initChannel` of a new connection, or `destroyChannel` of one. -/
inductive ChannelEvent
  | initChannel (uri : ServerUri)
  | destroyChannel (user : ℕ)

namespace ChannelUsers

/-- No connections. -/
def none : ChannelUsers where
  manager := { servers := fun _ => .none, made := 0 }
  users := []

def Step (x : ChannelUsers) : ChannelEvent → ChannelUsers → Prop
  | .initChannel uri, y =>
      y = { manager := (x.manager.add uri).2
            users := x.users ++
              [{ uri := uri, serverChannels := (x.manager.add uri).1, isInitialized := true }] }
  | .destroyChannel k, y =>
      ∃ c, x.users[k]? = some c ∧
        y = if c.isInitialized then
            { manager := x.manager.remove c.uri
              users := x.users.set k { c with isInitialized := false } }
          else
            x

variable {x y : ChannelUsers} {servers : String → Option SingleServer} {made : ℕ}
  {users : List ChannelUser} {key : String}

/-- The entry of a server counts the connections that use it. -/
structure Counted (servers : String → Option SingleServer) (made : ℕ) (users : List ChannelUser) :
    Prop where
  absent : ∀ key, servers key = .none → users.countP (·.uses key) = 0
  count_eq : ∀ key e, servers key = some e →
    e.count = users.countP (·.uses key) ∧ 0 < users.countP (·.uses key)
  server_eq : ∀ c ∈ users, c.isInitialized = true →
    ∀ e, servers c.uri.key = some e → c.serverChannels = e.server
  lt_made : ∀ key e, servers key = some e → e.server < made
  distinct : ∀ key key' e e', servers key = some e → servers key' = some e' →
    e.server = e'.server → key = key'

theorem counted_none : Counted none.manager.servers none.manager.made none.users where
  absent _ _ := rfl
  count_eq _ _ h := by cases h
  server_eq _ h := by cases h
  lt_made _ _ h := by cases h
  distinct _ _ _ _ h := by cases h

theorem countP_join {c : ChannelUser} (hlive : c.isInitialized = true) (key : String) :
    (users ++ [c]).countP (·.uses key) =
      users.countP (·.uses key) + if c.uri.key = key then 1 else 0 := by
  rw [List.countP_append]
  by_cases h : c.uri.key = key <;> simp [ChannelUser.uses, hlive, h]

/-- A connection with a key is counted. -/
theorem countP_pos {c : ChannelUser} (hc : c ∈ users) (hlive : c.isInitialized = true) :
    0 < users.countP (·.uses c.uri.key) :=
  List.countP_pos_iff.mpr ⟨c, hc, by simp [ChannelUser.uses, hlive]⟩

/-- The first connection to a server. -/
theorem Counted.first (h : Counted servers made users) {c : ChannelUser}
    (hlive : c.isInitialized = true) (habsent : servers c.uri.key = .none)
    (hserver : c.serverChannels = made) :
    Counted (Function.update servers c.uri.key (some { server := made, count := 1 })) (made + 1)
      (users ++ [c]) := by
  have hzero := h.absent c.uri.key habsent
  -- the entry is the new one or an old one of another server
  have hcases : ∀ key e, Function.update servers c.uri.key (some { server := made, count := 1 })
      key = some e → key = c.uri.key ∧ e = { server := made, count := 1 } ∨
        key ≠ c.uri.key ∧ servers key = some e := by
    intro key e hkey
    rcases eq_or_ne key c.uri.key with rfl | hne
    · rw [Function.update_self] at hkey
      exact Or.inl ⟨rfl, (Option.some.inj hkey).symm⟩
    · rw [Function.update_of_ne hne] at hkey
      exact Or.inr ⟨hne, hkey⟩
  refine ⟨?_, ?_, ?_, ?_, ?_⟩
  · intro key hkey
    rcases eq_or_ne key c.uri.key with rfl | hne
    · rw [Function.update_self] at hkey
      cases hkey
    · rw [Function.update_of_ne hne] at hkey
      rw [countP_join hlive, if_neg hne.symm, h.absent key hkey]
  · intro key e hkey
    rw [countP_join hlive]
    rcases hcases key e hkey with ⟨rfl, rfl⟩ | ⟨hne, hold⟩
    · rw [if_pos rfl, hzero]
      exact ⟨rfl, Nat.one_pos⟩
    · rw [if_neg hne.symm]
      exact h.count_eq key e hold
  · intro c' hc' hlive' e hkey
    rcases List.mem_append.mp hc' with hin | hnew
    · rcases hcases c'.uri.key e hkey with ⟨heq, -⟩ | ⟨-, hold⟩
      · have hpos := countP_pos hin hlive'
        rw [heq] at hpos
        omega
      · exact h.server_eq c' hin hlive' e hold
    · obtain rfl := List.mem_singleton.mp hnew
      rcases hcases c'.uri.key e hkey with ⟨-, rfl⟩ | ⟨hne, -⟩
      · exact hserver
      · exact absurd rfl hne
  · intro key e hkey
    rcases hcases key e hkey with ⟨-, rfl⟩ | ⟨-, hold⟩
    · exact Nat.lt_succ_self _
    · exact Nat.lt_succ_of_lt (h.lt_made key e hold)
  · intro key key' e e' hkey hkey' hsame
    rcases hcases key e hkey with ⟨rfl, rfl⟩ | ⟨-, hold⟩
    · rcases hcases key' e' hkey' with ⟨rfl, -⟩ | ⟨-, hold'⟩
      · rfl
      · exact absurd (h.lt_made key' e' hold') (by rw [← hsame]; exact Nat.lt_irrefl _)
    · rcases hcases key' e' hkey' with ⟨-, rfl⟩ | ⟨-, hold'⟩
      · exact absurd (h.lt_made key e hold) (by rw [hsame]; exact Nat.lt_irrefl _)
      · exact h.distinct key key' e e' hold hold' hsame

/-- A change of one entry that keeps its server. -/
theorem Counted.recount (h : Counted servers made users) {users' : List ChannelUser}
    {key₀ : String} {entry : SingleServer} {count : ℤ} (hentry : servers key₀ = some entry)
    (hcount : count = users'.countP (·.uses key₀)) (hpos : 0 < users'.countP (·.uses key₀))
    (hother : ∀ key, key ≠ key₀ → users'.countP (·.uses key) = users.countP (·.uses key))
    (hserver : ∀ c ∈ users', c.isInitialized = true →
      c ∈ users ∨ c.uri.key = key₀ ∧ c.serverChannels = entry.server) :
    Counted (Function.update servers key₀ (some { entry with count := count })) made users' := by
  -- the entries keep their servers
  have hcases : ∀ key e, Function.update servers key₀ (some { entry with count := count }) key =
      some e → ∃ e₀, servers key = some e₀ ∧ e₀.server = e.server ∧
        (key = key₀ ∧ e.count = count ∨ key ≠ key₀ ∧ e₀ = e) := by
    intro key e hkey
    rcases eq_or_ne key key₀ with rfl | hne
    · rw [Function.update_self] at hkey
      obtain rfl := Option.some.inj hkey
      exact ⟨entry, hentry, rfl, Or.inl ⟨rfl, rfl⟩⟩
    · rw [Function.update_of_ne hne] at hkey
      exact ⟨e, hkey, rfl, Or.inr ⟨hne, rfl⟩⟩
  refine ⟨?_, ?_, ?_, ?_, ?_⟩
  · intro key hkey
    rcases eq_or_ne key key₀ with rfl | hne
    · rw [Function.update_self] at hkey
      cases hkey
    · rw [Function.update_of_ne hne] at hkey
      rw [hother key hne, h.absent key hkey]
  · intro key e hkey
    obtain ⟨e₀, hold, -, ⟨rfl, heq⟩ | ⟨hne, rfl⟩⟩ := hcases key e hkey
    · exact ⟨heq.trans hcount, hpos⟩
    · rw [hother key hne]
      exact h.count_eq key e₀ hold
  · intro c hc hlive e hkey
    obtain ⟨e₀, hold, hsame, -⟩ := hcases c.uri.key e hkey
    rcases hserver c hc hlive with hin | ⟨heq, hchannels⟩
    · rw [← hsame]
      exact h.server_eq c hin hlive e₀ hold
    · rw [heq, hentry] at hold
      obtain rfl := Option.some.inj hold
      exact hchannels.trans hsame
  · intro key e hkey
    obtain ⟨e₀, hold, hsame, -⟩ := hcases key e hkey
    rw [← hsame]
    exact h.lt_made key e₀ hold
  · intro key key' e e' hkey hkey' hsame
    obtain ⟨e₀, hold, hs, -⟩ := hcases key e hkey
    obtain ⟨e₁, hold', hs', -⟩ := hcases key' e' hkey'
    exact h.distinct key key' e₀ e₁ hold hold' (hs.trans (hsame.trans hs'.symm))

/-- The last connection to a server is gone. -/
theorem Counted.last (h : Counted servers made users) {users' : List ChannelUser} {key₀ : String}
    (hzero : users'.countP (·.uses key₀) = 0)
    (hother : ∀ key, key ≠ key₀ → users'.countP (·.uses key) = users.countP (·.uses key))
    (hserver : ∀ c ∈ users', c.isInitialized = true → c ∈ users) :
    Counted (Function.update servers key₀ .none) made users' := by
  have hold : ∀ key e, Function.update servers key₀ .none key = some e →
      key ≠ key₀ ∧ servers key = some e := by
    intro key e hkey
    rcases eq_or_ne key key₀ with rfl | hne
    · rw [Function.update_self] at hkey
      cases hkey
    · rw [Function.update_of_ne hne] at hkey
      exact ⟨hne, hkey⟩
  refine ⟨?_, ?_, ?_, ?_, ?_⟩
  · intro key hkey
    rcases eq_or_ne key key₀ with rfl | hne
    · exact hzero
    · rw [Function.update_of_ne hne] at hkey
      rw [hother key hne, h.absent key hkey]
  · intro key e hkey
    obtain ⟨hne, hkey⟩ := hold key e hkey
    rw [hother key hne]
    exact h.count_eq key e hkey
  · intro c hc hlive e hkey
    exact h.server_eq c (hserver c hc hlive) hlive e (hold _ e hkey).2
  · intro key e hkey
    exact h.lt_made key e (hold key e hkey).2
  · intro key key' e e' hkey hkey' hsame
    exact h.distinct key key' e e' (hold key e hkey).2 (hold key' e' hkey').2 hsame

/-- The entries count the connections. -/
def Sound (x : ChannelUsers) : Prop :=
  Counted x.manager.servers x.manager.made x.users

theorem Sound.initChannel (h : x.Sound) (uri : ServerUri) (hstep : x.Step (.initChannel uri) y) :
    y.Sound := by
  subst hstep
  unfold Sound at h ⊢
  unfold ChannelManager.add
  cases hentry : x.manager.servers uri.key with
  | none => exact Counted.first (c := ⟨uri, x.manager.made, true⟩) h rfl hentry rfl
  | some e =>
      obtain ⟨hcount, hpos⟩ := h.count_eq uri.key e hentry
      have hjoin : ∀ key, (x.users ++ [(⟨uri, e.server, true⟩ : ChannelUser)]).countP
          (·.uses key) =
          x.users.countP (·.uses key) + if uri.key = key then 1 else 0 :=
        countP_join (c := ⟨uri, e.server, true⟩) rfl
      refine h.recount hentry ?_ ?_ ?_ ?_
      · rw [hjoin, if_pos rfl, hcount]
        rfl
      · rw [hjoin, if_pos rfl]
        exact Nat.succ_pos _
      · intro key hne
        rw [hjoin, if_neg hne.symm, Nat.add_zero]
      · intro c hc _
        rcases List.mem_append.mp hc with hin | hnew
        · exact Or.inl hin
        · obtain rfl := List.mem_singleton.mp hnew
          exact Or.inr ⟨rfl, rfl⟩

theorem Sound.destroyChannel (h : x.Sound) {k : ℕ} (hstep : x.Step (.destroyChannel k) y) :
    y.Sound := by
  obtain ⟨c, hc, hy⟩ := hstep
  by_cases hlive : c.isInitialized = true
  · rw [if_pos hlive] at hy
    subst hy
    have hin := List.mem_of_getElem? hc
    have hset : ∀ key, (x.users.set k { c with isInitialized := false }).countP (·.uses key) +
        (if c.uri.key = key then 1 else 0) = x.users.countP (·.uses key) := by
      intro key
      have hcount := countP_set_add (b := { c with isInitialized := false }) (p := (·.uses key)) hc
      simpa [ChannelUser.uses, hlive] using hcount
    have hmem : ∀ c' ∈ x.users.set k { c with isInitialized := false },
        c'.isInitialized = true → c' ∈ x.users := by
      intro c' hc' hlive'
      rcases List.mem_or_eq_of_mem_set hc' with hold | rfl
      · exact hold
      · cases hlive'
    have hother : ∀ key, key ≠ c.uri.key →
        (x.users.set k { c with isInitialized := false }).countP (·.uses key) =
          x.users.countP (·.uses key) := by
      intro key hne
      have hkey := hset key
      rwa [if_neg hne.symm, Nat.add_zero] at hkey
    have hself := hset c.uri.key
    rw [if_pos rfl] at hself
    unfold Sound at h ⊢
    unfold ChannelManager.remove
    cases hentry : x.manager.servers c.uri.key with
    | none =>
        have hpos := countP_pos hin hlive
        rw [h.absent _ hentry] at hpos
        exact absurd hpos (Nat.lt_irrefl 0)
    | some e =>
        obtain ⟨hcount, -⟩ := h.count_eq c.uri.key e hentry
        dsimp only
        by_cases hlast : e.count - 1 ≤ 0
        · rw [if_pos hlast]
          exact h.last (by omega) hother hmem
        · rw [if_neg hlast]
          exact h.recount hentry (by omega) (by omega) hother fun c' hc' hlive' =>
            Or.inl (hmem c' hc' hlive')
  · rw [if_neg hlive] at hy
    rw [hy]
    exact h

theorem sound_run {events : List ChannelEvent} (hrun : Run Step none events x) : x.Sound := by
  refine hrun.preserves Sound ?_ counted_none
  intro s e t hs hstep
  cases e with
  | initChannel uri => exact hs.initChannel uri hstep
  | destroyChannel k => exact hs.destroyChannel hstep

end ChannelUsers

/-- **Connections share channels exactly if their servers have one name.**  In every run the
count of a server is that of the connections which use it, and its entry is there as long as
one does. -/
theorem ChannelManager.shared_iff {events : List ChannelEvent} {x : ChannelUsers}
    (hrun : Run ChannelUsers.Step ChannelUsers.none events x) :
    (∀ c ∈ x.users, ∀ c' ∈ x.users, c.isInitialized = true → c'.isInitialized = true →
      (c.serverChannels = c'.serverChannels ↔ c.uri.key = c'.uri.key)) ∧
    (∀ key, (x.manager.servers key).isSome ↔
      ∃ c ∈ x.users, c.isInitialized = true ∧ c.uri.key = key) ∧
    ∀ key e, x.manager.servers key = some e →
      e.count = x.users.countP (·.uses key) := by
  have hx := ChannelUsers.sound_run hrun
  have hentry : ∀ c ∈ x.users, c.isInitialized = true →
      ∃ e, x.manager.servers c.uri.key = some e ∧ c.serverChannels = e.server := by
    intro c hc hlive
    cases hkey : x.manager.servers c.uri.key with
    | none =>
        have hpos := ChannelUsers.countP_pos hc hlive
        rw [hx.absent _ hkey] at hpos
        exact absurd hpos (Nat.lt_irrefl 0)
    | some e => exact ⟨e, rfl, hx.server_eq c hc hlive e hkey⟩
  refine ⟨?_, ?_, fun key e hkey => (hx.count_eq key e hkey).1⟩
  · intro c hc c' hc' hlive hlive'
    obtain ⟨e, hkey, heq⟩ := hentry c hc hlive
    obtain ⟨e', hkey', heq'⟩ := hentry c' hc' hlive'
    rw [heq, heq']
    constructor
    · exact hx.distinct _ _ e e' hkey hkey'
    · intro hsame
      rw [hsame, hkey'] at hkey
      rw [Option.some.inj hkey]
  · intro key
    constructor
    · intro hsome
      obtain ⟨e, hkey⟩ := Option.isSome_iff_exists.mp hsome
      obtain ⟨c, hc, huses⟩ := List.countP_pos_iff.mp (hx.count_eq key e hkey).2
      simp only [ChannelUser.uses, Bool.and_eq_true, beq_iff_eq] at huses
      exact ⟨c, hc, huses⟩
    · rintro ⟨c, hc, hlive, rfl⟩
      obtain ⟨e, hkey, -⟩ := hentry c hc hlive
      rw [hkey]
      rfl

/-- Two connections to one server, the first of which has ended. -/
def twoUsers (uri : ServerUri) : ChannelUsers where
  manager :=
    { servers := Function.update (fun _ => none) uri.key (some { server := 0, count := 1 })
      made := 1 }
  users := [⟨uri, 0, false⟩, ⟨uri, 0, true⟩]

theorem run_twoUsers (uri : ServerUri) :
    Run ChannelUsers.Step ChannelUsers.none
      [.initChannel uri, .initChannel uri, .destroyChannel 0] (twoUsers uri) := by
  refine .cons rfl (.cons rfl (.cons ⟨⟨uri, 0, true⟩, ?_, ?_⟩ (.nil _)))
  · simp [ChannelUsers.none, ChannelManager.add]
  · simp [twoUsers, ChannelUsers.none, ChannelManager.add, ChannelManager.remove]

theorem ChannelManager.shared_iff_sample :
    ((twoUsers ⟨"https", "foo.com", 443⟩).manager.servers "httpsfoo.com:443").isSome :=
  ((ChannelManager.shared_iff (run_twoUsers ⟨"https", "foo.com", 443⟩)).2.1 _).mpr
    ⟨_, List.mem_cons_of_mem _ (List.mem_singleton.mpr rfl), rfl, by decide⟩

/-- Two servers with one name. -/
example : ServerUri.key ⟨"http", "sfoo.com", 443⟩ = ServerUri.key ⟨"https", "foo.com", 443⟩ := by
  decide

end PrivmxEndpoint
