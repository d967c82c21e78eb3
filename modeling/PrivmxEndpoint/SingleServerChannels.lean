import PrivmxEndpoint.GuardedRuns
import PrivmxEndpoint.Headcount

/-!
# The HTTP channels of one server

`SingleServerChannels` shares four HTTP channels among all requests to a server.  A request
takes the first free channel, or waits on a condition variable until it is notified by a
request that gives one back.  A request that arrives while others wait does not overtake
them: it waits too.

The requests take turns in their critical sections, in any order.  A channel is never with
two requests (`channels_exclusive`).  The wait has no predicate, so a request that wakes up
for no reason may find all channels taken, and then it throws; without such wake-ups no
request throws, and in any case nobody is left waiting (`requests_served`).
-/

namespace PrivmxEndpoint

open Runs Headcount

/-- `SingleServerChannels::MAX_HTTP_CLIENTS`. -/
def MAX_HTTP_CLIENTS : ℕ := 4

/-- The fields of `SingleServerChannels` for HTTP.  A channel is named by the number of the
`getHttpChannel` of the environment that made it. -/
structure SingleServerChannels where
  httpChannels : List (Option ℕ)
  isHttpFree : List Bool
  httpNumWaitingRequests : ℕ
  made : ℕ
  deriving Repr, DecidableEq

namespace SingleServerChannels

/-- The constructor. -/
def create : SingleServerChannels where
  httpChannels := List.replicate MAX_HTTP_CLIENTS none
  isHttpFree := List.replicate MAX_HTTP_CLIENTS true
  httpNumWaitingRequests := 0
  made := 0

/-- `SingleServerChannels::tryGetHttpChannel`: the first free channel, which is made when it
is taken for the first time. -/
def tryGetHttpChannel (s : SingleServerChannels) : Option (ℕ × SingleServerChannels) :=
  match s.isHttpFree.findIdx? id with
  | none => none
  | some i =>
      let taken := { s with isHttpFree := s.isHttpFree.set i false }
      if (s.httpChannels[i]?).join.isNone then
        some (i, { taken with
          httpChannels := s.httpChannels.set i (some s.made)
          made := s.made + 1 })
      else
        some (i, taken)

/-- `SingleServerChannels::getHttpChannel` up to the wait. -/
def getHttpChannel (s : SingleServerChannels) : Option ℕ × SingleServerChannels :=
  let waiting := { s with httpNumWaitingRequests := s.httpNumWaitingRequests + 1 }
  if s.httpNumWaitingRequests = 0 then
    match s.tryGetHttpChannel with
    | some (index, s') => (some index, s')
    | none => (none, waiting)
  else
    (none, waiting)

/-- `SingleServerChannels::getHttpChannel` behind the wait.  Without a channel it throws
`ErrorDuringGettingHTTPChannelException`. -/
def getHttpChannelAfterWait (s : SingleServerChannels) : Option ℕ × SingleServerChannels :=
  let s := { s with httpNumWaitingRequests := s.httpNumWaitingRequests - 1 }
  match s.tryGetHttpChannel with
  | some (index, s') => (some index, s')
  | none => (none, s)

/-- `SingleServerChannels::free`, without the notification. -/
def free (s : SingleServerChannels) (index : ℕ) : SingleServerChannels :=
  { s with isHttpFree := s.isHttpFree.set index true }

end SingleServerChannels

/-- Where a request is. -/
inductive RequestPhase
  /-- In the wait. -/
  | waiting
  /-- Notified, before it has the lock again. -/
  | woken
  /-- In the `send` of a channel. -/
  | sending (index : ℕ)
  /-- It has thrown for want of a channel. -/
  | refused
  /-- It has given its channel back. -/
  | finished
  deriving Repr, DecidableEq

/-- The channels and all requests so far. -/
structure HttpPool where
  channels : SingleServerChannels
  requests : List RequestPhase
  deriving Repr, DecidableEq

/-- What happens next. -/
inductive PoolEvent
  | arrive
  /-- A wait ends without a notification. -/
  | wakeUp (request : ℕ)
  | resume (request : ℕ)
  /-- A `send` returns or throws, and `notify_one` picks a waiting request. -/
  | finish (request : ℕ) (notified : Option ℕ)
  deriving Repr, DecidableEq

namespace HttpPool

/-- A server that has not been used. -/
def unused : HttpPool where
  channels := .create
  requests := []

/-- The next state; `notify_one` finds nobody only if nobody waits. -/
def Step (x : HttpPool) : PoolEvent → HttpPool → Prop
  | .arrive, y =>
      y = match x.channels.getHttpChannel with
        | (some index, s) => { channels := s, requests := x.requests ++ [.sending index] }
        | (none, s) => { channels := s, requests := x.requests ++ [.waiting] }
  | .wakeUp r, y =>
      x.requests[r]? = some .waiting ∧ y = { x with requests := x.requests.set r .woken }
  | .resume r, y =>
      x.requests[r]? = some .woken ∧
        y = match x.channels.getHttpChannelAfterWait with
          | (some index, s) => { channels := s, requests := x.requests.set r (.sending index) }
          | (none, s) => { channels := s, requests := x.requests.set r .refused }
  | .finish r notified, y =>
      ∃ index, x.requests[r]? = some (.sending index) ∧
        match notified with
        | none => .waiting ∉ x.requests ∧
            y = { channels := x.channels.free index, requests := x.requests.set r .finished }
        | some w => x.requests[w]? = some .waiting ∧
            y = { channels := x.channels.free index
                  requests := (x.requests.set r .finished).set w .woken }

end HttpPool

/-- Every wake-up is a notification. -/
def PoolEvent.Notified : PoolEvent → Prop
  | .wakeUp _ => False
  | _ => True

/-! ## The channels -/

namespace SingleServerChannels

variable {s s' : SingleServerChannels} {i : ℕ}

/-- The channels that have been made are as many as were made, and they differ. -/
structure Opened (s : SingleServerChannels) : Prop where
  length_eq : s.httpChannels.length = MAX_HTTP_CLIENTS
  length_free : s.isHttpFree.length = MAX_HTTP_CLIENTS
  lt_made : ∀ (i c : ℕ), s.httpChannels[i]? = some (some c) → c < s.made
  distinct : ∀ (i j c : ℕ), s.httpChannels[i]? = some (some c) → s.httpChannels[j]? = some (some c) →
    i = j
  made_eq : s.httpChannels.countP Option.isSome = s.made
  taken : ∀ i : ℕ, s.isHttpFree[i]? = some false → ∃ c, s.httpChannels[i]? = some (some c)

/-- A new server has no channel yet. -/
theorem opened_create : create.Opened where
  length_eq := List.length_replicate
  length_free := List.length_replicate
  lt_made i c h := by
    have hnone := List.eq_of_mem_replicate (List.mem_of_getElem? h)
    cases hnone
  distinct i j c h := by
    have hnone := List.eq_of_mem_replicate (List.mem_of_getElem? h)
    cases hnone
  made_eq := rfl
  taken i h := by
    have htrue := List.eq_of_mem_replicate (List.mem_of_getElem? h)
    cases htrue

/-- What is known of the channel that a request gets. -/
structure Takes (s : SingleServerChannels) (i : ℕ) (s' : SingleServerChannels) : Prop where
  free : s.isHttpFree[i]? = some true
  isHttpFree_eq : s'.isHttpFree = s.isHttpFree.set i false
  waiting_eq : s'.httpNumWaitingRequests = s.httpNumWaitingRequests
  opened : s.Opened → s'.Opened

/-- A taken channel exists afterwards, and no other changes. -/
theorem takes_of_tryGetHttpChannel (h : s.tryGetHttpChannel = some (i, s')) : s.Takes i s' := by
  unfold tryGetHttpChannel at h
  cases hfind : s.isHttpFree.findIdx? id with
  | none => simp [hfind] at h
  | some k =>
      obtain ⟨hk, htrue, -⟩ := List.findIdx?_eq_some_iff_getElem.mp hfind
      have hfree : s.isHttpFree[k]? = some true := by
        rw [List.getElem?_eq_getElem hk]
        exact congrArg some htrue
      simp only [hfind] at h
      split at h
      · rename_i hnone
        obtain ⟨rfl, rfl⟩ := Prod.mk.inj (Option.some.inj h)
        refine ⟨hfree, rfl, rfl, fun ho => ?_⟩
        have hlt : k < s.httpChannels.length := by
          rw [ho.length_eq, ← ho.length_free]
          exact hk
        have hunmade : s.httpChannels[k]? = some none := by
          rw [List.getElem?_eq_getElem hlt] at hnone ⊢
          cases hget : s.httpChannels[k] with
          | none => rfl
          | some c => simp [hget] at hnone
        have hcases : ∀ j c, (s.httpChannels.set k (some s.made))[j]? = some (some c) →
            k = j ∧ c = s.made ∨ k ≠ j ∧ s.httpChannels[j]? = some (some c) := by
          intro j c hj
          rcases eq_or_ne k j with rfl | hne
          · rw [List.getElem?_set_self hlt] at hj
            exact Or.inl ⟨rfl, (Option.some.inj (Option.some.inj hj)).symm⟩
          · rw [List.getElem?_set_ne hne] at hj
            exact Or.inr ⟨hne, hj⟩
        refine ⟨?_, ?_, ?_, ?_, ?_, ?_⟩
        · exact (List.length_set ..).trans ho.length_eq
        · exact (List.length_set ..).trans ho.length_free
        · intro j c hj
          rcases hcases j c hj with ⟨-, rfl⟩ | ⟨-, hold⟩
          · exact Nat.lt_succ_self _
          · exact Nat.lt_succ_of_lt (ho.lt_made j c hold)
        · intro j l c hj hl
          rcases hcases j c hj with ⟨rfl, rfl⟩ | ⟨-, hold⟩
          · rcases hcases l _ hl with ⟨rfl, -⟩ | ⟨-, hold'⟩
            · rfl
            · exact absurd (ho.lt_made l _ hold') (Nat.lt_irrefl _)
          · rcases hcases l c hl with ⟨-, rfl⟩ | ⟨-, hold'⟩
            · exact absurd (ho.lt_made j _ hold) (Nat.lt_irrefl _)
            · exact ho.distinct j l c hold hold'
        · have hcount := countP_set_add (p := Option.isSome) (b := some s.made) hunmade
          have hmade := ho.made_eq
          simp only [Option.isSome_none, Option.isSome_some, if_true, Bool.false_eq_true,
            if_false] at hcount
          dsimp only
          omega
        · intro j hj
          rcases eq_or_ne k j with rfl | hne
          · exact ⟨s.made, List.getElem?_set_self hlt⟩
          · obtain ⟨c, hc⟩ := ho.taken j ((List.getElem?_set_ne hne).symm.trans hj)
            exact ⟨c, (List.getElem?_set_ne hne).trans hc⟩
      · rename_i hsome
        obtain ⟨rfl, rfl⟩ := Prod.mk.inj (Option.some.inj h)
        refine ⟨hfree, rfl, rfl, fun ho => ⟨ho.length_eq, ?_, ho.lt_made, ho.distinct, ho.made_eq,
          ?_⟩⟩
        · exact (List.length_set ..).trans ho.length_free
        · intro j hj
          rcases eq_or_ne k j with rfl | hne
          · cases hget : s.httpChannels[k]? with
            | none => simp [hget] at hsome
            | some channel =>
                cases channel with
                | none => simp [hget] at hsome
                | some c => exact ⟨c, rfl⟩
          · exact ho.taken j ((List.getElem?_set_ne hne).symm.trans hj)

/-- No channel is free. -/
theorem count_free_of_tryGetHttpChannel (h : s.tryGetHttpChannel = none) :
    s.isHttpFree.count true = 0 := by
  rw [List.count_eq_zero]
  intro hmem
  unfold tryGetHttpChannel at h
  cases hfind : s.isHttpFree.findIdx? id with
  | none =>
      have hfalse := List.findIdx?_eq_none_iff.mp hfind true hmem
      simp at hfalse
  | some k =>
      simp only [hfind] at h
      split at h <;> cases h

/-- A channel that is given back. -/
theorem Opened.free (h : s.Opened) (i : ℕ) : (s.free i).Opened where
  length_eq := h.length_eq
  length_free := (List.length_set ..).trans h.length_free
  lt_made := h.lt_made
  distinct := h.distinct
  made_eq := h.made_eq
  taken j hj := by
    rcases eq_or_ne i j with rfl | hne
    · have hlt : i < s.isHttpFree.length := by
        obtain ⟨hlt, -⟩ := List.getElem?_eq_some_iff.mp hj
        exact lt_of_lt_of_eq hlt (List.length_set ..)
      have htrue : (s.free i).isHttpFree[i]? = some true := List.getElem?_set_self hlt
      rw [htrue] at hj
      cases hj
    · exact h.taken j ((List.getElem?_set_ne hne).symm.trans hj)

/-- A request takes a channel if nobody waits, or it begins to wait. -/
theorem getHttpChannel_cases (s : SingleServerChannels) :
    (∃ i s', s.getHttpChannel = (some i, s') ∧ s.httpNumWaitingRequests = 0 ∧ s.Takes i s') ∨
      s.getHttpChannel = (none, { s with httpNumWaitingRequests := s.httpNumWaitingRequests + 1 }) ∧
        (0 < s.httpNumWaitingRequests ∨ s.isHttpFree.count true = 0) := by
  unfold getHttpChannel
  by_cases hzero : s.httpNumWaitingRequests = 0
  · cases htry : s.tryGetHttpChannel with
    | none =>
        refine Or.inr ⟨?_, Or.inr (count_free_of_tryGetHttpChannel htry)⟩
        simp only [hzero, if_true]
    | some taken =>
        obtain ⟨i, s'⟩ := taken
        refine Or.inl ⟨i, s', ?_, hzero, takes_of_tryGetHttpChannel htry⟩
        simp only [hzero, if_true]
  · exact Or.inr ⟨if_neg hzero, Or.inl (Nat.pos_of_ne_zero hzero)⟩

/-- A request that wakes up takes a channel and waits no more, or it is refused. -/
theorem getHttpChannelAfterWait_cases (s : SingleServerChannels) :
    (∃ i s', s.getHttpChannelAfterWait = (some i, s') ∧
      Takes { s with httpNumWaitingRequests := s.httpNumWaitingRequests - 1 } i s') ∨
      s.getHttpChannelAfterWait =
          (none, { s with httpNumWaitingRequests := s.httpNumWaitingRequests - 1 }) ∧
        s.isHttpFree.count true = 0 := by
  unfold getHttpChannelAfterWait
  cases htry : tryGetHttpChannel
      { s with httpNumWaitingRequests := s.httpNumWaitingRequests - 1 } with
  | none =>
      have hnone := count_free_of_tryGetHttpChannel
        (s := { s with httpNumWaitingRequests := s.httpNumWaitingRequests - 1 }) htry
      exact Or.inr ⟨by simp only [htry], hnone⟩
  | some taken =>
      obtain ⟨i, s'⟩ := taken
      exact Or.inl ⟨i, s', by simp only [htry], takes_of_tryGetHttpChannel htry⟩

end SingleServerChannels

/-! ## The requests -/

namespace HttpPool

variable {x y : HttpPool} {r : ℕ} {free : List Bool} {requests requests' : List RequestPhase}
  {i : ℕ}

/-- A channel is with one request if it is taken, and with none otherwise. -/
def Busy (free : List Bool) (requests : List RequestPhase) : Prop :=
  ∀ i, requests.count (.sending i) = if free[i]? = some false then 1 else 0

/-- A channel that is taken is with the request that sends on it. -/
theorem Busy.take (h : Busy free requests) (hfree : free[i]? = some true)
    (hcount : ∀ j, requests'.count (.sending j) =
      requests.count (.sending j) + if i = j then 1 else 0) :
    Busy (free.set i false) requests' := by
  intro j
  rw [hcount, h]
  rcases eq_or_ne i j with rfl | hne
  · obtain ⟨hlt, -⟩ := List.getElem?_eq_some_iff.mp hfree
    rw [List.getElem?_set_self hlt, hfree]
    simp
  · rw [List.getElem?_set_ne hne, if_neg hne, Nat.add_zero]

/-- A channel that is given back is with nobody. -/
theorem Busy.give (h : Busy free requests) (hmem : .sending i ∈ requests)
    (hcount : ∀ j, requests'.count (.sending j) + (if i = j then 1 else 0) =
      requests.count (.sending j)) :
    Busy (free.set i true) requests' := by
  intro j
  have hj := hcount j
  rw [h j] at hj
  rcases eq_or_ne i j with rfl | hne
  · have hpos := List.count_pos_iff.mpr hmem
    rw [h i] at hpos
    have htaken : free[i]? = some false := by
      by_contra hnot
      rw [if_neg hnot] at hpos
      exact absurd hpos (Nat.lt_irrefl 0)
    obtain ⟨hlt, -⟩ := List.getElem?_eq_some_iff.mp htaken
    rw [List.getElem?_set_self hlt]
    rw [if_pos htaken, if_pos rfl] at hj
    simpa using hj
  · rw [if_neg hne, Nat.add_zero] at hj
    rw [List.getElem?_set_ne hne, hj]

/-- Requests that do not send do not matter. -/
theorem Busy.congr (h : Busy free requests)
    (hcount : ∀ j, requests'.count (.sending j) = requests.count (.sending j)) :
    Busy free requests' := by
  intro j
  rw [hcount, h]

/-- The counter counts the requests in `getHttpChannel`, and a request waits only while
another one is awake or has a channel. -/
structure Sound (x : HttpPool) : Prop where
  opened : x.channels.Opened
  busy : Busy x.channels.isHttpFree x.requests
  waiting_eq : x.channels.httpNumWaitingRequests =
    x.requests.count .waiting + x.requests.count .woken
  awake : .waiting ∈ x.requests → .woken ∈ x.requests ∨ ∃ i, .sending i ∈ x.requests

/-- At first there is neither a channel nor a request. -/
theorem sound_unused : unused.Sound where
  opened := SingleServerChannels.opened_create
  busy i := by
    have hfree : unused.channels.isHttpFree[i]? ≠ some false := by
      intro h
      have htrue := List.eq_of_mem_replicate (List.mem_of_getElem? h)
      cases htrue
    rw [if_neg hfree]
    rfl
  waiting_eq := rfl
  awake h := by cases h

/-- Where all channels are taken, somebody sends. -/
theorem Busy.exists_sending (h : Busy free requests) (hlen : 0 < free.length)
    (hnone : free.count true = 0) : ∃ i, .sending i ∈ requests := by
  have htaken : free[0]? = some false := by
    rw [List.getElem?_eq_getElem hlen]
    cases hget : free[0] with
    | false => rfl
    | true => exact absurd (hget ▸ List.getElem_mem hlen) (List.count_eq_zero.mp hnone)
  refine ⟨0, List.count_pos_iff.mp ?_⟩
  rw [h 0, if_pos htaken]
  exact Nat.one_pos

/-- A request that arrives sends or waits. -/
theorem Sound.arrive (h : x.Sound) (hstep : x.Step .arrive y) : y.Sound := by
  rcases x.channels.getHttpChannel_cases with ⟨i, s, hget, hzero, htakes⟩ | ⟨hget, hreason⟩
  · simp only [Step, hget] at hstep
    subst hstep
    refine ⟨htakes.opened h.opened, ?_, ?_, fun _ => Or.inr ⟨i, by simp⟩⟩
    · rw [htakes.isHttpFree_eq]
      apply h.busy.take htakes.free
      intro j
      rw [count_join]
      simp
    · rw [htakes.waiting_eq, h.waiting_eq, count_join, count_join]
      simp
  · simp only [Step, hget] at hstep
    subst hstep
    refine ⟨⟨h.opened.length_eq, h.opened.length_free, h.opened.lt_made, h.opened.distinct,
      h.opened.made_eq, h.opened.taken⟩, ?_, ?_, fun _ => ?_⟩
    · apply h.busy.congr
      intro j
      rw [count_join]
      simp
    · dsimp only
      rw [h.waiting_eq, count_join, count_join]
      simp
      omega
    · have hawake : .woken ∈ x.requests ∨ ∃ i, .sending i ∈ x.requests := by
        rcases hreason with hwaiting | hnone
        · rw [h.waiting_eq] at hwaiting
          rcases Nat.eq_zero_or_pos (x.requests.count .woken) with hzero | hwoken
          · exact h.awake (List.count_pos_iff.mp (by omega))
          · exact Or.inl (List.count_pos_iff.mp hwoken)
        · exact Or.inr (h.busy.exists_sending (by rw [h.opened.length_free]; decide) hnone)
      rcases hawake with hwoken | ⟨i, hsending⟩
      · exact Or.inl (List.mem_append_left _ hwoken)
      · exact Or.inr ⟨i, List.mem_append_left _ hsending⟩

/-- A request that is woken up still counts as waiting. -/
theorem Sound.wakeUp (h : x.Sound) (hstep : x.Step (.wakeUp r) y) : y.Sound := by
  obtain ⟨hphase, rfl⟩ := hstep
  have hcount := count_set_add (b := RequestPhase.woken) hphase
  refine ⟨h.opened, ?_, ?_, fun _ => Or.inl ?_⟩
  · apply h.busy.congr
    intro j
    have hj := hcount (.sending j)
    simpa using hj
  · have hwaiting := hcount .waiting
    have hwoken := hcount .woken
    simp only [reduceCtorEq, if_false, if_true] at hwaiting hwoken
    have heq := h.waiting_eq
    dsimp only
    omega
  · obtain ⟨hlt, -⟩ := List.getElem?_eq_some_iff.mp hphase
    exact List.mem_of_getElem? (List.getElem?_set_self hlt)

/-- A request that resumes waits no more. -/
theorem Sound.resume (h : x.Sound) (hstep : x.Step (.resume r) y) : y.Sound := by
  obtain ⟨hphase, hy⟩ := hstep
  obtain ⟨hlt, -⟩ := List.getElem?_eq_some_iff.mp hphase
  rcases x.channels.getHttpChannelAfterWait_cases with ⟨i, s, hget, htakes⟩ | ⟨hget, hnone⟩
  · rw [hget] at hy
    subst hy
    have hcount := count_set_add (b := RequestPhase.sending i) hphase
    refine ⟨htakes.opened ⟨h.opened.length_eq, h.opened.length_free, h.opened.lt_made,
      h.opened.distinct, h.opened.made_eq, h.opened.taken⟩, ?_, ?_, fun _ => Or.inr ⟨i, ?_⟩⟩
    · rw [htakes.isHttpFree_eq]
      apply h.busy.take htakes.free
      intro j
      have hj := hcount (.sending j)
      simpa using hj
    · have hwaiting := hcount .waiting
      have hwoken := hcount .woken
      simp only [reduceCtorEq, if_false, if_true] at hwaiting hwoken
      have heq := h.waiting_eq
      rw [htakes.waiting_eq]
      dsimp only
      omega
    · exact List.mem_of_getElem? (List.getElem?_set_self hlt)
  · rw [hget] at hy
    subst hy
    have hcount := count_set_add (b := RequestPhase.refused) hphase
    have hbusy : Busy x.channels.isHttpFree (x.requests.set r .refused) := by
      apply h.busy.congr
      intro j
      have hj := hcount (.sending j)
      simpa using hj
    refine ⟨⟨h.opened.length_eq, h.opened.length_free, h.opened.lt_made, h.opened.distinct,
      h.opened.made_eq, h.opened.taken⟩, hbusy, ?_, fun _ => Or.inr ?_⟩
    · have hwaiting := hcount .waiting
      have hwoken := hcount .woken
      simp only [reduceCtorEq, if_false, if_true] at hwaiting hwoken
      have heq := h.waiting_eq
      dsimp only
      omega
    · exact hbusy.exists_sending (by rw [h.opened.length_free]; decide) hnone

/-- A request that is done gives its channel back. -/
theorem Sound.finish {notified : Option ℕ} (h : x.Sound) (hstep : x.Step (.finish r notified) y) :
    y.Sound := by
  obtain ⟨i, hphase, hy⟩ := hstep
  have hdone := count_set_add (b := RequestPhase.finished) hphase
  have hmem := List.mem_of_getElem? hphase
  have hbusy : Busy (x.channels.isHttpFree.set i true) (x.requests.set r .finished) := by
    apply h.busy.give hmem
    intro j
    have hj := hdone (.sending j)
    simpa using hj
  have hwaiting := hdone .waiting
  have hwoken := hdone .woken
  simp only [reduceCtorEq, if_false] at hwaiting hwoken
  have heq := h.waiting_eq
  cases notified with
  | none =>
      obtain ⟨hnobody, rfl⟩ := hy
      refine ⟨h.opened.free i, hbusy, ?_, fun hw => ?_⟩
      · show x.channels.httpNumWaitingRequests = _
        dsimp only
        omega
      · have hzero := List.count_eq_zero.mpr hnobody
        have hpos := List.count_pos_iff.mpr hw
        dsimp only at hpos
        omega
  | some w =>
      obtain ⟨hw, rfl⟩ := hy
      have hne : r ≠ w := by
        rintro rfl
        rw [hphase] at hw
        cases hw
      have hw' : (x.requests.set r .finished)[w]? = some .waiting := (getElem?_set_other hne).trans hw
      have hnotify := count_set_add (b := RequestPhase.woken) hw'
      refine ⟨h.opened.free i, ?_, ?_, fun _ => Or.inl ?_⟩
      · apply hbusy.congr
        intro j
        have hj := hnotify (.sending j)
        simpa using hj
      · have hwaiting' := hnotify .waiting
        have hwoken' := hnotify .woken
        simp only [reduceCtorEq, if_false, if_true] at hwaiting' hwoken'
        show x.channels.httpNumWaitingRequests = _
        dsimp only
        omega
      · obtain ⟨hlt, -⟩ := List.getElem?_eq_some_iff.mp hw'
        exact List.mem_of_getElem? (List.getElem?_set_self hlt)

/-- **Step.** -/
theorem Sound.step {e : PoolEvent} (h : x.Sound) (hstep : x.Step e y) : y.Sound := by
  cases e with
  | arrive => exact h.arrive hstep
  | wakeUp r => exact h.wakeUp hstep
  | resume r => exact h.resume hstep
  | finish r notified => exact h.finish hstep

/-- The channels are sound in every run. -/
theorem sound_run {events : List PoolEvent} (hrun : Run Step unused events x) : x.Sound :=
  hrun.preserves Sound (fun _ _ _ hs hstep => hs.step hstep) sound_unused

/-! ## No request is refused -/

/-- A free channel is kept for every request that was notified. -/
def Reserved (x : HttpPool) : Prop :=
  x.requests.count .woken ≤ x.channels.isHttpFree.count true ∧ .refused ∉ x.requests

/-- A request that arrives takes no channel from those that have been notified. -/
theorem Reserved.arrive (hx : x.Sound) (h : x.Reserved) (hstep : x.Step .arrive y) :
    y.Reserved := by
  obtain ⟨hle, hnot⟩ := h
  rcases x.channels.getHttpChannel_cases with ⟨i, s, hget, hzero, htakes⟩ | ⟨hget, -⟩
  · simp only [Step, hget] at hstep
    subst hstep
    have heq := hx.waiting_eq
    refine ⟨?_, by simpa using hnot⟩
    dsimp only
    rw [count_join]
    simp only [reduceCtorEq, if_false]
    omega
  · simp only [Step, hget] at hstep
    subst hstep
    refine ⟨?_, by simpa using hnot⟩
    dsimp only
    rw [count_join]
    simpa using hle

/-- A notified request takes the channel that is free for it. -/
theorem Reserved.resume (h : x.Reserved) (hstep : x.Step (.resume r) y) : y.Reserved := by
  obtain ⟨hle, hnot⟩ := h
  obtain ⟨hphase, hy⟩ := hstep
  have hpos := count_pos hphase
  rcases x.channels.getHttpChannelAfterWait_cases with ⟨i, s, hget, htakes⟩ | ⟨-, hnone⟩
  · rw [hget] at hy
    subst hy
    have hwoken := count_set_add (b := RequestPhase.sending i) hphase .woken
    have hfree := count_set_add (b := false) htakes.free true
    simp only [reduceCtorEq, if_false, if_true] at hwoken hfree
    refine ⟨?_, fun hmem => ?_⟩
    · rw [htakes.isHttpFree_eq]
      dsimp only at hfree ⊢
      omega
    · rcases List.mem_or_eq_of_mem_set hmem with hold | hnew
      · exact hnot hold
      · cases hnew
  · omega

/-- For a channel that comes back one waiting request is notified. -/
theorem Reserved.finish {notified : Option ℕ} (hx : x.Sound) (h : x.Reserved)
    (hstep : x.Step (.finish r notified) y) : y.Reserved := by
  obtain ⟨hle, hnot⟩ := h
  obtain ⟨i, hphase, hy⟩ := hstep
  have hdone := count_set_add (b := RequestPhase.finished) hphase .woken
  have htaken : x.channels.isHttpFree[i]? = some false := by
    by_contra hfree
    have hcount := hx.busy i
    have hpos := count_pos hphase
    rw [if_neg hfree] at hcount
    omega
  have hfree := count_set_add (b := true) htaken true
  have hkept : .refused ∉ x.requests.set r .finished := by
    intro hmem
    rcases List.mem_or_eq_of_mem_set hmem with hold | hnew
    · exact hnot hold
    · cases hnew
  simp only [reduceCtorEq, if_false, if_true] at hdone hfree
  cases notified with
  | none =>
      obtain ⟨-, rfl⟩ := hy
      refine ⟨?_, hkept⟩
      show (x.requests.set r .finished).count .woken ≤ (x.channels.isHttpFree.set i true).count true
      omega
  | some w =>
      obtain ⟨hw, rfl⟩ := hy
      have hne : r ≠ w := by
        rintro rfl
        rw [hphase] at hw
        cases hw
      have hw' : (x.requests.set r .finished)[w]? = some .waiting := (getElem?_set_other hne).trans hw
      have hnotify := count_set_add (b := RequestPhase.woken) hw' .woken
      simp only [reduceCtorEq, if_false, if_true] at hnotify
      refine ⟨?_, fun hmem => ?_⟩
      · show ((x.requests.set r .finished).set w .woken).count .woken ≤
          (x.channels.isHttpFree.set i true).count true
        omega
      · rcases List.mem_or_eq_of_mem_set hmem with hold | hnew
        · exact hkept hold
        · cases hnew

/-- Where every wake-up is a notification, a channel is free for each notified request. -/
theorem reserved_run {events : List PoolEvent} (hrun : Run Step unused events x)
    (hnotified : ∀ e ∈ events, e.Notified) : x.Reserved := by
  have hboth := (hrun.guard hnotified).preserves (fun x => x.Sound ∧ x.Reserved) ?_
    ⟨sound_unused, ?_⟩
  · exact hboth.2
  · rintro s e t ⟨hs, hr⟩ ⟨he, hstep⟩
    refine ⟨hs.step hstep, ?_⟩
    cases e with
    | arrive => exact hr.arrive hs hstep
    | wakeUp r => exact he.elim
    | resume r => exact hr.resume hstep
    | finish r notified => exact hr.finish hs hstep
  · exact ⟨Nat.zero_le _, by simp [unused]⟩

end HttpPool

/-! ## Every request comes to an end -/

/-- How far a request is. -/
def RequestPhase.rank : RequestPhase → ℕ
  | .waiting => 1
  | .woken => 2
  | .sending _ => 3
  | .refused => 4
  | .finished => 4

/-- A request has at most four events. -/
theorem RequestPhase.rank_le (phase : RequestPhase) : phase.rank ≤ 4 := by
  cases phase <;> simp [rank]

namespace HttpPool

variable {x y : HttpPool} {r : ℕ} {requests : List RequestPhase}

/-- The progress of all requests. -/
def progress (x : HttpPool) : ℕ :=
  (x.requests.map RequestPhase.rank).sum

/-- One request goes on. -/
theorem sum_rank_set {phase : RequestPhase} (phase' : RequestPhase) (h : requests[r]? = some phase) :
    ((requests.set r phase').map RequestPhase.rank).sum + phase.rank =
      (requests.map RequestPhase.rank).sum + phase'.rank := by
  induction requests generalizing r with
  | nil => cases h
  | cons a requests ih =>
      cases r with
      | zero =>
          obtain rfl := Option.some.inj h
          rw [List.set_cons_zero, List.map_cons, List.map_cons, List.sum_cons, List.sum_cons]
          omega
      | succ r =>
          have hrest := ih h
          rw [List.set_cons_succ, List.map_cons, List.map_cons, List.sum_cons, List.sum_cons]
          omega

/-- Each event takes a request on. -/
theorem progress_step {e : PoolEvent} (hstep : x.Step e y) : x.progress < y.progress := by
  have hset : ∀ {phase phase' : RequestPhase} {l : List RequestPhase} {k : ℕ},
      l[k]? = some phase → phase.rank < phase'.rank →
        (l.map RequestPhase.rank).sum < ((l.set k phase').map RequestPhase.rank).sum := by
    intro phase phase' l k hphase hlt
    have hsum := sum_rank_set phase' hphase
    omega
  cases e with
  | arrive =>
      obtain ⟨phase, hpos, hy⟩ : ∃ phase : RequestPhase, 0 < phase.rank ∧
          y.requests = x.requests ++ [phase] := by
        rcases x.channels.getHttpChannel_cases with ⟨i, s, hget, -⟩ | ⟨hget, -⟩
        · simp only [Step, hget] at hstep
          exact ⟨.sending i, Nat.succ_pos 2, by rw [hstep]⟩
        · simp only [Step, hget] at hstep
          exact ⟨.waiting, by decide, by rw [hstep]⟩
      unfold progress
      rw [hy, List.map_append, List.sum_append, List.map_singleton, List.sum_singleton]
      omega
  | wakeUp r =>
      obtain ⟨hphase, rfl⟩ := hstep
      exact hset hphase (by decide)
  | resume r =>
      obtain ⟨hphase, hy⟩ := hstep
      rcases x.channels.getHttpChannelAfterWait_cases with ⟨i, s, hget, -⟩ | ⟨hget, -⟩
      · rw [hget] at hy
        subst hy
        exact hset hphase (Nat.lt_succ_self 2)
      · rw [hget] at hy
        subst hy
        exact hset hphase (by decide)
  | finish r notified =>
      obtain ⟨i, hphase, hy⟩ := hstep
      have hdone : x.progress < ((x.requests.set r .finished).map RequestPhase.rank).sum :=
        hset hphase (Nat.lt_succ_self 3)
      cases notified with
      | none =>
          obtain ⟨-, rfl⟩ := hy
          exact hdone
      | some w =>
          obtain ⟨hw, rfl⟩ := hy
          have hne : r ≠ w := by
            rintro rfl
            rw [hphase] at hw
            cases hw
          have hw' : (x.requests.set r .finished)[w]? = some .waiting :=
            (getElem?_set_other hne).trans hw
          exact lt_trans hdone (hset hw' (by decide))

/-- All requests together have at most four events each. -/
theorem progress_le (x : HttpPool) : x.progress ≤ 4 * x.requests.length := by
  have hsum := List.sum_le_card_nsmul (x.requests.map RequestPhase.rank) 4 (by
    intro n hn
    obtain ⟨phase, -, rfl⟩ := List.mem_map.mp hn
    exact phase.rank_le)
  rw [List.length_map, smul_eq_mul, Nat.mul_comm] at hsum
  exact hsum

/-- A run is no longer than the progress it makes. -/
theorem length_run_le {events : List PoolEvent} {x y : HttpPool} (hrun : Run Step x events y) :
    x.progress + events.length ≤ y.progress := by
  induction hrun with
  | nil s => exact le_rfl
  | cons hstep _ ih =>
      have hlt := progress_step hstep
      rw [List.length_cons]
      omega

/-- A request that is neither refused nor over can go on, or another one can. -/
theorem Sound.exists_step (h : x.Sound) (hopen : ∃ phase ∈ x.requests, phase.rank < 4) :
    ∃ r y, x.Step (.resume r) y ∨ ∃ notified, x.Step (.finish r notified) y := by
  have hresume : .woken ∈ x.requests → ∃ r y, x.Step (.resume r) y := by
    intro hmem
    obtain ⟨r, hr⟩ := List.mem_iff_getElem?.mp hmem
    exact ⟨r, _, hr, rfl⟩
  have hfinish : ∀ i, .sending i ∈ x.requests → ∃ r y notified, x.Step (.finish r notified) y := by
    intro i hmem
    obtain ⟨r, hr⟩ := List.mem_iff_getElem?.mp hmem
    by_cases hwaiting : .waiting ∈ x.requests
    · obtain ⟨w, hw⟩ := List.mem_iff_getElem?.mp hwaiting
      exact ⟨r, _, some w, i, hr, hw, rfl⟩
    · exact ⟨r, _, none, i, hr, hwaiting, rfl⟩
  have hawake : .woken ∈ x.requests ∨ ∃ i, .sending i ∈ x.requests := by
    obtain ⟨phase, hmem, hrank⟩ := hopen
    cases phase with
    | waiting => exact h.awake hmem
    | woken => exact Or.inl hmem
    | sending i => exact Or.inr ⟨i, hmem⟩
    | refused => exact absurd hrank (by decide)
    | finished => exact absurd hrank (by decide)
  rcases hawake with hwoken | ⟨i, hsending⟩
  · obtain ⟨r, y, hstep⟩ := hresume hwoken
    exact ⟨r, y, Or.inl hstep⟩
  · obtain ⟨r, y, notified, hstep⟩ := hfinish i hsending
    exact ⟨r, y, Or.inr ⟨notified, hstep⟩⟩

end HttpPool

/-- What holds of the channels and the requests at any time. -/
structure HttpPool.Exclusive (x : HttpPool) : Prop where
  one_request : ∀ (r r' : ℕ) i, x.requests[r]? = some (.sending i) →
    x.requests[r']? = some (.sending i) → r = r'
  channel : ∀ (r : ℕ) i, x.requests[r]? = some (.sending i) →
    ∃ c, x.channels.httpChannels[i]? = some (some c)
  distinct : ∀ (i j c : ℕ), x.channels.httpChannels[i]? = some (some c) →
    x.channels.httpChannels[j]? = some (some c) → i = j
  taken_iff : ∀ i : ℕ, x.channels.isHttpFree[i]? = some false ↔ .sending i ∈ x.requests
  made_le : x.channels.made ≤ MAX_HTTP_CLIENTS
  waiting_eq : x.channels.httpNumWaitingRequests =
    x.requests.count .waiting + x.requests.count .woken

/-- **A channel is with one request at a time**, in every interleaving, and no more channels
are made than there is room for. -/
theorem SingleServerChannels.channels_exclusive {events : List PoolEvent} {x : HttpPool}
    (hrun : Run HttpPool.Step HttpPool.unused events x) : x.Exclusive := by
  have hx := HttpPool.sound_run hrun
  have htaken : ∀ i : ℕ, .sending i ∈ x.requests → x.channels.isHttpFree[i]? = some false := by
    intro i hmem
    by_contra hfree
    have hcount := hx.busy i
    have hpos := List.count_pos_iff.mpr hmem
    rw [if_neg hfree] at hcount
    omega
  refine ⟨?_, ?_, hx.opened.distinct, ?_, ?_, hx.waiting_eq⟩
  · intro r r' i hr hr'
    have hle : x.requests.count (.sending i) ≤ 1 := by
      rw [hx.busy i]
      split <;> omega
    exact eq_of_count_le_one hle hr hr'
  · intro r i hr
    exact hx.opened.taken i (htaken i (List.mem_of_getElem? hr))
  · intro i
    refine ⟨fun hfree => List.count_pos_iff.mp ?_, htaken i⟩
    rw [hx.busy i, if_pos hfree]
    exact Nat.one_pos
  · rw [← hx.opened.made_eq, ← hx.opened.length_eq]
    exact List.countP_le_length

/-- Five requests, the last of which gets the channel of the first. -/
def handOver : List PoolEvent :=
  [.arrive, .arrive, .arrive, .arrive, .arrive, .finish 0 (some 4), .resume 4]

/-- The state after it. -/
def handedOver : HttpPool where
  channels :=
    { httpChannels := [some 0, some 1, some 2, some 3]
      isHttpFree := [false, false, false, false]
      httpNumWaitingRequests := 0
      made := 4 }
  requests := [.finished, .sending 1, .sending 2, .sending 3, .sending 0]

/-- The sample run ends in the sample state. -/
theorem run_handOver : Run HttpPool.Step HttpPool.unused handOver handedOver :=
  .cons rfl (.cons rfl (.cons rfl (.cons rfl (.cons rfl
    (.cons ⟨0, rfl, rfl, rfl⟩ (.cons ⟨rfl, rfl⟩ (.nil _)))))))

/-- The channel is handed over from one request to the other. -/
theorem SingleServerChannels.channels_exclusive_sample : handedOver.Exclusive :=
  SingleServerChannels.channels_exclusive run_handOver

/-- **Every request is served.**  A run is at most four events for each request long.  While
a request is not at its end, one of them can go on; and where every wake-up was a
notification, none has been refused. -/
theorem SingleServerChannels.requests_served {events : List PoolEvent} {x : HttpPool}
    (hrun : Run HttpPool.Step HttpPool.unused events x) :
    events.length ≤ 4 * x.requests.length ∧
      ((∃ phase ∈ x.requests, phase ≠ .refused ∧ phase ≠ .finished) →
        ∃ r y, x.Step (.resume r) y ∨ ∃ notified, x.Step (.finish r notified) y) ∧
      ((∀ e ∈ events, e.Notified) → .refused ∉ x.requests) := by
  refine ⟨?_, ?_, fun hnotified => (HttpPool.reserved_run hrun hnotified).2⟩
  · have hlength := HttpPool.length_run_le hrun
    have hle := x.progress_le
    omega
  · rintro ⟨phase, hmem, hne, hne'⟩
    refine (HttpPool.sound_run hrun).exists_step ⟨phase, hmem, ?_⟩
    cases phase with
    | waiting => exact Nat.lt_of_sub_pos (Nat.succ_pos 2)
    | woken => exact Nat.lt_of_sub_pos (Nat.succ_pos 1)
    | sending i => exact Nat.lt_succ_self 3
    | refused => exact absurd rfl hne
    | finished => exact absurd rfl hne'

/-- Both requests of the sample get to their end within the bound. -/
theorem SingleServerChannels.requests_served_sample :
    handOver.length ≤ 4 * handedOver.requests.length ∧ .refused ∉ handedOver.requests := by
  obtain ⟨hlength, -, hnone⟩ := SingleServerChannels.requests_served run_handOver
  refine ⟨hlength, hnone fun e he => ?_⟩
  simp only [handOver, List.mem_cons, List.not_mem_nil, or_false] at he
  rcases he with rfl | rfl | rfl | rfl | rfl | rfl | rfl <;> exact trivial

/-- A wake-up without a notification may refuse a request. -/
theorem SingleServerChannels.refused_after_wakeUp :
    ∃ x, Run HttpPool.Step HttpPool.unused
        [.arrive, .arrive, .arrive, .arrive, .arrive, .wakeUp 4, .resume 4] x ∧
      x.requests[4]? = some .refused :=
  ⟨_, .cons rfl (.cons rfl (.cons rfl (.cons rfl (.cons rfl
    (.cons ⟨rfl, rfl⟩ (.cons ⟨rfl, rfl⟩ (.nil _))))))), rfl⟩

end PrivmxEndpoint
