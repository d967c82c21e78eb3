import PrivmxEndpoint.WebSocketNotify

/-!
# Stopping the notifier

`cancelNotifier` cancels the token, sets the flag and notifies, without `_notifyMutex`, and
then joins the thread.  The thread may have found its condition false just before, and not
wait yet.  If no `cancelNotifier` notifies at that point, everything comes to rest
(`notifier_settles`).  A `cancelNotifier` that joins a thread that waits goes on only if a
notification is still on its way (`cancel_stuck_iff`).
-/

namespace PrivmxEndpoint

open Runs

/-- The events that go on with what has begun. -/
def NotifyEvent.Going : NotifyEvent → Prop
  | .lookup _ | .push _ | .signal | .consume | .cancelStep => True
  | _ => False

namespace WebSocketNotify

variable {x y : WebSocketNotify} {e : NotifyEvent} {events : List NotifyEvent}

/-- `cancelNotifier` does not notify between the test of the thread and its wait. -/
def Heard (x : WebSocketNotify) (e : NotifyEvent) : Prop :=
  e = .cancelStep → x.canceller = some .notify → x.consumer ≠ some .falling

/-! ## Everything that has begun comes to an end -/

/-- The steps that a call can still cause. -/
def callWork : QueueForNotify → ℕ
  | .lookup _ => 13
  | .push _ => 12
  | .signal => 10

/-- The steps up to the wait or to the end of the thread, but for the callbacks. -/
def consumerWork (dataToNotify cancelled : Bool) : ConsumerPhase → ℕ
  | .exited | .asleep => 0
  | .falling => 1
  | .clearing => if cancelled then 2 else 5
  | .draining => if cancelled then 3 else 6
  | .awake => if cancelled then 2 else 7
  | .test => if cancelled then 3 else if dataToNotify then 8 else 2
  | .lock => if cancelled then 4 else if dataToNotify then 9 else 3
  | .loop => if cancelled then 1 else if dataToNotify then 10 else 4

def cancelWork : CancelPhase → ℕ
  | .token => 44
  | .flag => 33
  | .notify => 22
  | .join => 11

/-- The steps of the thread, or none. -/
def threadWork (x : WebSocketNotify) : ℕ :=
  (x.consumer.map (consumerWork x.dataToNotify x.cancelled)).getD 0

/-- A bound of the steps of what has begun. -/
def work (x : WebSocketNotify) : ℕ :=
  (x.calls.map callWork).sum + x.notificationsQueue.length + x.threadWork +
    (x.canceller.map cancelWork).getD 0

/-- A call that returns takes its own work with it. -/
theorem sum_erase {call : QueueForNotify} (h : call ∈ x.calls) :
    ((x.calls.erase call).map callWork).sum + callWork call = (x.calls.map callWork).sum := by
  rw [Nat.add_comm]
  exact List.sum_map_erase callWork h

/-- Whatever the flags become, the thread has at most ten steps. -/
theorem consumerWork_le (dataToNotify cancelled : Bool) (phase : ConsumerPhase) :
    consumerWork dataToNotify cancelled phase ≤ 10 := by
  cases phase <;> cases dataToNotify <;> cases cancelled <;> decide

/-- The consumer has at most ten steps of its own left. -/
theorem threadWork_le (x : WebSocketNotify) : x.threadWork ≤ 10 := by
  unfold threadWork
  cases x.consumer with
  | none => exact Nat.zero_le _
  | some phase => exact consumerWork_le _ _ phase

/-- A signal costs less than a round of the consumer. -/
theorem threadWork_signal (hfree : x.locked = false) : x.signal.threadWork < x.threadWork + 10 := by
  unfold locked at hfree
  unfold threadWork signal wake
  dsimp only
  cases hc : x.consumer with
  | none => simp
  | some phase =>
      rw [hc] at hfree
      cases phase <;> cases hcancelled : x.cancelled <;> cases hdata : x.dataToNotify <;>
        first | exact absurd hfree (by decide) | simp [consumerWork]

/-- Every step of the consumer is progress. -/
theorem Consumes.work_lt (hstep : x.Consumes y) : y.work < x.work := by
  have hthread : y.notificationsQueue = x.notificationsQueue → y.calls = x.calls →
      y.canceller = x.canceller → y.threadWork < x.threadWork → y.work < x.work := by
    intro hqueue hcalls hcanceller hlt
    unfold work
    rw [hqueue, hcalls, hcanceller]
    exact Nat.add_lt_add_right (Nat.add_lt_add_left hlt _) _
  cases hstep with
  | call hphase hqueue =>
      simp only [work, threadWork, hqueue, List.length_cons]
      omega
  | exit hphase hflag | enter hphase hflag | leave hphase hflag | drain hphase hflag =>
      refine hthread rfl rfl rfl ?_
      cases hdata : x.dataToNotify <;> simp [threadWork, hphase, hflag, hdata, consumerWork]
  | awake hphase htrue =>
      refine hthread rfl rfl rfl ?_
      rcases htrue with hflag | hflag <;> cases hcancelled : x.cancelled <;>
        simp_all [threadWork, consumerWork]
  | fall hphase hdata hcancelled =>
      refine hthread rfl rfl rfl ?_
      simp [threadWork, hphase, hdata, hcancelled, consumerWork]
  | lock hphase | sleep hphase | drained hphase | clear hphase =>
      refine hthread rfl rfl rfl ?_
      cases hdata : x.dataToNotify <;> cases hcancelled : x.cancelled <;>
        simp [threadWork, hphase, hdata, hcancelled, consumerWork]

/-- So is every step of the cancelling thread. -/
theorem Cancels.work_lt (hstep : x.Cancels y) : y.work < x.work := by
  have hle := y.threadWork_le
  have hcancel : y.notificationsQueue = x.notificationsQueue → y.calls = x.calls →
      (y.canceller.map cancelWork).getD 0 + 11 ≤ (x.canceller.map cancelWork).getD 0 →
        y.work < x.work := by
    intro hqueue hcalls hcanceller
    unfold work
    rw [hqueue, hcalls]
    omega
  cases hstep with
  | token hphase | flag hphase | notify hphase | join hphase =>
      exact hcancel rfl rfl (by simp [hphase, cancelWork])

/-- **Step.** No step goes on without progress. -/
theorem work_step (hgoing : e.Going) (hstep : x.Step e y) : y.work < x.work := by
  cases e with
  | lookup data =>
      obtain ⟨hmem, rfl⟩ := hstep
      have hsum := sum_erase hmem
      rcases x.lookup_cases data with ⟨callback, -, heq⟩ | heq <;> rw [heq] <;>
        simp only [work, threadWork, callWork, List.map_cons, List.sum_cons] at hsum ⊢ <;> omega
  | push entry =>
      obtain ⟨hmem, rfl⟩ := hstep
      have hsum := sum_erase hmem
      simp only [work, threadWork, push, callWork, List.map_cons, List.sum_cons, List.length_append,
        List.length_singleton] at hsum ⊢
      omega
  | signal =>
      obtain ⟨hmem, hfree, rfl⟩ := hstep
      have hsum := sum_erase hmem
      have hthread := threadWork_signal hfree
      unfold work
      change ((x.calls.erase .signal).map callWork).sum + x.notificationsQueue.length +
        x.signal.threadWork + (x.canceller.map cancelWork).getD 0 < _ + _ + x.threadWork + _
      simp only [callWork] at hsum
      omega
  | consume => exact (consumes hstep).work_lt
  | cancelStep => exact (cancels hstep).work_lt
  | add | remove | begin | spurious | cancel => exact hgoing.elim

/-- **Run.** A run has no more steps than there was work. -/
theorem length_le_work (hrun : Run Step x events y) (hgoing : ∀ e ∈ events, e.Going) :
    events.length ≤ x.work := by
  induction hrun with
  | nil x => exact Nat.zero_le _
  | cons hstep _ ih =>
      have hlt := work_step (hgoing _ List.mem_cons_self) hstep
      have hrest := ih fun e he => hgoing e (List.mem_cons_of_mem _ he)
      rw [List.length_cons]
      omega

/-! ## What comes to rest -/

/-- No `cancelNotifier` joins a thread that waits or is about to. -/
def Awaited (x : WebSocketNotify) : Prop :=
  x.canceller = some .join → x.consumer ≠ some .falling ∧ x.consumer ≠ some .asleep

/-- Whoever joins has raised the flag. -/
theorem Tidy.cancelled_of (h : x.Tidy) (hjoin : x.canceller = some .join) : x.cancelled = true :=
  (h.cancelled (h.canceller (by rw [hjoin]; nofun))).mpr (by simp [hjoin])

/-- The consumer leaves the canceller awaited. -/
theorem Consumes.awaited (htidy : x.Tidy) (h : x.Awaited) (hstep : x.Consumes y) : y.Awaited := by
  cases hstep with
  | fall hphase hdata hcancelled =>
      intro hjoin
      rw [htidy.cancelled_of hjoin] at hcancelled
      cases hcancelled
  | sleep hphase => exact fun hjoin => absurd hphase (h hjoin).1
  | call hphase hqueue => exact h
  | exit | enter | lock | awake | leave | drain | drained | clear => exact fun _ => by simp

/-- The canceller is awaited unless its wake-up is lost. -/
theorem Cancels.awaited (hheard : x.canceller = some .notify → x.consumer ≠ some .falling)
    (hstep : x.Cancels y) : y.Awaited := by
  cases hstep with
  | notify hphase =>
      refine fun _ => ⟨fun hfalling => ?_, wake_ne_asleep x⟩
      rcases wake_eq hfalling with heq | hold
      · cases heq
      · exact hheard hphase hold
  | token | flag | join => exact nofun

/-- **Step.** Without a lost wake-up the cancelling thread is awaited. -/
theorem Awaited.step (htidy : x.Tidy) (h : x.Awaited) (hstep : guarded Heard Step x e y) :
    y.Awaited := by
  obtain ⟨hheard, hstep⟩ := hstep
  cases e with
  | add id callback =>
      subst hstep
      exact h
  | remove id =>
      obtain ⟨-, rfl⟩ := hstep
      exact h
  | begin data =>
      obtain ⟨hnone, -, rfl⟩ := hstep
      intro hjoin
      have hstays : (x.begin data).canceller = x.canceller := by
        unfold begin
        dsimp only
        split <;> rfl
      rw [hstays, hnone] at hjoin
      cases hjoin
  | lookup data =>
      obtain ⟨-, rfl⟩ := hstep
      rcases x.lookup_cases data with ⟨callback, -, heq⟩ | heq <;> rw [heq] <;> exact h
  | push entry =>
      obtain ⟨-, rfl⟩ := hstep
      exact h
  | signal =>
      obtain ⟨-, -, rfl⟩ := hstep
      refine fun hjoin => ⟨fun hfalling => ?_, wake_ne_asleep x⟩
      rcases wake_eq hfalling with heq | hold
      · cases heq
      · exact (h hjoin).1 hold
  | consume => exact (consumes hstep).awaited htidy h
  | spurious =>
      obtain ⟨-, rfl⟩ := hstep
      exact fun _ => by simp
  | cancel =>
      obtain ⟨-, -, rfl⟩ := hstep
      exact nofun
  | cancelStep => exact (cancels hstep).awaited (hheard rfl)

/-- Nothing is left of what has begun. -/
structure Rest (x : WebSocketNotify) : Prop where
  calls : x.calls = []
  canceller : x.canceller = none
  consumer : x.consumer = none ∨ x.consumer = some .asleep
  queue : x.notifierActive = true → x.notificationsQueue = []

/-- The thread does not go on only where it waits or has ended. -/
theorem consumer_of_stuck (h : x.consume = none) :
    x.consumer = none ∨ x.consumer = some .asleep ∨ x.consumer = some .exited := by
  unfold consume at h
  split at h
  case h_6 => split at h <;> cases h
  case h_8 hc => exact Or.inr (Or.inl hc)
  case h_9 hc => exact Or.inr (Or.inr hc)
  case h_10 hc => exact Or.inl hc
  all_goals cases h

/-- Something goes on, or all is at rest. -/
theorem exists_step (htidy : x.Tidy) (hsignalled : x.Signalled) (h : x.Awaited) :
    x.Rest ∨ ∃ e y, e.Going ∧ guarded Heard Step x e y := by
  by_contra hnot
  obtain ⟨hbusy, hstuck⟩ := not_or.mp hnot
  have hnext : ∀ e y, e.Going → e ≠ .cancelStep → ¬ x.Step e y := fun e y hgoing hne hstep =>
    hstuck ⟨e, y, hgoing, fun heq => absurd heq hne, hstep⟩
  have hconsumer := consumer_of_stuck (x := x) <|
    Option.eq_none_iff_forall_ne_some.mpr fun y hy => hnext .consume y trivial nofun hy
  have hfree : x.locked = false := by
    unfold locked
    rcases hconsumer with hc | hc | hc <;> rw [hc]
  have hcalls : x.calls = [] := by
    refine List.eq_nil_iff_forall_not_mem.mpr fun call hmem => ?_
    cases call with
    | lookup data => exact hnext (.lookup data) _ trivial nofun ⟨hmem, rfl⟩
    | push entry => exact hnext (.push entry) _ trivial nofun ⟨hmem, rfl⟩
    | signal => exact hnext .signal _ trivial nofun ⟨hmem, hfree, rfl⟩
  have hcancelling : ∀ y, x.cancelStep = some y → x.consumer = some .falling := by
    intro y hy
    by_contra hne
    exact hstuck ⟨.cancelStep, y, trivial, fun _ _ => hne, hy⟩
  have hfalling : x.consumer ≠ some .falling := by
    rcases hconsumer with hc | hc | hc <;> rw [hc] <;> nofun
  have hcanceller : x.canceller = none := by
    cases hphase : x.canceller with
    | none => rfl
    | some phase =>
        refine absurd ?_ hfalling
        cases phase with
        | token | flag | notify =>
            exact hcancelling _ (by unfold cancelStep; rw [hphase])
        | join =>
            have hactive := htidy.active
            rw [htidy.canceller (by rw [hphase]; nofun)] at hactive
            rcases hconsumer with hc | hc | hc
            · rw [hc] at hactive
              cases hactive
            · exact absurd hc (h hphase).2
            · exact hcancelling _ (by unfold cancelStep; rw [hphase, if_pos hc])
  have hrunning : x.notifierActive = true → x.cancelled = false := by
    intro hactive
    refine Bool.eq_false_iff.mpr fun htrue => ?_
    exact ((htidy.cancelled hactive).mp htrue).1 hcanceller
  have hasleep : x.consumer = none ∨ x.consumer = some .asleep := by
    rcases hconsumer with hc | hc | hc
    · exact Or.inl hc
    · exact Or.inr hc
    · have hfalse := hrunning (by rw [htidy.active, hc]; rfl)
      rw [htidy.exited hc] at hfalse
      cases hfalse
  refine hbusy ⟨hcalls, hcanceller, hasleep, fun hactive => ?_⟩
  have hfalse := hrunning hactive
  rcases hasleep with hc | hc
  · rw [htidy.active, hc] at hactive
    cases hactive
  · by_contra hqueue
    rcases hsignalled.asleep (Or.inr hc) with hdata | htrue
    · rcases hsignalled.signalled hqueue with hdata' | hmem
      · rw [hdata] at hdata'
        cases hdata'
      · rw [hcalls] at hmem
        cases hmem
    · rw [hfalse] at htrue
      cases htrue

/-- What has begun comes to an end, in whatever order it goes on: no call and no
`cancelNotifier` is left, and if there is a thread, it waits, and the callbacks of all that
was queued have been called. -/
structure Settles (x : WebSocketNotify) : Prop where
  bounded : ∀ later y, Run Step x later y → (∀ e ∈ later, e.Going) → later.length ≤ x.work
  goes_on : ∀ later y, Run (guarded Heard Step) x later y → (∀ e ∈ later, e.Going) →
    y.Rest ∨ ∃ e z, e.Going ∧ guarded Heard Step y e z
  notified : ∀ later y, Run Step x later y → y.Rest → y.notifierActive = true →
    y.notified = x.notified ++ x.notificationsQueue ++ later.flatMap NotifyEvent.pushed

/-- **The notifier settles**, as long as no `cancelNotifier` notifies between the test of the
thread and its wait. -/
theorem notifier_settles (hrun : Run (guarded Heard Step) start events x) : x.Settles := by
  have hkept : ∀ {x later y}, Run (guarded Heard Step) x later y →
      (x.Tidy ∧ x.Signalled ∧ x.Awaited) → y.Tidy ∧ y.Signalled ∧ y.Awaited := by
    intro x later y hlater
    refine hlater.preserves (fun x => x.Tidy ∧ x.Signalled ∧ x.Awaited) fun s e t h hstep => ?_
    exact ⟨h.1.step hstep.2, h.2.1.step h.1 hstep.2, h.2.2.step h.1 hstep⟩
  have hx := hkept hrun ⟨tidy_start, signalled_start, nofun⟩
  refine ⟨fun later y hlater hgoing => length_le_work hlater hgoing,
    fun later y hlater _ => ?_, fun later y hlater hrest hactive => ?_⟩
  · obtain ⟨htidy, hsignalled, hawaited⟩ := hkept hlater hx
    exact exists_step htidy hsignalled hawaited
  · rw [← fifo_run hlater, hrest.queue hactive, List.append_nil]

/-- A notification is on its way while the thread is stopped. -/
def stopping : List NotifyEvent :=
  [.add 1 (some 5), .begin [0, 0, 0, 1, 7], .lookup [0, 0, 0, 1, 7], .consume, .consume, .consume,
    .consume, .cancel, .cancelStep, .cancelStep]

/-- The thread waits, and it is about to be notified. -/
def stoppingNotifier : WebSocketNotify where
  wsChannelFuncs := [(1, some 5)]
  notificationsQueue := []
  dataToNotify := true
  notifierActive := true
  cancelled := true
  consumer := some .asleep
  canceller := some .notify
  calls := [.push { data := [0, 0, 0, 1, 7], callback := 5 }]
  notified := []

/-- A notifier that is told to stop while it sleeps comes to rest. -/
theorem notifier_settles_sample :
    Run (guarded Heard Step) start stopping stoppingNotifier ∧ stoppingNotifier.Settles := by
  have hrun : Run (guarded Heard Step) start stopping stoppingNotifier := by
    refine .cons ⟨nofun, rfl⟩ <| .cons ⟨nofun, rfl, by decide, rfl⟩ <|
      .cons ⟨nofun, by decide, rfl⟩ <| .cons ⟨nofun, rfl⟩ <| .cons ⟨nofun, rfl⟩ <|
      .cons ⟨nofun, rfl⟩ <| .cons ⟨nofun, rfl⟩ <| .cons ⟨nofun, rfl, rfl, rfl⟩ <|
      .cons ⟨fun _ => nofun, rfl⟩ <| .cons ⟨fun _ => nofun, rfl⟩ <| .nil _
  exact ⟨hrun, notifier_settles hrun⟩

/-! ## A thread that is not woken -/

/-- As long as the thread does not wake up without being notified, `cancelNotifier` does not
return, and no callback is called. -/
def Stuck (x : WebSocketNotify) : Prop :=
  ∀ later y, Run Step x later y → .spurious ∉ later →
    y.canceller = some .join ∧ y.notified = x.notified

/-- The thread waits, it is being joined, and nobody is left to notify it. -/
structure Abandoned (x : WebSocketNotify) : Prop where
  canceller : x.canceller = some .join
  consumer : x.consumer = some .asleep
  calls : x.calls = []

/-- An abandoned consumer sleeps through every event but a spurious wake-up. -/
theorem Abandoned.step (h : x.Abandoned) (hne : e ≠ .spurious) (hstep : x.Step e y) :
    y.Abandoned ∧ y.notified = x.notified := by
  cases e with
  | add id callback =>
      subst hstep
      exact ⟨⟨h.canceller, h.consumer, h.calls⟩, rfl⟩
  | remove id =>
      obtain ⟨-, rfl⟩ := hstep
      exact ⟨⟨h.canceller, h.consumer, h.calls⟩, rfl⟩
  | begin data =>
      have hnone := hstep.1
      rw [h.canceller] at hnone
      cases hnone
  | lookup data | push entry | signal =>
      have hmem := hstep.1
      rw [h.calls] at hmem
      cases hmem
  | consume =>
      unfold Step consume at hstep
      rw [h.consumer] at hstep
      cases hstep
  | spurious => exact absurd rfl hne
  | cancel =>
      have hnone := hstep.1
      rw [h.canceller] at hnone
      cases hnone
  | cancelStep =>
      unfold Step cancelStep at hstep
      rw [h.canceller, h.consumer] at hstep
      cases hstep

/-- So the thread that joins it waits for ever. -/
theorem Abandoned.stuck (h : x.Abandoned) : x.Stuck := by
  intro later y hlater hspurious
  have hguarded := hlater.guard (p := (· ≠ .spurious)) fun e he heq => hspurious (heq ▸ he)
  have hy := hguarded.preserves (fun y => y.Abandoned ∧ y.notified = x.notified)
    (fun s e t hs hstep => ?_) ⟨h, rfl⟩
  · exact ⟨hy.1.canceller, hy.2⟩
  · obtain ⟨ht, hsame⟩ := hs.1.step hstep.1 hstep.2
    exact ⟨ht, hsame.trans hs.2⟩

/-- Once the thread is woken, it ends, and it is joined. -/
theorem exists_joined (hlock : x.consumer = some .lock) (hcancelled : x.cancelled = true)
    (hjoin : x.canceller = some .join) :
    ∃ later y, Run Step x later y ∧ .spurious ∉ later ∧ y.canceller = none := by
  refine ⟨[.consume, .consume, .consume, .consume, .cancelStep],
    { x with consumer := none, notifierActive := false, canceller := none }, ?_, by simp, rfl⟩
  refine .cons (t := { x with consumer := some .test }) ?_ <|
    .cons (t := { x with consumer := some .awake }) ?_ <|
    .cons (t := { x with consumer := some .loop }) ?_ <|
    .cons (t := { x with consumer := some .exited }) ?_ <| .cons ?_ (.nil _)
  · simp [Step, consume, hlock]
  · simp [Step, consume, hcancelled]
  · simp [Step, consume, hcancelled]
  · simp [Step, consume, hcancelled]
  · simp [Step, cancelStep, hjoin]

/-- A call of `queueForNotify` can go on until it notifies the thread, if its channel is
there. -/
theorem exists_joined_of_call (hasleep : x.consumer = some .asleep)
    (hcancelled : x.cancelled = true) (hjoin : x.canceller = some .join)
    {call : QueueForNotify} (hmem : call ∈ x.calls) :
    ∃ later y, Run Step x later y ∧ .spurious ∉ later ∧ y.canceller = none := by
  have hsignal : ∀ {x : WebSocketNotify}, x.consumer = some .asleep → x.cancelled = true →
      x.canceller = some .join → .signal ∈ x.calls →
        ∃ later y, Run Step x later y ∧ .spurious ∉ later ∧ y.canceller = none := by
    intro x hasleep hcancelled hjoin hmem
    have hlock : x.signal.consumer = some .lock := by simp [signal, wake, hasleep]
    obtain ⟨later, y, hlater, hnot, hy⟩ := exists_joined (x := x.signal) hlock hcancelled hjoin
    have hfree : x.locked = false := by simp [locked, hasleep]
    exact ⟨.signal :: later, y, .cons ⟨hmem, hfree, rfl⟩ hlater, by simp [hnot], hy⟩
  have hpush : ∀ {x : WebSocketNotify} entry, x.consumer = some .asleep → x.cancelled = true →
      x.canceller = some .join → .push entry ∈ x.calls →
        ∃ later y, Run Step x later y ∧ .spurious ∉ later ∧ y.canceller = none := by
    intro x entry hasleep hcancelled hjoin hmem
    obtain ⟨later, y, hlater, hnot, hy⟩ :=
      hsignal (x := x.push entry) hasleep hcancelled hjoin List.mem_cons_self
    exact ⟨.push entry :: later, y, .cons ⟨hmem, rfl⟩ hlater, by simp [hnot], hy⟩
  cases call with
  | signal => exact hsignal hasleep hcancelled hjoin hmem
  | push entry => exact hpush entry hasleep hcancelled hjoin hmem
  | lookup data =>
      -- the channel may have been removed, and it is added again
      let added : WebSocketNotify := { x with
        wsChannelFuncs := (wschannelid data, some 0) ::
          x.wsChannelFuncs.filter (·.1 ≠ wschannelid data) }
      have hfound : added.lookup data = { added with
          calls := .push { data := data, callback := 0 } :: added.calls.erase (.lookup data) } := by
        simp [lookup, added]
      obtain ⟨later, y, hlater, hnot, hy⟩ := hpush (x := added.lookup data)
        { data := data, callback := 0 } (by rw [hfound]; exact hasleep)
        (by rw [hfound]; exact hcancelled) (by rw [hfound]; exact hjoin)
        (by rw [hfound]; exact List.mem_cons_self)
      exact ⟨.add (wschannelid data) (some 0) :: .lookup data :: later, y,
        .cons rfl (.cons ⟨hmem, rfl⟩ hlater), by simp [hnot], hy⟩

/-- **A `cancelNotifier` is stuck** for ever in the join of a thread that waits, unless a call
of `queueForNotify` is on its way. -/
theorem cancel_stuck_iff (hrun : Run Step start events x) (hjoin : x.canceller = some .join)
    (hasleep : x.consumer = some .asleep) : x.Stuck ↔ x.calls = [] := by
  constructor
  · intro hstuck
    have htidy := hrun.preserves Tidy (fun _ _ _ h hstep => h.step hstep) tidy_start
    refine List.eq_nil_iff_forall_not_mem.mpr fun call hmem => ?_
    obtain ⟨later, y, hlater, hnot, hy⟩ :=
      exists_joined_of_call hasleep (htidy.cancelled_of hjoin) hjoin hmem
    have hjoining := (hstuck later y hlater hnot).1
    rw [hy] at hjoining
    cases hjoining
  · exact fun hcalls => Abandoned.stuck ⟨hjoin, hasleep, hcalls⟩

/-- `cancelNotifier` notifies before the thread waits. -/
def lostWakeUp : List NotifyEvent :=
  [.begin [0, 0, 0, 1], .consume, .consume, .consume, .lookup [0, 0, 0, 1], .cancel, .cancelStep,
    .cancelStep, .cancelStep, .consume]

def abandonedNotifier : WebSocketNotify :=
  { start with
    dataToNotify := true
    notifierActive := true
    cancelled := true
    consumer := some .asleep
    canceller := some .join }

/-- The wake-up that comes between the test and the sleep is lost. -/
theorem cancel_stuck_iff_sample :
    Run Step start lostWakeUp abandonedNotifier ∧ abandonedNotifier.Stuck := by
  have hrun : Run Step start lostWakeUp abandonedNotifier := by
    refine .cons ⟨rfl, by decide, rfl⟩ <| .cons rfl <| .cons rfl <| .cons rfl <|
      .cons ⟨by decide, rfl⟩ <| .cons ⟨rfl, rfl, rfl⟩ <| .cons rfl <| .cons rfl <| .cons rfl <|
      .cons rfl <| .nil _
  exact ⟨hrun, (cancel_stuck_iff hrun rfl rfl).mpr rfl⟩

end WebSocketNotify

end PrivmxEndpoint
