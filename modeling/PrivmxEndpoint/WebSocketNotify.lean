import PrivmxEndpoint.BigEndian
import PrivmxEndpoint.GuardedRuns
import PrivmxEndpoint.StoreTypes

/-!
# Handing notifications to their callbacks

`WebSocketNotify` has one thread that calls the callbacks.  A notification is queued by
`queueForNotify` together with the callback of its channel, and the thread is woken by a
condition variable and empties the queue.  `cancelNotifier` stops the thread; the next
notification starts a new one, with the queue as it is.

The calls of `queueForNotify`, the thread and `cancelNotifier` are interleaved in any order,
and the thread may wake up without being notified.  Callbacks are called for all that was
queued, in order and once each, and a thread that sleeps over a queue that is not empty is
about to be notified (`notified_in_order`).
-/

namespace PrivmxEndpoint

open Runs

/-- `CallbackWithData`.  A callback is a number. -/
structure CallbackWithData where
  data : Bytes
  callback : ℕ
  deriving Repr, DecidableEq

/-- The id of the channel, as a bit pattern, in front of a notification. -/
def wschannelid (data : Bytes) : ℕ :=
  BigEndian.value (data.take 4)

/-- A call of `queueForNotify` behind its first block. -/
inductive QueueForNotify
  | lookup (data : Bytes)
  | push (entry : CallbackWithData)
  /-- The entry is queued, and `_notifyMutex` has to be locked. -/
  | signal
  deriving Repr, DecidableEq

/-- Where the thread is. -/
inductive ConsumerPhase
  /-- At the head of its loop. -/
  | loop
  /-- It wants `_notifyMutex`, in the beginning or behind a wait. -/
  | lock
  /-- It has `_notifyMutex`, up to `draining`, and tests the condition of the wait. -/
  | test
  /-- The condition was false. -/
  | falling
  /-- It waits, without `_notifyMutex`. -/
  | asleep
  /-- The condition was true. -/
  | awake
  | draining
  /-- The queue was empty. -/
  | clearing
  /-- Out of its loop. -/
  | exited
  deriving Repr, DecidableEq

/-- Where a call of `cancelNotifier` is.  It holds `_notifierMutex`. -/
inductive CancelPhase
  | token
  | flag
  | notify
  | join
  deriving Repr, DecidableEq

/-- The fields of `WebSocketNotify`, the calls that are running, and the callbacks that
were called. -/
structure WebSocketNotify where
  wsChannelFuncs : List (ℕ × Option ℕ)
  notificationsQueue : List CallbackWithData
  dataToNotify : Bool
  notifierActive : Bool
  /-- Whether the token of the thread is cancelled. -/
  cancelled : Bool
  consumer : Option ConsumerPhase
  canceller : Option CancelPhase
  calls : List QueueForNotify
  notified : List CallbackWithData
  deriving Repr, DecidableEq

/-- What happens next. -/
inductive NotifyEvent
  | add (wschannelid : ℕ) (callback : Option ℕ)
  | remove (wschannelid : ℕ)
  /-- The first block of `queueForNotify`. -/
  | begin (data : Bytes)
  | lookup (data : Bytes)
  | push (entry : CallbackWithData)
  | signal
  /-- A step of the thread. -/
  | consume
  /-- The thread wakes up without being notified. -/
  | spurious
  /-- `cancelNotifier` locks `_notifierMutex` and finds a thread. -/
  | cancel
  /-- The rest of it, step by step. -/
  | cancelStep
  deriving Repr, DecidableEq

namespace WebSocketNotify

def start : WebSocketNotify where
  wsChannelFuncs := []
  notificationsQueue := []
  dataToNotify := false
  notifierActive := false
  cancelled := false
  consumer := none
  canceller := none
  calls := []
  notified := []

/-- `notify_one` and `notify_all`: one thread at most waits. -/
def wake (x : WebSocketNotify) : WebSocketNotify :=
  { x with consumer := if x.consumer = some .asleep then some .lock else x.consumer }

/-- Whether the thread has `_notifyMutex`. -/
def locked (x : WebSocketNotify) : Bool :=
  match x.consumer with
  | some .test | some .falling | some .awake | some .draining | some .clearing => true
  | _ => false

/-- The first block of `queueForNotify`. -/
def begin (x : WebSocketNotify) (data : Bytes) : WebSocketNotify :=
  let x := { x with calls := .lookup data :: x.calls }
  if x.notifierActive then
    x
  else
    { x with notifierActive := true, cancelled := false, consumer := some .loop }

/-- A channel that is not found is an exception, and an empty callback is skipped. -/
def lookup (x : WebSocketNotify) (data : Bytes) : WebSocketNotify :=
  let calls := x.calls.erase (.lookup data)
  match x.wsChannelFuncs.lookup (wschannelid data) with
  | some (some callback) =>
      { x with calls := .push { data := data, callback := callback } :: calls }
  | _ => { x with calls := calls }

def push (x : WebSocketNotify) (entry : CallbackWithData) : WebSocketNotify :=
  { x with
    notificationsQueue := x.notificationsQueue ++ [entry]
    calls := .signal :: x.calls.erase (.push entry) }

def signal (x : WebSocketNotify) : WebSocketNotify :=
  { x.wake with dataToNotify := true, calls := x.calls.erase .signal }

/-- A step of the thread: the loop, `notifier` and the wait. -/
def consume (x : WebSocketNotify) : Option WebSocketNotify :=
  match x.consumer with
  | some .loop => some { x with consumer := some (if x.cancelled then .exited else .lock) }
  | some .lock => some { x with consumer := some .test }
  | some .test =>
      some { x with consumer := some (if x.dataToNotify || x.cancelled then .awake else .falling) }
  | some .falling => some { x with consumer := some .asleep }
  | some .awake => some { x with consumer := some (if x.cancelled then .loop else .draining) }
  | some .draining =>
      match x.notificationsQueue with
      | [] => some { x with consumer := some .clearing }
      | entry :: rest =>
          some { x with notificationsQueue := rest, notified := x.notified ++ [entry] }
  | some .clearing => some { x with consumer := some .loop, dataToNotify := false }
  | some .asleep | some .exited | none => none

/-- A step of `cancelNotifier`. -/
def cancelStep (x : WebSocketNotify) : Option WebSocketNotify :=
  match x.canceller with
  | some .token => some { x with cancelled := true, canceller := some .flag }
  | some .flag => some { x with dataToNotify := true, canceller := some .notify }
  | some .notify => some { x.wake with canceller := some .join }
  | some .join =>
      if x.consumer = some .exited then
        some { x with consumer := none, notifierActive := false, canceller := none }
      else
        none
  | none => none

/-- The next state.  A notification begins with the four bytes of its channel, and callbacks
return. -/
def Step (x : WebSocketNotify) : NotifyEvent → WebSocketNotify → Prop
  | .add id callback, y =>
      y = { x with wsChannelFuncs := (id, callback) :: x.wsChannelFuncs.filter (·.1 ≠ id) }
  | .remove id, y =>
      (x.wsChannelFuncs.lookup id).isSome ∧
        y = { x with wsChannelFuncs := x.wsChannelFuncs.filter (·.1 ≠ id) }
  | .begin data, y => x.canceller = none ∧ 4 ≤ data.length ∧ y = x.begin data
  | .lookup data, y => .lookup data ∈ x.calls ∧ y = x.lookup data
  | .push entry, y => .push entry ∈ x.calls ∧ y = x.push entry
  | .signal, y => .signal ∈ x.calls ∧ x.locked = false ∧ y = x.signal
  | .consume, y => x.consume = some y
  | .spurious, y => x.consumer = some .asleep ∧ y = { x with consumer := some .lock }
  | .cancel, y =>
      x.canceller = none ∧ x.notifierActive = true ∧ y = { x with canceller := some .token }
  | .cancelStep, y => x.cancelStep = some y

end WebSocketNotify

/-- What an event queues. -/
def NotifyEvent.pushed : NotifyEvent → List CallbackWithData
  | .push entry => [entry]
  | _ => []

namespace WebSocketNotify

variable {x y : WebSocketNotify} {e : NotifyEvent} {events : List NotifyEvent}
  {entry : CallbackWithData}

/-! ## What a step does -/

/-- The steps of the thread. -/
inductive Consumes (x : WebSocketNotify) : WebSocketNotify → Prop
  | exit (h : x.consumer = some .loop) (hcancelled : x.cancelled = true) :
      Consumes x { x with consumer := some .exited }
  | enter (h : x.consumer = some .loop) (hcancelled : x.cancelled = false) :
      Consumes x { x with consumer := some .lock }
  | lock (h : x.consumer = some .lock) : Consumes x { x with consumer := some .test }
  | awake (h : x.consumer = some .test) (htrue : x.dataToNotify = true ∨ x.cancelled = true) :
      Consumes x { x with consumer := some .awake }
  | fall (h : x.consumer = some .test) (hdata : x.dataToNotify = false)
      (hcancelled : x.cancelled = false) : Consumes x { x with consumer := some .falling }
  | sleep (h : x.consumer = some .falling) : Consumes x { x with consumer := some .asleep }
  | leave (h : x.consumer = some .awake) (hcancelled : x.cancelled = true) :
      Consumes x { x with consumer := some .loop }
  | drain (h : x.consumer = some .awake) (hcancelled : x.cancelled = false) :
      Consumes x { x with consumer := some .draining }
  | call (h : x.consumer = some .draining) {entry : CallbackWithData}
      {rest : List CallbackWithData} (hqueue : x.notificationsQueue = entry :: rest) :
      Consumes x { x with notificationsQueue := rest, notified := x.notified ++ [entry] }
  | drained (h : x.consumer = some .draining) (hqueue : x.notificationsQueue = []) :
      Consumes x { x with consumer := some .clearing }
  | clear (h : x.consumer = some .clearing) :
      Consumes x { x with consumer := some .loop, dataToNotify := false }

/-- The model's step of the consumer is one of the cases of `Consumes`. -/
theorem consumes (h : x.consume = some y) : x.Consumes y := by
  unfold consume at h
  split at h
  case h_1 hc =>
      obtain rfl := Option.some.inj h
      split
      case isTrue hcancelled => exact .exit hc hcancelled
      case isFalse hcancelled => exact .enter hc (Bool.eq_false_iff.mpr hcancelled)
  case h_2 hc => exact Option.some.inj h ▸ .lock hc
  case h_3 hc =>
      obtain rfl := Option.some.inj h
      split
      case isTrue htrue => exact .awake hc ((Bool.or_eq_true _ _).mp htrue)
      case isFalse hfalse =>
          obtain ⟨hdata, hcancelled⟩ := Bool.or_eq_false_iff.mp (Bool.eq_false_iff.mpr hfalse)
          exact .fall hc hdata hcancelled
  case h_4 hc => exact Option.some.inj h ▸ .sleep hc
  case h_5 hc =>
      obtain rfl := Option.some.inj h
      split
      case isTrue hcancelled => exact .leave hc hcancelled
      case isFalse hcancelled => exact .drain hc (Bool.eq_false_iff.mpr hcancelled)
  case h_6 hc =>
      split at h
      case h_1 hqueue => exact Option.some.inj h ▸ .drained hc hqueue
      case h_2 hqueue => exact Option.some.inj h ▸ .call hc hqueue
  case h_7 hc => exact Option.some.inj h ▸ .clear hc
  all_goals cases h

/-- The steps of `cancelNotifier`. -/
inductive Cancels (x : WebSocketNotify) : WebSocketNotify → Prop
  | token (h : x.canceller = some .token) :
      Cancels x { x with cancelled := true, canceller := some .flag }
  | flag (h : x.canceller = some .flag) :
      Cancels x { x with dataToNotify := true, canceller := some .notify }
  | notify (h : x.canceller = some .notify) : Cancels x { x.wake with canceller := some .join }
  | join (h : x.canceller = some .join) (hexited : x.consumer = some .exited) :
      Cancels x { x with consumer := none, notifierActive := false, canceller := none }

/-- The model's step of the cancelling thread is one of the cases of `Cancels`. -/
theorem cancels (h : x.cancelStep = some y) : x.Cancels y := by
  unfold cancelStep at h
  split at h
  case h_1 hc => exact Option.some.inj h ▸ .token hc
  case h_2 hc => exact Option.some.inj h ▸ .flag hc
  case h_3 hc => exact Option.some.inj h ▸ .notify hc
  case h_4 hc =>
      split at h
      case isTrue hexited => exact Option.some.inj h ▸ .join hc hexited
      case isFalse => cases h
  case h_5 => cases h

/-- A call of `queueForNotify` finds a callback, or it ends. -/
theorem lookup_cases (x : WebSocketNotify) (data : Bytes) :
    (∃ callback, x.wsChannelFuncs.lookup (wschannelid data) = some (some callback) ∧
      x.lookup data = { x with
        calls := .push { data := data, callback := callback } :: x.calls.erase (.lookup data) }) ∨
    x.lookup data = { x with calls := x.calls.erase (.lookup data) } := by
  unfold lookup
  dsimp only
  split
  case h_1 callback hfound => exact Or.inl ⟨callback, hfound, rfl⟩
  case h_2 => exact Or.inr rfl

/-! ## Order -/

/-- First in, first out. -/
theorem fifo_step (hstep : x.Step e y) :
    y.notified ++ y.notificationsQueue = x.notified ++ x.notificationsQueue ++ e.pushed := by
  cases e with
  | add id callback =>
      subst hstep
      simp [NotifyEvent.pushed]
  | remove id => simp [hstep.2, NotifyEvent.pushed]
  | begin data =>
      obtain ⟨-, -, rfl⟩ := hstep
      unfold begin
      dsimp only
      split <;> simp [NotifyEvent.pushed]
  | lookup data =>
      obtain ⟨-, rfl⟩ := hstep
      rcases x.lookup_cases data with ⟨callback, -, heq⟩ | heq <;>
        simp [heq, NotifyEvent.pushed]
  | push entry =>
      obtain ⟨-, rfl⟩ := hstep
      simp [push, NotifyEvent.pushed]
  | signal =>
      obtain ⟨-, -, rfl⟩ := hstep
      simp [signal, wake, NotifyEvent.pushed]
  | consume =>
      cases consumes hstep with
      | call h hqueue => simp [hqueue, NotifyEvent.pushed]
      | _ => simp [NotifyEvent.pushed]
  | spurious => simp [hstep.2, NotifyEvent.pushed]
  | cancel =>
      obtain ⟨-, -, rfl⟩ := hstep
      simp [NotifyEvent.pushed]
  | cancelStep => cases cancels hstep <;> simp [wake, NotifyEvent.pushed]

/-- **Run.** What was notified, followed by what is queued, is what was pushed, in order. -/
theorem fifo_run (hrun : Run Step x events y) :
    y.notified ++ y.notificationsQueue =
      x.notified ++ x.notificationsQueue ++ events.flatMap NotifyEvent.pushed := by
  induction hrun with
  | nil x => simp
  | cons hstep _ ih => rw [ih, fifo_step hstep, List.flatMap_cons, List.append_assoc]

/-- The callbacks of a state are those of channels that meet `P`. -/
structure Registered (P : ℕ → ℕ → Prop) (x : WebSocketNotify) : Prop where
  funcs : ∀ id callback, (id, some callback) ∈ x.wsChannelFuncs → P id callback
  calls : ∀ entry, .push entry ∈ x.calls → P (wschannelid entry.data) entry.callback
  entries : ∀ entry ∈ x.notified ++ x.notificationsQueue, P (wschannelid entry.data) entry.callback

/-- At the start nothing is registered. -/
theorem registered_start (P : ℕ → ℕ → Prop) : start.Registered P where
  funcs _ _ h := by cases h
  calls _ h := by cases h
  entries _ h := by cases h

/-- The entries of the next state were there, or they were about to be queued. -/
theorem Registered.of_step {P : ℕ → ℕ → Prop} (h : x.Registered P) (hstep : x.Step e y)
    (hfuncs : ∀ id callback, (id, some callback) ∈ y.wsChannelFuncs → P id callback)
    (hcalls : ∀ entry, .push entry ∈ y.calls → P (wschannelid entry.data) entry.callback)
    (hpushed : ∀ entry ∈ e.pushed, .push entry ∈ x.calls) : y.Registered P := by
  refine ⟨hfuncs, hcalls, fun entry hmem => ?_⟩
  rw [fifo_step hstep] at hmem
  rcases List.mem_append.mp hmem with hold | hnew
  · exact h.entries entry hold
  · exact h.calls entry (hpushed entry hnew)

/-- Every callback that is registered was handed to `add`. -/
theorem Registered.step {P : ℕ → ℕ → Prop} (h : x.Registered P)
    (hadd : ∀ id callback, e = .add id (some callback) → P id callback) (hstep : x.Step e y) :
    y.Registered P := by
  have hsame : y.wsChannelFuncs = x.wsChannelFuncs → y.calls ⊆ x.calls →
      (∀ entry ∈ e.pushed, .push entry ∈ x.calls) → y.Registered P := by
    intro hfuncs hcalls hpushed
    refine h.of_step hstep (hfuncs ▸ h.funcs) (fun entry hmem => ?_) hpushed
    exact h.calls entry (hcalls hmem)
  cases e with
  | add id callback =>
      refine h.of_step hstep (fun id' callback' hmem => ?_) ?_ nofun
      · rw [hstep] at hmem
        rcases List.mem_cons.mp hmem with heq | hold
        · cases heq
          exact hadd _ _ rfl
        · exact h.funcs id' callback' (List.mem_of_mem_filter hold)
      · rw [hstep]
        exact h.calls
  | remove id =>
      refine h.of_step hstep (fun id' callback' hmem => ?_) ?_ nofun
      · rw [hstep.2] at hmem
        exact h.funcs id' callback' (List.mem_of_mem_filter hmem)
      · rw [hstep.2]
        exact h.calls
  | begin data =>
      have hy := hstep.2.2
      refine h.of_step hstep ?_ (fun entry hmem => ?_) nofun
      · rw [hy]
        unfold begin
        dsimp only
        split <;> exact h.funcs
      · have hcalls : y.calls = .lookup data :: x.calls := by
          rw [hy]
          unfold begin
          dsimp only
          split <;> rfl
        rw [hcalls] at hmem
        rcases List.mem_cons.mp hmem with heq | hold
        · cases heq
        · exact h.calls entry hold
  | lookup data =>
      obtain ⟨hmem, hy⟩ := hstep
      rcases x.lookup_cases data with ⟨callback, hfound, heq⟩ | heq
      · refine h.of_step (e := .lookup data) ⟨hmem, hy⟩ ?_ (fun entry hentry => ?_) nofun
        · rw [hy, heq]
          exact h.funcs
        · rw [hy, heq] at hentry
          rcases List.mem_cons.mp hentry with hnew | hold
          · cases hnew
            obtain ⟨before, after, hfuncs, -⟩ := List.lookup_eq_some_iff.mp hfound
            refine h.funcs _ _ ?_
            rw [hfuncs]
            exact List.mem_append_right _ List.mem_cons_self
          · exact h.calls entry (List.mem_of_mem_erase hold)
      · refine hsame ?_ ?_ nofun
        · rw [hy, heq]
        · rw [hy, heq]
          exact List.erase_subset
  | push entry =>
      obtain ⟨hmem, hy⟩ := hstep
      refine h.of_step (e := .push entry) ⟨hmem, hy⟩ ?_ (fun entry' hentry => ?_) fun entry' hpushed => ?_
      · rw [hy]
        exact h.funcs
      · rw [hy] at hentry
        rcases List.mem_cons.mp hentry with heq | hold
        · cases heq
        · exact h.calls entry' (List.mem_of_mem_erase hold)
      · rw [List.mem_singleton.mp hpushed]
        exact hmem
  | signal =>
      have hy := hstep.2.2
      exact hsame (hy ▸ rfl) (hy ▸ List.erase_subset) nofun
  | consume => cases consumes hstep <;> exact hsame rfl (List.Subset.refl _) nofun
  | spurious =>
      have hy := hstep.2
      exact hsame (hy ▸ rfl) (hy ▸ List.Subset.refl _) nofun
  | cancel =>
      have hy := hstep.2.2
      exact hsame (hy ▸ rfl) (hy ▸ List.Subset.refl _) nofun
  | cancelStep => cases cancels hstep <;> exact hsame rfl (List.Subset.refl _) nofun

/-! ## No notification is forgotten -/

/-- The thread, its token and `cancelNotifier` agree. -/
structure Tidy (x : WebSocketNotify) : Prop where
  active : x.notifierActive = x.consumer.isSome
  canceller : x.canceller ≠ none → x.notifierActive = true
  cancelled : x.notifierActive = true →
    (x.cancelled = true ↔ x.canceller ≠ none ∧ x.canceller ≠ some .token)
  exited : x.consumer = some .exited → x.cancelled = true

/-- A notifier that was just made is tidy. -/
theorem tidy_start : start.Tidy where
  active := rfl
  canceller h := absurd rfl h
  cancelled h := by cases h
  exited h := by cases h

/-- A wake-up neither starts nor ends the consumer. -/
theorem isSome_wake (x : WebSocketNotify) : x.wake.consumer.isSome = x.consumer.isSome := by
  unfold wake
  dsimp only
  split
  case isTrue h => rw [h]; rfl
  case isFalse => rfl

/-- A wake-up only takes the consumer to its lock. -/
theorem wake_eq {phase : ConsumerPhase} (h : x.wake.consumer = some phase) :
    phase = .lock ∨ x.consumer = some phase := by
  unfold wake at h
  dsimp only at h
  split at h
  · exact Or.inl (Option.some.inj h).symm
  · exact Or.inr h

/-- After a wake-up the consumer is not asleep. -/
theorem wake_ne_asleep (x : WebSocketNotify) : x.wake.consumer ≠ some .asleep := by
  unfold wake
  dsimp only
  split
  · nofun
  · assumption

/-- The thread goes from one place to another. -/
theorem Tidy.congr (h : x.Tidy) (hactive : y.notifierActive = x.notifierActive)
    (hcancelled : y.cancelled = x.cancelled) (hcanceller : y.canceller = x.canceller)
    (hconsumer : y.consumer.isSome = x.consumer.isSome)
    (hexited : y.consumer = some .exited → x.cancelled = true) : y.Tidy where
  active := by rw [hactive, hconsumer, h.active]
  canceller := by rw [hcanceller, hactive]; exact h.canceller
  cancelled := by rw [hactive, hcancelled, hcanceller]; exact h.cancelled
  exited hphase := by rw [hcancelled]; exact hexited hphase

/-- The consumer keeps the notifier tidy. -/
theorem Consumes.tidy (h : x.Tidy) (hstep : x.Consumes y) : y.Tidy := by
  cases hstep with
  | exit hphase hcancelled => exact h.congr rfl rfl rfl (by rw [hphase]; rfl) fun _ => hcancelled
  | call hphase hqueue => exact h.congr rfl rfl rfl rfl h.exited
  | enter hphase | lock hphase | awake hphase | fall hphase | sleep hphase | leave hphase
  | drain hphase | drained hphase | clear hphase =>
      exact h.congr rfl rfl rfl (by rw [hphase]; rfl) nofun

/-- So does the thread that cancels it. -/
theorem Cancels.tidy (h : x.Tidy) (hstep : x.Cancels y) : y.Tidy := by
  have hrunning : ∀ {phase}, x.canceller = some phase → x.notifierActive = true := fun hphase =>
    h.canceller (by rw [hphase]; nofun)
  cases hstep with
  | token hphase => exact ⟨h.active, fun _ => hrunning hphase, fun _ => by simp, fun _ => rfl⟩
  | flag hphase =>
      have hcancelled := h.cancelled (hrunning hphase)
      rw [hphase] at hcancelled
      refine ⟨h.active, fun _ => hrunning hphase, fun _ => ?_, h.exited⟩
      simpa using hcancelled
  | notify hphase =>
      have hcancelled := h.cancelled (hrunning hphase)
      rw [hphase] at hcancelled
      refine ⟨h.active.trans (isSome_wake x).symm, fun _ => hrunning hphase, fun _ => ?_,
        fun hdone => ?_⟩
      · simpa [wake] using hcancelled
      · rcases wake_eq hdone with heq | hold
        · cases heq
        · exact h.exited hold
  | join hphase hdone => exact ⟨rfl, fun hne => absurd rfl hne, nofun, nofun⟩

/-- **Step.** Every event keeps the notifier tidy. -/
theorem Tidy.step (h : x.Tidy) (hstep : x.Step e y) : y.Tidy := by
  cases e with
  | add id callback =>
      subst hstep
      exact h.congr rfl rfl rfl rfl h.exited
  | remove id =>
      obtain ⟨-, rfl⟩ := hstep
      exact h.congr rfl rfl rfl rfl h.exited
  | begin data =>
      obtain ⟨hnone, -, rfl⟩ := hstep
      unfold begin
      dsimp only
      split
      · exact h.congr rfl rfl rfl rfl h.exited
      · exact ⟨rfl, fun hne => absurd hnone hne, fun _ => by simp [hnone], nofun⟩
  | lookup data =>
      obtain ⟨-, rfl⟩ := hstep
      rcases x.lookup_cases data with ⟨callback, -, heq⟩ | heq <;> rw [heq] <;>
        exact h.congr rfl rfl rfl rfl h.exited
  | push entry =>
      obtain ⟨-, rfl⟩ := hstep
      exact h.congr rfl rfl rfl rfl h.exited
  | signal =>
      obtain ⟨-, -, rfl⟩ := hstep
      refine h.congr rfl rfl rfl (isSome_wake x) fun hphase => ?_
      rcases wake_eq hphase with heq | hold
      · cases heq
      · exact h.exited hold
  | consume => exact (consumes hstep).tidy h
  | spurious =>
      obtain ⟨hasleep, rfl⟩ := hstep
      exact h.congr rfl rfl rfl (by rw [hasleep]; rfl) nofun
  | cancel =>
      obtain ⟨hnone, hrunning, rfl⟩ := hstep
      refine ⟨h.active, fun _ => hrunning, fun _ => ?_, h.exited⟩
      have hcancelled := h.cancelled hrunning
      rw [hnone] at hcancelled
      simpa using hcancelled
  | cancelStep => exact (cancels hstep).tidy h

/-- What is in the queue is seen, or it is about to be signalled. -/
structure Signalled (x : WebSocketNotify) : Prop where
  signalled : x.notificationsQueue ≠ [] → x.dataToNotify = true ∨ .signal ∈ x.calls
  clearing : x.consumer = some .clearing → x.notificationsQueue ≠ [] → .signal ∈ x.calls
  asleep : x.consumer = some .falling ∨ x.consumer = some .asleep →
    x.dataToNotify = false ∨ x.cancelled = true

/-- A notifier that was just made misses no signal. -/
theorem signalled_start : start.Signalled where
  signalled h := absurd rfl h
  clearing h := by cases h
  asleep h := by rcases h with h | h <;> cases h

/-- The consumer goes to sleep only over an empty queue. -/
theorem Consumes.signalled (h : x.Signalled) (hstep : x.Consumes y) : y.Signalled := by
  cases hstep with
  | fall hphase hdata => exact ⟨h.signalled, nofun, fun _ => Or.inl hdata⟩
  | sleep hphase => exact ⟨h.signalled, nofun, fun _ => h.asleep (Or.inl hphase)⟩
  | call hphase hqueue =>
      refine ⟨fun _ => h.signalled (by rw [hqueue]; nofun), fun hclearing => ?_, fun hasleep => ?_⟩
      · rw [hphase] at hclearing
        cases hclearing
      · exact h.asleep hasleep
  | drained hphase hqueue => exact ⟨h.signalled, fun _ hne => absurd hqueue hne, by simp⟩
  | clear hphase => exact ⟨fun hne => Or.inr (h.clearing hphase hne), nofun, by simp⟩
  | exit | enter | lock | awake | leave | drain => exact ⟨h.signalled, nofun, by simp⟩

/-- The thread that cancels raises the flag before it wakes the consumer. -/
theorem Cancels.signalled (htidy : x.Tidy) (h : x.Signalled) (hstep : x.Cancels y) :
    y.Signalled := by
  cases hstep with
  | token hphase => exact ⟨h.signalled, h.clearing, fun _ => Or.inr rfl⟩
  | flag hphase =>
      refine ⟨fun _ => Or.inl rfl, h.clearing, fun _ => Or.inr ?_⟩
      have hrunning := htidy.canceller (by rw [hphase]; nofun)
      exact (htidy.cancelled hrunning).mpr (by simp [hphase])
  | notify hphase =>
      refine ⟨h.signalled, fun hclearing => ?_, fun hasleep => ?_⟩
      · rcases wake_eq hclearing with heq | hold
        · cases heq
        · exact h.clearing hold
      · rcases hasleep with hfalling | hasleep
        · rcases wake_eq hfalling with heq | hold
          · cases heq
          · exact h.asleep (Or.inl hold)
        · exact absurd hasleep (wake_ne_asleep x)
  | join hphase hdone => exact ⟨h.signalled, nofun, by simp⟩

/-- **Step.** No event but the lost wake-up leaves a signal unseen. -/
theorem Signalled.step (htidy : x.Tidy) (h : x.Signalled) (hstep : x.Step e y) : y.Signalled := by
  cases e with
  | add id callback =>
      subst hstep
      exact ⟨h.signalled, h.clearing, h.asleep⟩
  | remove id =>
      obtain ⟨-, rfl⟩ := hstep
      exact ⟨h.signalled, h.clearing, h.asleep⟩
  | begin data =>
      obtain ⟨-, -, rfl⟩ := hstep
      have hkept : x.notificationsQueue ≠ [] →
          x.dataToNotify = true ∨ .signal ∈ .lookup data :: x.calls := fun hne =>
        (h.signalled hne).imp_right (List.mem_cons_of_mem _)
      unfold begin
      dsimp only
      split
      · exact ⟨hkept, fun hphase hne => List.mem_cons_of_mem _ (h.clearing hphase hne), h.asleep⟩
      · exact ⟨hkept, nofun, by simp⟩
  | lookup data =>
      obtain ⟨-, rfl⟩ := hstep
      have hkept : .signal ∈ x.calls → .signal ∈ x.calls.erase (.lookup data) := fun hmem =>
        (List.mem_erase_of_ne (by simp)).mpr hmem
      rcases x.lookup_cases data with ⟨callback, -, heq⟩ | heq
      · rw [heq]
        refine ⟨fun hne => (h.signalled hne).imp_right fun hmem => ?_, fun hphase hne => ?_, h.asleep⟩
        · exact List.mem_cons_of_mem _ (hkept hmem)
        · exact List.mem_cons_of_mem _ (hkept (h.clearing hphase hne))
      · rw [heq]
        exact ⟨fun hne => (h.signalled hne).imp_right hkept,
          fun hphase hne => hkept (h.clearing hphase hne), h.asleep⟩
  | push entry =>
      obtain ⟨-, rfl⟩ := hstep
      exact ⟨fun _ => Or.inr List.mem_cons_self, fun _ _ => List.mem_cons_self, h.asleep⟩
  | signal =>
      obtain ⟨-, hfree, rfl⟩ := hstep
      refine ⟨fun _ => Or.inl rfl, fun hphase => ?_, fun hphase => ?_⟩
      · rcases wake_eq hphase with heq | hold
        · cases heq
        · simp [locked, hold] at hfree
      · rcases hphase with hphase | hphase
        · rcases wake_eq hphase with heq | hold
          · cases heq
          · simp [locked, hold] at hfree
        · exact absurd hphase (wake_ne_asleep x)
  | consume => exact (consumes hstep).signalled h
  | spurious =>
      obtain ⟨-, rfl⟩ := hstep
      exact ⟨h.signalled, nofun, by simp⟩
  | cancel =>
      obtain ⟨-, -, rfl⟩ := hstep
      exact ⟨h.signalled, h.clearing, h.asleep⟩
  | cancelStep => exact (cancels hstep).signalled htidy h

/-- The callbacks that were called are those of the notifications that were queued, in order
and once each, for as long as the queue goes; they were added for the channels of their
notifications; and a thread that sleeps over a queue that is not empty is about to be
notified. -/
structure InOrder (events : List NotifyEvent) (x : WebSocketNotify) : Prop where
  order : x.notified ++ x.notificationsQueue = events.flatMap NotifyEvent.pushed
  registered : ∀ entry ∈ x.notified, .add (wschannelid entry.data) (some entry.callback) ∈ events
  awake : x.consumer = some .asleep → x.cancelled = false → x.notificationsQueue ≠ [] →
    .signal ∈ x.calls

/-- **Notifications are handed over in order**, and none is forgotten, whatever the order of
the steps is. -/
theorem notified_in_order (hrun : Run Step start events x) : InOrder events x := by
  have horder := fifo_run hrun
  have hregistered : x.Registered fun id callback => .add id (some callback) ∈ events := by
    have hguarded := hrun.guard (p := (· ∈ events)) fun e he => he
    refine hguarded.preserves _ (fun s e t hs h => ?_) (registered_start _)
    exact hs.step (fun id callback heq => heq ▸ h.1) h.2
  have hsignalled : x.Tidy ∧ x.Signalled :=
    hrun.preserves (fun x => x.Tidy ∧ x.Signalled)
      (fun _ _ _ h hstep => ⟨h.1.step hstep, h.2.step h.1 hstep⟩) ⟨tidy_start, signalled_start⟩
  refine ⟨horder, fun entry hmem => ?_, fun hasleep hcancelled hqueue => ?_⟩
  · exact hregistered.entries entry (List.mem_append_left _ hmem)
  · rcases hsignalled.2.asleep (Or.inr hasleep) with hdata | htrue
    · rcases hsignalled.2.signalled hqueue with hdata' | hmem
      · rw [hdata] at hdata'
        cases hdata'
      · exact hmem
    · rw [hcancelled] at htrue
      cases htrue

/-- A notification that is queued when the thread is stopped. -/
def leftOver : List NotifyEvent :=
  [.add 1 (some 5), .begin [0, 0, 0, 1, 7], .lookup [0, 0, 0, 1, 7],
    .push { data := [0, 0, 0, 1, 7], callback := 5 }, .cancel, .cancelStep, .cancelStep,
    .cancelStep, .consume, .cancelStep, .signal, .remove 1, .add 2 (some 6),
    .begin [0, 0, 0, 2], .consume, .consume, .consume, .consume, .consume]

/-- The next notification starts a thread, which calls the callback of the channel that was
removed. -/
def behindLeftOver : WebSocketNotify where
  wsChannelFuncs := [(2, some 6)]
  notificationsQueue := []
  dataToNotify := true
  notifierActive := true
  cancelled := false
  consumer := some .draining
  canceller := none
  calls := [.lookup [0, 0, 0, 2]]
  notified := [{ data := [0, 0, 0, 1, 7], callback := 5 }]

/-- What one consumer left behind is notified by the next, in order. -/
theorem notified_in_order_sample :
    Run Step start leftOver behindLeftOver ∧ InOrder leftOver behindLeftOver := by
  have hrun : Run Step start leftOver behindLeftOver := by
    refine .cons rfl <| .cons ⟨rfl, by decide, rfl⟩ <| .cons ⟨by decide, rfl⟩ <|
      .cons ⟨by decide, rfl⟩ <| .cons ⟨rfl, rfl, rfl⟩ <| .cons rfl <| .cons rfl <| .cons rfl <|
      .cons rfl <| .cons rfl <| .cons ⟨by decide, rfl, rfl⟩ <| .cons ⟨rfl, rfl⟩ <| .cons rfl <|
      .cons ⟨rfl, by decide, rfl⟩ <| .cons rfl <| .cons rfl <| .cons rfl <| .cons rfl <|
      .cons rfl <| ?_
    exact .nil _
  exact ⟨hrun, notified_in_order hrun⟩

end WebSocketNotify

end PrivmxEndpoint
