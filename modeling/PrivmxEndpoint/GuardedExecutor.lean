import PrivmxEndpoint.GuardedRuns
import PrivmxEndpoint.Headcount

/-!
# The executor and its guards

All APIs share one `Executor`: a queue of tasks and a pool of threads that take them in
turn.  An API hands over its tasks by a `GuardedExecutor`, which counts them, and whose
destructor waits until none is left.  An API that is disconnected drops its reference to
itself in a task of the same executor (`ManualManagedClass::cleanup`), so that the
destructor of its guard may run, and wait, on a thread of the pool.

The critical sections and the tests of clients and threads are interleaved in any order.
Tasks are taken in the order of the queue, each of them once, and when a destructor has
returned, every task that its guard has counted was run or skipped (`tasks_accounted`).
-/

namespace PrivmxEndpoint

open Runs Headcount

/-- `PRIVMX_EXECUTOR_THREAD_POOL_SIZE`. -/
def EXECUTOR_THREAD_POOL_SIZE : ℕ := 4

/-- `Executor::TaskData`, with what its callback does. -/
inductive TaskData
  /-- A task of a guard. -/
  | guarded (guard task : ℕ)
  /-- The owner of a guard drops its reference to itself. -/
  | cleanup (guard : ℕ)
  | stop
  deriving Repr, DecidableEq

/-- A guard before, in and after its destructor. -/
inductive GuardPhase
  | alive
  | stopping
  | destroyed
  deriving Repr, DecidableEq

/-- `GuardedExecutor`. -/
structure GuardedExecutor where
  dataToProcess : ℕ
  phase : GuardPhase
  deriving Repr, DecidableEq

/-- Where a thread of the pool is. -/
inductive ThreadPhase
  /-- In front of `pop`. -/
  | idle
  /-- Behind `pop`, before it looks at its token. -/
  | popped (task : TaskData)
  /-- In front of the callback. -/
  | called (task : TaskData)
  /-- In a task of a guard, or behind it, before it is counted down. -/
  | inTask (guard task : ℕ)
  /-- In the destructor of a guard. -/
  | waiting (guard : ℕ)
  /-- Out of its loop. -/
  | stopped
  deriving Repr, DecidableEq

/-- What became of a task that has left the queue. -/
inductive Outcome
  | ran
  /-- The guard was stopping. -/
  | skipped
  /-- The callback was not called. -/
  | dropped
  deriving Repr, DecidableEq

/-- The executor, all guards, and the calls of `GuardedExecutor::exec`: those that have found
their guard not stopping, and those that have counted their task and not yet queued it.
`taken` are the tasks that have left the queue, and the ledger says what became of them. -/
structure Executor where
  tasksToDo : List TaskData
  taken : List TaskData
  threads : List ThreadPhase
  cancelled : List Bool
  guards : List GuardedExecutor
  admitted : List (ℕ × ℕ)
  entering : List (ℕ × ℕ)
  ledger : List (TaskData × Outcome)
  deriving Repr, DecidableEq

namespace Executor

/-- `Executor::initializeThreadPool`. -/
def start (n : ℕ) : Executor where
  tasksToDo := []
  taken := []
  threads := List.replicate n .idle
  cancelled := List.replicate n false
  guards := []
  admitted := []
  entering := []
  ledger := []

def phase (x : Executor) (g : ℕ) : Option GuardPhase :=
  x.guards[g]?.map GuardedExecutor.phase

def dataToProcess (x : Executor) (g : ℕ) : ℕ :=
  (x.guards[g]?.map GuardedExecutor.dataToProcess).getD 0

def setGuard (x : Executor) (g : ℕ) (guard : GuardedExecutor) : Executor :=
  { x with guards := x.guards.set g guard }

/-- `pop`. -/
def pop (x : Executor) (w : ℕ) (task : TaskData) (rest : List TaskData) : Executor :=
  { x with
    tasksToDo := rest
    taken := x.taken ++ [task]
    threads := x.threads.set w (.popped task) }

/-- The test behind `pop`.  A thread that is cancelled drops the task that it has taken. -/
def check (x : Executor) (w : ℕ) (task : TaskData) : Executor :=
  if task = .stop ∨ x.cancelled[w]? = some true then
    { x with threads := x.threads.set w .stopped, ledger := x.ledger ++ [(task, .dropped)] }
  else
    { x with threads := x.threads.set w (.called task) }

/-- The callback: a task of a guard up to its test of `_stopping`, and a clean-up.  `last` is
whether the clean-up drops the last reference, and then it runs the destructor, which sets
`_stopping` and waits.  A stop has no callback, which makes an exception that the loop
catches. -/
def run (x : Executor) (w : ℕ) (last : Bool) : TaskData → Executor
  | .guarded g task =>
      { x with
        threads := x.threads.set w (.inTask g task)
        ledger := x.ledger ++
          [(.guarded g task, if x.phase g = some .stopping then .skipped else .ran)] }
  | .cleanup g =>
      match x.guards[g]? with
      | some guard =>
          if last = true ∧ guard.phase = .alive then
            { x.setGuard g { guard with phase := .stopping } with
              threads := x.threads.set w (.waiting g)
              ledger := x.ledger ++ [(.cleanup g, .ran)] }
          else
            { x with
              threads := x.threads.set w .idle
              ledger := x.ledger ++ [(.cleanup g, .ran)] }
      | none =>
          { x with
            threads := x.threads.set w .idle
            ledger := x.ledger ++ [(.cleanup g, .ran)] }
  | .stop =>
      { x with threads := x.threads.set w .idle, ledger := x.ledger ++ [(.stop, .dropped)] }

end Executor

/-- What happens next. -/
inductive ExecutorEvent
  /-- A guard is made. -/
  | create
  /-- `GuardedExecutor::exec` of a guard that is not stopping, up to the test of that. -/
  | exec (guard task : ℕ)
  /-- It counts its task. -/
  | enter (guard task : ℕ)
  /-- The rest of it. -/
  | push (guard task : ℕ)
  /-- `ManualManagedClass::cleanup` of an owner that has a reference to itself. -/
  | cleanup (guard : ℕ)
  /-- A thread takes a task, looks at its token, and calls the callback. -/
  | pop (thread : ℕ)
  | check (thread : ℕ)
  | run (thread : ℕ) (last : Bool)
  /-- The end of a task of a guard. -/
  | finish (thread : ℕ)
  /-- The end of a destructor that runs on a thread of the pool. -/
  | leave (thread : ℕ)
  /-- A client drops the last reference. -/
  | destroy (guard : ℕ)
  | destroyed (guard : ℕ)
  /-- `stopAllThreadInThePool`: the queue, and one thread after the other. -/
  | clear
  | cancel (thread : ℕ)
  /-- A thread finds its token cancelled at the head of its loop. -/
  | exit (thread : ℕ)
  deriving Repr, DecidableEq

namespace Executor

/-- The next state.  A guard that is destroyed is not called any more, also not by a call
that has found it not stopping before, and the calls that do nothing because the guard is
stopping are left out.  The wait of a destructor has its condition whenever the count is
zero: the task that counts down to zero sees `_stopping`, and notifies. -/
def Step (x : Executor) : ExecutorEvent → Executor → Prop
  | .create, y => y = { x with guards := x.guards ++ [{ dataToProcess := 0, phase := .alive }] }
  | .exec g task, y =>
      x.phase g = some .alive ∧ y = { x with admitted := (g, task) :: x.admitted }
  | .enter g task, y =>
      (g, task) ∈ x.admitted ∧
        ∃ guard, x.guards[g]? = some guard ∧ guard.phase ≠ .destroyed ∧
          y = { x.setGuard g { guard with dataToProcess := guard.dataToProcess + 1 } with
            admitted := x.admitted.erase (g, task)
            entering := (g, task) :: x.entering }
  | .push g task, y =>
      (g, task) ∈ x.entering ∧
        y = { x with
          entering := x.entering.erase (g, task)
          tasksToDo := x.tasksToDo ++ [.guarded g task] }
  | .cleanup g, y =>
      x.phase g = some .alive ∧ y = { x with tasksToDo := x.tasksToDo ++ [.cleanup g] }
  | .pop w, y =>
      x.threads[w]? = some .idle ∧
        ∃ task rest, x.tasksToDo = task :: rest ∧ y = x.pop w task rest
  | .check w, y => ∃ task, x.threads[w]? = some (.popped task) ∧ y = x.check w task
  | .run w last, y => ∃ task, x.threads[w]? = some (.called task) ∧ y = x.run w last task
  | .finish w, y =>
      ∃ g task guard, x.threads[w]? = some (.inTask g task) ∧ x.guards[g]? = some guard ∧
        y = { x.setGuard g { guard with dataToProcess := guard.dataToProcess - 1 } with
          threads := x.threads.set w .idle }
  | .leave w, y =>
      ∃ g guard, x.threads[w]? = some (.waiting g) ∧ x.guards[g]? = some guard ∧
        guard.dataToProcess = 0 ∧
          y = { x.setGuard g { guard with phase := .destroyed } with
            threads := x.threads.set w .idle }
  | .destroy g, y =>
      ∃ guard, x.guards[g]? = some guard ∧ guard.phase = .alive ∧
        y = x.setGuard g { guard with phase := .stopping }
  | .destroyed g, y =>
      ∃ guard, x.guards[g]? = some guard ∧ guard.phase = .stopping ∧ guard.dataToProcess = 0 ∧
        .waiting g ∉ x.threads ∧ y = x.setGuard g { guard with phase := .destroyed }
  | .clear, y =>
      y = { x with
        tasksToDo := []
        taken := x.taken ++ x.tasksToDo
        ledger := x.ledger ++ x.tasksToDo.map fun task => (task, .dropped) }
  | .cancel w, y =>
      w < x.threads.length ∧
        y = { x with cancelled := x.cancelled.set w true, tasksToDo := x.tasksToDo ++ [.stop] }
  | .exit w, y =>
      x.threads[w]? = some .idle ∧ x.cancelled[w]? = some true ∧
        y = { x with threads := x.threads.set w .stopped }

end Executor

/-- What an event puts into the queue. -/
def ExecutorEvent.pushed : ExecutorEvent → List TaskData
  | .push g task => [.guarded g task]
  | .cleanup g => [.cleanup g]
  | .cancel _ => [.stop]
  | _ => []

def TaskData.ofGuard (g : ℕ) : TaskData → Bool
  | .guarded g' _ => g' == g
  | _ => false

/-- The thread has taken a task of the guard, and not counted it down. -/
def ThreadPhase.hasTaskOf (g : ℕ) : ThreadPhase → Bool
  | .popped task => task.ofGuard g
  | .called task => task.ofGuard g
  | .inTask g' _ => g' == g
  | _ => false

/-- The thread has taken the task, and it is not in the ledger yet. -/
def ThreadPhase.holds (task : TaskData) : ThreadPhase → Bool
  | .popped held => held == task
  | .called held => held == task
  | _ => false

/-- A task of the guard whose callback was not called. -/
def droppedOf (g : ℕ) (entry : TaskData × Outcome) : Bool :=
  entry.1.ofGuard g && entry.2 == .dropped

namespace Executor

variable {x y : Executor} {g w : ℕ} {guard : GuardedExecutor} {last : Bool} {task : TaskData}
  {rest : List TaskData} {events : List ExecutorEvent} {e : ExecutorEvent} {n : ℕ}

/-! ## What a step does -/

/-- What the callback of a task does. -/
inductive Calls (x : Executor) (w : ℕ) : TaskData → Executor → Prop
  | guarded (g task : ℕ) {outcome : Outcome} (hkept : outcome ≠ .dropped)
      (hran : outcome = .ran → x.phase g ≠ some .stopping) :
      Calls x w (.guarded g task)
        { x with
          threads := x.threads.set w (.inTask g task)
          ledger := x.ledger ++ [(.guarded g task, outcome)] }
  | cleanup (g : ℕ) :
      Calls x w (.cleanup g)
        { x with
          threads := x.threads.set w .idle
          ledger := x.ledger ++ [(.cleanup g, .ran)] }
  | last (g : ℕ) {guard : GuardedExecutor} (hguard : x.guards[g]? = some guard)
      (halive : guard.phase = .alive) :
      Calls x w (.cleanup g)
        { x with
          threads := x.threads.set w (.waiting g)
          guards := x.guards.set g { guard with phase := .stopping }
          ledger := x.ledger ++ [(.cleanup g, .ran)] }
  | stop :
      Calls x w .stop
        { x with threads := x.threads.set w .idle, ledger := x.ledger ++ [(.stop, .dropped)] }

/-- These are all the ways in which a callback begins. -/
theorem calls_run (x : Executor) (w : ℕ) (last : Bool) (task : TaskData) :
    x.Calls w task (x.run w last task) := by
  cases task with
  | guarded g task =>
      refine .guarded g task ?_ ?_
      · split <;> simp
      · intro hran
        split at hran
        · cases hran
        · assumption
  | cleanup g =>
      unfold run
      dsimp only
      split
      · rename_i guard hguard
        split
        · rename_i halive
          exact .last g hguard halive.2
        · exact .cleanup g
      · exact .cleanup g
  | stop => exact .stop

/-- Behind `pop` a thread drops the task, or it goes on to the callback. -/
theorem check_cases (x : Executor) (w : ℕ) (task : TaskData) :
    (task = .stop ∨ x.cancelled[w]? = some true) ∧ x.check w task =
        { x with threads := x.threads.set w .stopped, ledger := x.ledger ++ [(task, .dropped)] } ∨
      task ≠ .stop ∧ x.check w task = { x with threads := x.threads.set w (.called task) } := by
  unfold check
  split
  · rename_i hdrops
    exact Or.inl ⟨hdrops, rfl⟩
  · rename_i hkeeps
    exact Or.inr ⟨fun hstop => hkeeps (Or.inl hstop), rfl⟩

/-! ## The life of a guard -/

/-- The phase of a guard that has been made. -/
theorem phase_of (h : x.guards[g]? = some guard) : x.phase g = some guard.phase := by
  unfold phase
  rw [h]
  rfl

/-- The count of a guard that has been made. -/
theorem dataToProcess_of (h : x.guards[g]? = some guard) :
    x.dataToProcess g = guard.dataToProcess := by
  unfold dataToProcess
  rw [h]
  rfl

/-- What a step does to one guard. -/
inductive GuardStep : Option GuardedExecutor → Option GuardedExecutor → Prop
  | same (entry : Option GuardedExecutor) : GuardStep entry entry
  | create : GuardStep none (some { dataToProcess := 0, phase := .alive })
  | count {guard : GuardedExecutor} (hlives : guard.phase ≠ .destroyed) :
      GuardStep (some guard) (some { guard with dataToProcess := guard.dataToProcess + 1 })
  | countDown (guard : GuardedExecutor) :
      GuardStep (some guard) (some { guard with dataToProcess := guard.dataToProcess - 1 })
  | stop {guard : GuardedExecutor} (halive : guard.phase = .alive) :
      GuardStep (some guard) (some { guard with phase := .stopping })
  | destroy {guard : GuardedExecutor} (hzero : guard.dataToProcess = 0) :
      GuardStep (some guard) (some { guard with phase := .destroyed })

/-- One guard changes, and the others are as they were. -/
theorem GuardStep.set {guard' : GuardedExecutor} (h : GuardStep (some guard) (some guard'))
    (hguard : x.guards[g]? = some guard) (g' : ℕ) :
    GuardStep x.guards[g']? (x.guards.set g guard')[g']? := by
  rcases eq_or_ne g g' with rfl | hne
  · obtain ⟨hlt, -⟩ := List.getElem?_eq_some_iff.mp hguard
    rw [List.getElem?_set_self hlt, hguard]
    exact h
  · rw [List.getElem?_set_ne hne]
    exact .same _

/-- A callback changes a guard only by its destructor. -/
theorem Calls.guardStep (h : x.Calls w task y) (g : ℕ) : GuardStep x.guards[g]? y.guards[g]? := by
  cases h with
  | guarded g' task hkept hran => exact .same _
  | cleanup g' => exact .same _
  | last g' hguard halive => exact (GuardStep.stop halive).set hguard g
  | stop => exact .same _

/-- **Guards.** Whatever happens takes each guard one step on in its life. -/
theorem Step.guardStep (hstep : x.Step e y) (g : ℕ) : GuardStep x.guards[g]? y.guards[g]? := by
  cases e with
  | create =>
      subst hstep
      rcases Nat.lt_trichotomy g x.guards.length with hlt | rfl | hgt
      · rw [List.getElem?_append_left hlt]
        exact .same _
      · rw [List.getElem?_concat_length, List.getElem?_eq_none le_rfl]
        exact .create
      · rw [List.getElem?_eq_none hgt.le, List.getElem?_eq_none (by simp; omega)]
        exact .same _
  | enter g' task =>
      obtain ⟨-, guard, hguard, hlives, rfl⟩ := hstep
      exact (GuardStep.count hlives).set hguard g
  | run w last =>
      obtain ⟨task, -, rfl⟩ := hstep
      exact (calls_run x w last task).guardStep g
  | finish w =>
      obtain ⟨g', task, guard, -, hguard, rfl⟩ := hstep
      exact (GuardStep.countDown guard).set hguard g
  | leave w =>
      obtain ⟨g', guard, -, hguard, hzero, rfl⟩ := hstep
      exact (GuardStep.destroy hzero).set hguard g
  | destroy g' =>
      obtain ⟨guard, hguard, halive, rfl⟩ := hstep
      exact (GuardStep.stop halive).set hguard g
  | destroyed g' =>
      obtain ⟨guard, hguard, -, hzero, -, rfl⟩ := hstep
      exact (GuardStep.destroy hzero).set hguard g
  | check w =>
      obtain ⟨task, -, rfl⟩ := hstep
      rcases check_cases x w task with ⟨-, heq⟩ | ⟨-, heq⟩ <;> rw [heq] <;> exact .same _
  | exec g' task => rw [hstep.2]; exact .same _
  | push g' task => rw [hstep.2]; exact .same _
  | cleanup g' => rw [hstep.2]; exact .same _
  | pop w =>
      obtain ⟨-, task, rest, -, rfl⟩ := hstep
      exact .same _
  | clear => rw [hstep]; exact .same _
  | cancel w => rw [hstep.2]; exact .same _
  | exit w => rw [hstep.2.2]; exact .same _

/-- The destructor of the guard has begun. -/
def Ended (x : Executor) (g : ℕ) : Prop :=
  x.phase g = some .stopping ∨ x.phase g = some .destroyed

/-- A destructor that has begun does not end in a guard that is alive. -/
theorem Step.ended (hstep : x.Step e y) (hended : x.Ended g) : y.Ended g := by
  have hguard := hstep.guardStep g
  unfold Ended phase at hended ⊢
  generalize x.guards[g]? = before at hguard hended
  generalize y.guards[g]? = after at hguard
  cases hguard with
  | same entry => exact hended
  | create => simp at hended
  | count hlives => exact hended
  | countDown guard => exact hended
  | stop halive => exact Or.inl rfl
  | destroy hzero => exact Or.inr rfl

/-- A guard that is destroyed has counted down all its tasks. -/
def Emptied (x : Executor) : Prop :=
  ∀ g, x.phase g = some .destroyed → x.dataToProcess g = 0

/-- A destructor returns when nothing is counted, and then nothing is. -/
theorem Emptied.step (h : x.Emptied) (hstep : x.Step e y) : y.Emptied := by
  intro g hg
  have hguard := hstep.guardStep g
  have hbefore := h g
  unfold phase at hg hbefore
  unfold dataToProcess at hbefore ⊢
  generalize x.guards[g]? = before at hguard hbefore
  generalize y.guards[g]? = after at hguard hg
  cases hguard with
  | same entry => exact hbefore hg
  | create => rfl
  | count hlives => exact absurd (Option.some.inj hg) hlives
  | countDown guard =>
      have hzero : guard.dataToProcess = 0 := hbefore hg
      simp [hzero]
  | stop halive => cases hg
  | destroy hzero => exact hzero

/-! ## Every task is accounted for -/

/-- The tasks of a guard that were counted and have not counted down. -/
def outstanding (x : Executor) (g : ℕ) : ℕ :=
  x.entering.countP (fun call => call.1 == g) + x.tasksToDo.countP (TaskData.ofGuard g) +
    x.threads.countP (ThreadPhase.hasTaskOf g) + x.ledger.countP (droppedOf g)

/-- The counts of the guards are those of their tasks. -/
def Counts (x : Executor) : Prop :=
  ∀ g, x.dataToProcess g = x.outstanding g

/-- The count of one guard is new, and the others are as they were. -/
theorem dataToProcess_set (guard' : GuardedExecutor) (h : x.guards[g]? = some guard) (g' : ℕ) :
    ((x.guards.set g guard')[g']?.map GuardedExecutor.dataToProcess).getD 0 =
      if g = g' then guard'.dataToProcess else x.dataToProcess g' := by
  rcases eq_or_ne g g' with rfl | hne
  · obtain ⟨hlt, -⟩ := List.getElem?_eq_some_iff.mp h
    rw [if_pos rfl, List.getElem?_set_self hlt]
    rfl
  · rw [if_neg hne, List.getElem?_set_ne hne]
    rfl

/-- A new guard has no tasks. -/
theorem dataToProcess_create (x : Executor) (g : ℕ) :
    dataToProcess { x with guards := x.guards ++ [{ dataToProcess := 0, phase := .alive }] } g =
      x.dataToProcess g := by
  unfold dataToProcess
  dsimp only
  rcases Nat.lt_trichotomy g x.guards.length with hlt | rfl | hgt
  · rw [List.getElem?_append_left hlt]
  · simp
  · rw [List.getElem?_eq_none (by simp; omega), List.getElem?_eq_none (Nat.le_of_lt hgt)]

/-- Only the phase of the guard is new. -/
theorem dataToProcess_set_phase (phase : GuardPhase) (h : x.guards[g]? = some guard) (g' : ℕ) :
    ((x.guards.set g { guard with phase := phase })[g']?.map GuardedExecutor.dataToProcess).getD 0 =
      x.dataToProcess g' := by
  rw [dataToProcess_set _ h]
  rcases eq_or_ne g g' with rfl | hne
  · rw [if_pos rfl, dataToProcess_of h]
  · rw [if_neg hne]

/-- A step that neither counts nor counts down. -/
theorem Counts.congr (h : x.Counts) (hdata : ∀ g, y.dataToProcess g = x.dataToProcess g)
    (hout : ∀ g, y.outstanding g = x.outstanding g) : y.Counts := fun g => by
  rw [hdata, hout, h g]

/-- A thread goes on with as many tasks of a guard as before. -/
theorem countP_set_hasTaskOf {a b : ThreadPhase} (hthread : x.threads[w]? = some a)
    (hsame : b.hasTaskOf g = a.hasTaskOf g) :
    (x.threads.set w b).countP (ThreadPhase.hasTaskOf g) =
      x.threads.countP (ThreadPhase.hasTaskOf g) := by
  have hcount := countP_set_add (p := ThreadPhase.hasTaskOf g) (b := b) hthread
  rw [hsame] at hcount
  exact Nat.add_right_cancel hcount

/-- The task that is counted is on its way to the queue. -/
theorem Counts.enter (h : x.Counts) (hguard : x.guards[g]? = some guard)
    (admitted : List (ℕ × ℕ)) (task : ℕ) :
    Counts { x.setGuard g { guard with dataToProcess := guard.dataToProcess + 1 } with
      admitted := admitted
      entering := (g, task) :: x.entering } := by
  intro g'
  have hold := h g'
  refine (dataToProcess_set { guard with dataToProcess := guard.dataToProcess + 1 } hguard g').trans ?_
  rcases eq_or_ne g g' with rfl | hne
  · rw [dataToProcess_of hguard] at hold
    rw [if_pos rfl, hold]
    simp only [outstanding, setGuard, List.countP_cons, beq_self_eq_true, if_true]
    omega
  · rw [if_neg hne, hold]
    simp [outstanding, setGuard, hne]

/-- A task goes from the call to the queue. -/
theorem Counts.push (h : x.Counts) {task : ℕ} (hmem : (g, task) ∈ x.entering) :
    Counts { x with
      entering := x.entering.erase (g, task)
      tasksToDo := x.tasksToDo ++ [.guarded g task] } := by
  refine h.congr (fun _ => rfl) fun g' => ?_
  have herase := (List.perm_cons_erase hmem).countP_eq (fun call => call.1 == g')
  rw [List.countP_cons] at herase
  simp only [outstanding, List.countP_append, List.countP_singleton, TaskData.ofGuard]
  rcases eq_or_ne g g' with rfl | hne
  · simp only [beq_self_eq_true, if_true] at herase ⊢
    omega
  · simp only [beq_eq_false_iff_ne.mpr hne, Bool.false_eq_true, if_false] at herase ⊢
    omega

/-- What is queued is no task of a guard. -/
theorem Counts.queue (h : x.Counts) (hother : ∀ g, task.ofGuard g = false)
    (cancelled : List Bool) :
    Counts { x with cancelled := cancelled, tasksToDo := x.tasksToDo ++ [task] } := by
  refine h.congr (fun _ => rfl) fun g => ?_
  simp [outstanding, hother g]

/-- It goes from the queue to a thread. -/
theorem Counts.pop (h : x.Counts) (hidle : x.threads[w]? = some .idle)
    (hqueue : x.tasksToDo = task :: rest) : (x.pop w task rest).Counts := by
  refine h.congr (fun _ => rfl) fun g => ?_
  have hcount := countP_set_add (p := ThreadPhase.hasTaskOf g) (b := .popped task) hidle
  simp only [outstanding, Executor.pop, hqueue, List.countP_cons]
  by_cases htask : task.ofGuard g = true <;> simp [ThreadPhase.hasTaskOf, htask] at hcount ⊢ <;>
    omega

/-- A thread puts the task that it has into the ledger. -/
theorem outstanding_ledger {a b : ThreadPhase} {outcome : Outcome}
    (hthread : x.threads[w]? = some a) (ha : a.hasTaskOf g = task.ofGuard g)
    (hb : b.hasTaskOf g = (task.ofGuard g && outcome != .dropped)) :
    outstanding { x with
      threads := x.threads.set w b
      ledger := x.ledger ++ [(task, outcome)] } g = x.outstanding g := by
  have hcount := countP_set_add (p := ThreadPhase.hasTaskOf g) (b := b) hthread
  rw [ha, hb] at hcount
  simp only [outstanding, List.countP_append, List.countP_singleton, droppedOf]
  by_cases htask : task.ofGuard g = true <;> by_cases hdropped : outcome = .dropped <;>
    simp [htask, hdropped] at hcount ⊢ <;> omega

/-- It stays with the thread, or is dropped. -/
theorem Counts.check (h : x.Counts) (hthread : x.threads[w]? = some (.popped task)) :
    (x.check w task).Counts := by
  rcases check_cases x w task with ⟨-, heq⟩ | ⟨-, heq⟩
  · rw [heq]
    refine h.congr (fun _ => rfl) fun g => outstanding_ledger hthread rfl ?_
    simp [ThreadPhase.hasTaskOf]
  · rw [heq]
    refine h.congr (fun _ => rfl) fun g => ?_
    have hcount := countP_set_hasTaskOf (b := .called task) (g := g) hthread rfl
    simp only [outstanding, hcount]

/-- No callback counts or counts down at its beginning. -/
theorem Calls.dataToProcess_eq (h : x.Calls w task y) (g : ℕ) :
    y.dataToProcess g = x.dataToProcess g := by
  cases h with
  | guarded g' task hkept hran => rfl
  | cleanup g' => rfl
  | last g' hguard halive => exact dataToProcess_set_phase _ hguard g
  | stop => rfl

/-- The task stays with the thread while it runs or is skipped. -/
theorem Counts.run (h : x.Counts) (hthread : x.threads[w]? = some (.called task))
    (last : Bool) : (x.run w last task).Counts := by
  have hcalls := calls_run x w last task
  refine h.congr hcalls.dataToProcess_eq fun g => ?_
  generalize x.run w last task = y at hcalls
  cases hcalls with
  | guarded g' task hkept hran =>
      refine outstanding_ledger hthread rfl ?_
      simp [ThreadPhase.hasTaskOf, TaskData.ofGuard, hkept]
  | cleanup g' => exact outstanding_ledger hthread rfl rfl
  | last g' hguard halive => exact outstanding_ledger (b := .waiting g') hthread rfl rfl
  | stop => exact outstanding_ledger hthread rfl rfl

/-- At the end of a task it is counted down. -/
theorem Counts.finish (h : x.Counts) {task : ℕ} (hthread : x.threads[w]? = some (.inTask g task))
    (hguard : x.guards[g]? = some guard) :
    Counts { x.setGuard g { guard with dataToProcess := guard.dataToProcess - 1 } with
      threads := x.threads.set w .idle } := by
  intro g'
  have hold := h g'
  have hcount := countP_set_add (p := ThreadPhase.hasTaskOf g') (b := .idle) hthread
  refine (dataToProcess_set { guard with dataToProcess := guard.dataToProcess - 1 } hguard g').trans ?_
  simp only [outstanding, setGuard] at hold ⊢
  rcases eq_or_ne g g' with rfl | hne
  · rw [dataToProcess_of hguard] at hold
    simp only [ThreadPhase.hasTaskOf, beq_self_eq_true, Bool.false_eq_true, if_true, if_false]
      at hcount ⊢
    omega
  · simp only [ThreadPhase.hasTaskOf, beq_eq_false_iff_ne.mpr hne, Bool.false_eq_true, if_false]
      at hcount
    rw [if_neg hne]
    omega

/-- A thread that has no task goes to a phase without one, and only the phase of one guard
is new. -/
theorem Counts.leave (h : x.Counts) {a b : ThreadPhase} (hthread : x.threads[w]? = some a)
    (hb : ∀ g, b.hasTaskOf g = a.hasTaskOf g) {guards : List GuardedExecutor}
    (hdata : ∀ g, dataToProcess { x with guards := guards } g = x.dataToProcess g) :
    Counts { x with guards := guards, threads := x.threads.set w b } := by
  refine h.congr hdata fun g => ?_
  simp only [outstanding, countP_set_hasTaskOf hthread (hb g)]

/-- Tasks that are cleared are dropped, and stay counted. -/
theorem Counts.clear (h : x.Counts) :
    Counts { x with
      tasksToDo := []
      taken := x.taken ++ x.tasksToDo
      ledger := x.ledger ++ x.tasksToDo.map fun task => (task, .dropped) } := by
  refine h.congr (fun _ => rfl) fun g => ?_
  have hdropped : (x.tasksToDo.map fun task => (task, Outcome.dropped)).countP (droppedOf g) =
      x.tasksToDo.countP (TaskData.ofGuard g) := by
    rw [List.countP_map]
    congr 1
    funext task
    simp [droppedOf]
  simp only [outstanding, List.countP_append, List.countP_nil, hdropped]
  omega

/-- **Step.** -/
theorem Counts.step (h : x.Counts) (hstep : x.Step e y) : y.Counts := by
  cases e with
  | create =>
      subst hstep
      exact h.congr (dataToProcess_create x) fun _ => rfl
  | exec g task => rw [hstep.2]; exact h
  | enter g task =>
      obtain ⟨-, guard, hguard, -, rfl⟩ := hstep
      exact h.enter hguard _ task
  | push g task =>
      obtain ⟨hmem, rfl⟩ := hstep
      exact h.push hmem
  | cleanup g =>
      obtain ⟨-, rfl⟩ := hstep
      exact h.queue (fun _ => rfl) x.cancelled
  | pop w =>
      obtain ⟨hidle, task, rest, hqueue, rfl⟩ := hstep
      exact h.pop hidle hqueue
  | check w =>
      obtain ⟨task, hthread, rfl⟩ := hstep
      exact h.check hthread
  | run w last =>
      obtain ⟨task, hthread, rfl⟩ := hstep
      exact h.run hthread last
  | finish w =>
      obtain ⟨g, task, guard, hthread, hguard, rfl⟩ := hstep
      exact h.finish hthread hguard
  | leave w =>
      obtain ⟨g, guard, hthread, hguard, -, rfl⟩ := hstep
      exact h.leave (b := .idle) hthread (fun _ => rfl) (dataToProcess_set_phase .destroyed hguard)
  | destroy g =>
      obtain ⟨guard, hguard, -, rfl⟩ := hstep
      exact h.congr (dataToProcess_set_phase _ hguard) fun _ => rfl
  | destroyed g =>
      obtain ⟨guard, hguard, -, -, -, rfl⟩ := hstep
      exact h.congr (dataToProcess_set_phase _ hguard) fun _ => rfl
  | clear => subst hstep; exact h.clear
  | cancel w =>
      obtain ⟨-, rfl⟩ := hstep
      exact h.queue (fun _ => rfl) _
  | exit w =>
      obtain ⟨hidle, -, rfl⟩ := hstep
      exact h.leave (b := .stopped) hidle (fun _ => rfl) fun _ => rfl

/-- The counts, and nothing is left of a guard that is destroyed. -/
structure Counted (x : Executor) : Prop where
  counted : x.Counts
  destroyed : x.Emptied

/-- At first there is nothing to count. -/
theorem counted_start (n : ℕ) : (start n).Counted where
  counted g := by
    have hthreads : (List.replicate n ThreadPhase.idle).countP (ThreadPhase.hasTaskOf g) = 0 := by
      rw [List.countP_replicate]
      rfl
    simp only [outstanding, start, hthreads]
    rfl
  destroyed g h := by cases h

/-- **Step.** The counts, and the guards that are destroyed. -/
theorem Counted.step (h : x.Counted) (hstep : x.Step e y) : y.Counted where
  counted := h.counted.step hstep
  destroyed := h.destroyed.step hstep

/-- The counts are right in every run. -/
theorem counted_run (hrun : Run Step (start n) events x) : x.Counted :=
  hrun.preserves Counted (fun _ _ _ hs hstep => hs.step hstep) (counted_start n)

/-! ## The order of the queue -/

/-- A callback does not touch the queue. -/
theorem Calls.queue_eq (h : x.Calls w task y) : y.taken = x.taken ∧ y.tasksToDo = x.tasksToDo := by
  cases h <;> exact ⟨rfl, rfl⟩

/-- What has left the queue, followed by the queue, only grows at its end. -/
theorem fifo_step (hstep : x.Step e y) :
    y.taken ++ y.tasksToDo = x.taken ++ x.tasksToDo ++ e.pushed := by
  cases e with
  | create => rw [hstep]; exact (List.append_nil _).symm
  | exec g task => rw [hstep.2]; exact (List.append_nil _).symm
  | enter g task =>
      obtain ⟨-, guard, -, -, rfl⟩ := hstep
      exact (List.append_nil _).symm
  | push g task =>
      obtain ⟨-, rfl⟩ := hstep
      exact (List.append_assoc ..).symm
  | cleanup g =>
      obtain ⟨-, rfl⟩ := hstep
      exact (List.append_assoc ..).symm
  | pop w =>
      obtain ⟨-, task, rest, hqueue, rfl⟩ := hstep
      simp [pop, hqueue, ExecutorEvent.pushed]
  | check w =>
      obtain ⟨task, -, rfl⟩ := hstep
      rcases check_cases x w task with ⟨-, heq⟩ | ⟨-, heq⟩ <;> rw [heq] <;>
        exact (List.append_nil _).symm
  | run w last =>
      obtain ⟨task, -, rfl⟩ := hstep
      obtain ⟨htaken, hqueue⟩ := (calls_run x w last task).queue_eq
      rw [htaken, hqueue]
      exact (List.append_nil _).symm
  | finish w =>
      obtain ⟨g, task, guard, -, -, rfl⟩ := hstep
      exact (List.append_nil _).symm
  | leave w =>
      obtain ⟨g, guard, -, -, -, rfl⟩ := hstep
      exact (List.append_nil _).symm
  | destroy g =>
      obtain ⟨guard, -, -, rfl⟩ := hstep
      exact (List.append_nil _).symm
  | destroyed g =>
      obtain ⟨guard, -, -, -, -, rfl⟩ := hstep
      exact (List.append_nil _).symm
  | clear => rw [hstep]; rfl
  | cancel w =>
      obtain ⟨-, rfl⟩ := hstep
      exact (List.append_assoc ..).symm
  | exit w =>
      obtain ⟨-, -, rfl⟩ := hstep
      exact (List.append_nil _).symm

/-- So it does in a run, by what the events put there. -/
theorem fifo_run (hrun : Run Step x events y) :
    y.taken ++ y.tasksToDo = x.taken ++ x.tasksToDo ++ events.flatMap ExecutorEvent.pushed := by
  induction hrun with
  | nil x => simp
  | cons hstep _ ih => rw [ih, fifo_step hstep, List.flatMap_cons, List.append_assoc _ _ _]

/-- A task that has left the queue is in the ledger or with a thread, once each time that
it has left. -/
def Logged (x : Executor) : Prop :=
  ∀ task, x.taken.count task =
    (x.ledger.map Prod.fst).count task + x.threads.countP (ThreadPhase.holds task)

/-- At first nothing has left the queue. -/
theorem logged_start (n : ℕ) : (start n).Logged := by
  intro task
  have hthreads : (List.replicate n ThreadPhase.idle).countP (ThreadPhase.holds task) = 0 := by
    rw [List.countP_replicate]
    rfl
  simp only [start, hthreads]
  rfl

/-- A thread goes from a phase to another one, and neither holds a task. -/
theorem Logged.thread (h : x.Logged) {a b : ThreadPhase} (hthread : x.threads[w]? = some a)
    (hsame : ∀ task, b.holds task = a.holds task) (task : TaskData) :
    x.taken.count task = (x.ledger.map Prod.fst).count task +
      (x.threads.set w b).countP (ThreadPhase.holds task) := by
  have hcount := countP_set_add (p := ThreadPhase.holds task) (b := b) hthread
  rw [hsame] at hcount
  rw [Nat.add_right_cancel hcount]
  exact h task

/-- A thread puts the task that it holds into the ledger. -/
theorem Logged.ledger (h : x.Logged) {a b : ThreadPhase} {outcome : Outcome}
    (hthread : x.threads[w]? = some a) (ha : ∀ task', a.holds task' = (task == task'))
    (hb : ∀ task', b.holds task' = false) (task' : TaskData) :
    x.taken.count task' = ((x.ledger ++ [(task, outcome)]).map Prod.fst).count task' +
      (x.threads.set w b).countP (ThreadPhase.holds task') := by
  have hcount := countP_set_add (p := ThreadPhase.holds task') (b := b) hthread
  rw [ha, hb] at hcount
  simp only [Bool.false_eq_true, if_false] at hcount
  rw [h task', List.map_append, List.count_append, List.map_singleton, List.count_singleton]
  dsimp only
  omega

/-- The task that leaves the queue is with the thread. -/
theorem Logged.pop (h : x.Logged) (hidle : x.threads[w]? = some .idle) :
    (x.pop w task rest).Logged := by
  intro task'
  have hcount : (x.threads.set w (.popped task)).countP (ThreadPhase.holds task') =
      x.threads.countP (ThreadPhase.holds task') + if (task == task') = true then 1 else 0 := by
    simpa [ThreadPhase.holds] using
      countP_set_add (p := ThreadPhase.holds task') (b := .popped task) hidle
  simp only [Executor.pop, List.count_append, List.count_singleton, hcount, h task']
  omega

/-- The callback puts it into the ledger. -/
theorem Logged.run (h : x.Logged) (hthread : x.threads[w]? = some (.called task))
    (last : Bool) : (x.run w last task).Logged := by
  have hcalls := calls_run x w last task
  generalize x.run w last task = y at hcalls
  cases hcalls with
  | guarded g task hkept hran => exact h.ledger hthread (fun _ => rfl) fun _ => rfl
  | cleanup g => exact h.ledger hthread (fun _ => rfl) fun _ => rfl
  | last g hguard halive => exact h.ledger (b := .waiting g) hthread (fun _ => rfl) fun _ => rfl
  | stop => exact h.ledger hthread (fun _ => rfl) fun _ => rfl

/-- **Step.** -/
theorem Logged.step (h : x.Logged) (hstep : x.Step e y) : y.Logged := by
  cases e with
  | pop w =>
      obtain ⟨hidle, task, rest, -, rfl⟩ := hstep
      exact h.pop hidle
  | check w =>
      obtain ⟨task, hthread, rfl⟩ := hstep
      rcases check_cases x w task with ⟨-, heq⟩ | ⟨-, heq⟩ <;> rw [heq]
      · exact h.ledger hthread (fun _ => rfl) fun _ => rfl
      · exact h.thread hthread fun _ => rfl
  | run w last =>
      obtain ⟨task, hthread, rfl⟩ := hstep
      exact h.run hthread last
  | finish w =>
      obtain ⟨g, task, guard, hthread, -, rfl⟩ := hstep
      exact h.thread hthread fun _ => rfl
  | leave w =>
      obtain ⟨g, guard, hthread, -, -, rfl⟩ := hstep
      exact h.thread hthread fun _ => rfl
  | exit w =>
      obtain ⟨hidle, -, rfl⟩ := hstep
      exact h.thread hidle fun _ => rfl
  | clear =>
      subst hstep
      intro task
      have hfirst : (x.tasksToDo.map fun task => (task, Outcome.dropped)).map Prod.fst =
          x.tasksToDo := by
        rw [List.map_map]
        exact List.map_id _
      simp only [List.count_append, List.map_append, hfirst, h task]
      omega
  | create => rw [hstep]; exact h
  | exec g task => rw [hstep.2]; exact h
  | enter g task =>
      obtain ⟨-, guard, -, -, rfl⟩ := hstep
      exact h
  | push g task => rw [hstep.2]; exact h
  | cleanup g => rw [hstep.2]; exact h
  | destroy g =>
      obtain ⟨guard, -, -, rfl⟩ := hstep
      exact h
  | destroyed g =>
      obtain ⟨guard, -, -, -, -, rfl⟩ := hstep
      exact h
  | cancel w => rw [hstep.2]; exact h

/-- Each task that has left the queue has one outcome, or is with one thread. -/
theorem logged_run (hrun : Run Step (start n) events x) : x.Logged :=
  hrun.preserves Logged (fun _ _ _ hs hstep => hs.step hstep) (logged_start n)

/-- A task that has left the queue and that no thread holds is in the ledger. -/
theorem Logged.mem_ledger (h : x.Logged) (hmem : task ∈ x.taken)
    (hthreads : ∀ phase ∈ x.threads, phase.holds task = false) :
    ∃ outcome, (task, outcome) ∈ x.ledger := by
  have hnone : x.threads.countP (ThreadPhase.holds task) = 0 := by
    rw [List.countP_eq_zero]
    intro phase hin heq
    rw [hthreads phase hin] at heq
    cases heq
  have hlogged := h task
  have hpos := List.count_pos_iff.mpr hmem
  rw [hnone] at hlogged
  have hledger : task ∈ x.ledger.map Prod.fst := List.count_pos_iff.mp (by omega)
  obtain ⟨⟨task', outcome⟩, hentry, rfl⟩ := List.mem_map.mp hledger
  exact ⟨outcome, hentry⟩

/-! ## Behind the start of a destructor -/

/-- The entries of the tasks of a guard that were run. -/
def ranOf (x : Executor) (g : ℕ) : List (TaskData × Outcome) :=
  x.ledger.filter fun entry => entry.1.ofGuard g && entry.2 == .ran

/-- An entry that is no task of the guard that was run. -/
theorem ranOf_append {entry : TaskData × Outcome}
    (hentry : (entry.1.ofGuard g && entry.2 == .ran) = false) :
    (x.ledger ++ [entry]).filter (fun entry => entry.1.ofGuard g && entry.2 == .ran) =
      x.ranOf g := by
  rw [List.filter_append, List.filter_singleton, hentry]
  exact List.append_nil _

/-- Nothing that could still call the guard. -/
structure Forgotten (x : Executor) (g : ℕ) : Prop where
  entering : ∀ task, (g, task) ∉ x.entering
  tasksToDo : ∀ task, .guarded g task ∉ x.tasksToDo
  threads : ∀ phase ∈ x.threads, phase.hasTaskOf g = false
  dropped : ∀ task, (.guarded g task, .dropped) ∉ x.ledger

/-- Where no task is counted, none is left. -/
theorem Counted.forgotten (h : x.Counted) (hzero : x.dataToProcess g = 0) : x.Forgotten g := by
  have hsum := (h.counted g).symm.trans hzero
  unfold outstanding at hsum
  have hnone : ∀ {α : Type} {l : List α} {p : α → Bool} {a : α}, l.countP p = 0 → p a = true →
      a ∉ l := by
    intro α l p a hcount hp hmem
    exact List.countP_eq_zero.mp hcount a hmem hp
  refine ⟨fun task => ?_, fun task => ?_, fun phase hmem => ?_, fun task => ?_⟩
  · exact hnone (p := fun call => call.1 == g) (by omega) (beq_self_eq_true g)
  · exact hnone (p := TaskData.ofGuard g) (by omega) (beq_self_eq_true g)
  · refine Bool.eq_false_iff.mpr fun htrue => ?_
    exact hnone (p := ThreadPhase.hasTaskOf g) (by omega) htrue hmem
  · exact hnone (p := droppedOf g) (by omega) (by simp [droppedOf, TaskData.ofGuard])

/-- A thread skips the tasks of a guard whose destructor has begun. -/
theorem Calls.ranOf_eq (h : x.Calls w task y) (hx : x.Counted) (hended : x.Ended g)
    (hthread : x.threads[w]? = some (.called task)) : y.ranOf g = x.ranOf g := by
  cases h with
  | @guarded g' task outcome hkept hran =>
      refine ranOf_append ?_
      by_contra hboth
      simp only [TaskData.ofGuard, Bool.not_eq_false, Bool.and_eq_true, beq_iff_eq] at hboth
      obtain ⟨rfl, rfl⟩ := hboth
      rcases hended with hstopping | hdestroyed
      · exact hran rfl hstopping
      · have hnone := (hx.forgotten (hx.destroyed g' hdestroyed)).threads _
          (List.mem_of_getElem? hthread)
        simp [ThreadPhase.hasTaskOf, TaskData.ofGuard] at hnone
  | cleanup g' => exact ranOf_append rfl
  | last g' hguard halive => exact ranOf_append rfl
  | stop => exact ranOf_append rfl

/-- Behind the start of a destructor a step runs no task of the guard. -/
theorem ranOf_step (hx : x.Counted) (hended : x.Ended g) (hstep : x.Step e y) :
    y.ranOf g = x.ranOf g := by
  cases e with
  | check w =>
      obtain ⟨task, -, rfl⟩ := hstep
      rcases check_cases x w task with ⟨-, heq⟩ | ⟨-, heq⟩ <;> rw [heq]
      · exact ranOf_append (by simp)
      · rfl
  | run w last =>
      obtain ⟨task, hthread, rfl⟩ := hstep
      exact (calls_run x w last task).ranOf_eq hx hended hthread
  | clear =>
      rw [hstep]
      have hnone : (x.tasksToDo.map fun task => (task, Outcome.dropped)).filter
          (fun entry => entry.1.ofGuard g && entry.2 == .ran) = [] := by
        apply List.filter_eq_nil_iff.mpr
        intro entry hentry
        obtain ⟨task, -, rfl⟩ := List.mem_map.mp hentry
        simp
      unfold ranOf
      rw [List.filter_append, hnone, List.append_nil]
  | create => rw [hstep]; rfl
  | exec g' task => rw [hstep.2]; rfl
  | enter g' task =>
      obtain ⟨-, guard, -, -, rfl⟩ := hstep
      rfl
  | push g' task => rw [hstep.2]; rfl
  | cleanup g' => rw [hstep.2]; rfl
  | pop w =>
      obtain ⟨-, task, rest, -, rfl⟩ := hstep
      rfl
  | finish w =>
      obtain ⟨g', task, guard, -, -, rfl⟩ := hstep
      rfl
  | leave w =>
      obtain ⟨g', guard, -, -, -, rfl⟩ := hstep
      rfl
  | destroy g' =>
      obtain ⟨guard, -, -, rfl⟩ := hstep
      rfl
  | destroyed g' =>
      obtain ⟨guard, -, -, -, -, rfl⟩ := hstep
      rfl
  | cancel w => rw [hstep.2]; rfl
  | exit w => rw [hstep.2.2]; rfl

/-- Once the destructor has begun, no task of the guard is run any more. -/
theorem ranOf_run (hx : x.Counted) (hended : x.Ended g) (hrun : Run Step x events y) :
    y.ranOf g = x.ranOf g := by
  induction hrun with
  | nil x => rfl
  | cons hstep _ ih => rw [ih (hx.step hstep) (hstep.ended hended), ranOf_step hx hended hstep]

/-- How the tasks are accounted for after a run. -/
structure Accounted (events : List ExecutorEvent) (x : Executor) : Prop where
  fifo : x.taken ++ x.tasksToDo = events.flatMap ExecutorEvent.pushed
  logged : x.Logged
  counted : x.Counts
  forgotten : ∀ g, x.phase g = some .destroyed → x.Forgotten g
  completed : ∀ g, x.phase g = some .destroyed → ∀ task,
    .guarded g task ∈ events.flatMap ExecutorEvent.pushed →
      (.guarded g task, .ran) ∈ x.ledger ∨ (.guarded g task, .skipped) ∈ x.ledger
  ended : ∀ g later y, x.Ended g → Run Step x later y → y.ranOf g = x.ranOf g

/-- A thread that holds a task of a guard has it. -/
theorem Forgotten.not_holds (h : x.Forgotten g) (task : ℕ) (phase : ThreadPhase)
    (hmem : phase ∈ x.threads) : phase.holds (.guarded g task) = false := by
  have hnone := h.threads phase hmem
  refine Bool.eq_false_iff.mpr fun hholds => ?_
  cases phase with
  | popped held | called held =>
      obtain rfl := beq_iff_eq.mp hholds
      simp [ThreadPhase.hasTaskOf, TaskData.ofGuard] at hnone
  | idle | inTask _ _ | waiting _ | stopped => cases hholds

/-- **Every task is accounted for**, in every interleaving and also while the executor shuts
down.  Tasks leave the queue in the order in which they were put there, and each of them has
one outcome.  When the destructor of a guard has returned, all its tasks were run or skipped,
and no task is run that a thread calls after the destructor has begun. -/
theorem tasks_accounted (hrun : Run Step (start n) events x) : x.Accounted events := by
  have hx := counted_run hrun
  have hlogged := logged_run hrun
  have hfifo : x.taken ++ x.tasksToDo = events.flatMap ExecutorEvent.pushed := fifo_run hrun
  have hforgotten : ∀ g, x.phase g = some .destroyed → x.Forgotten g :=
    fun g hg => hx.forgotten (hx.destroyed g hg)
  refine ⟨hfifo, hlogged, hx.counted, hforgotten, ?_, ?_⟩
  · intro g hg task hmem
    have hnone := hforgotten g hg
    rw [← hfifo] at hmem
    rcases List.mem_append.mp hmem with htaken | hqueue
    · obtain ⟨outcome, hentry⟩ := hlogged.mem_ledger htaken (hnone.not_holds task)
      cases outcome with
      | ran => exact Or.inl hentry
      | skipped => exact Or.inr hentry
      | dropped => exact absurd hentry (hnone.dropped task)
    · exact absurd hqueue (hnone.tasksToDo task)
  · intro g later y hended hlater
    exact ranOf_run hx hended hlater

/-- Two tasks of a guard.  The second one is tested before a client destroys the guard, and
it is counted, taken and skipped behind that. -/
def skipOne : List ExecutorEvent :=
  [.create, .exec 0 7, .enter 0 7, .push 0 7, .exec 0 8, .pop 0, .check 0, .run 0 false,
    .destroy 0, .enter 0 8, .push 0 8, .pop 1, .check 1, .run 1 false, .finish 0, .finish 1,
    .destroyed 0]

/-- The state after it. -/
def skippedOne : Executor :=
  { start EXECUTOR_THREAD_POOL_SIZE with
    guards := [{ dataToProcess := 0, phase := .destroyed }]
    taken := [.guarded 0 7, .guarded 0 8]
    ledger := [(.guarded 0 7, .ran), (.guarded 0 8, .skipped)] }

/-- Of two tasks one is run, and the other one is skipped because a client destroys the guard.
-/
theorem tasks_accounted_sample :
    Run Step (start EXECUTOR_THREAD_POOL_SIZE) skipOne skippedOne ∧
      skippedOne.Accounted skipOne := by
  have hrun : Run Step (start EXECUTOR_THREAD_POOL_SIZE) skipOne skippedOne :=
    .cons rfl <| .cons ⟨rfl, rfl⟩ <| .cons ⟨by decide, _, rfl, by decide, rfl⟩ <|
      .cons ⟨by decide, rfl⟩ <| .cons ⟨rfl, rfl⟩ <| .cons ⟨rfl, _, _, rfl, rfl⟩ <|
      .cons ⟨_, rfl, rfl⟩ <| .cons ⟨_, rfl, rfl⟩ <| .cons ⟨_, rfl, rfl, rfl⟩ <|
      .cons ⟨by decide, _, rfl, by decide, rfl⟩ <| .cons ⟨by decide, rfl⟩ <|
      .cons ⟨rfl, _, _, rfl, rfl⟩ <| .cons ⟨_, rfl, rfl⟩ <| .cons ⟨_, rfl, rfl⟩ <|
      .cons ⟨_, _, _, rfl, rfl, rfl⟩ <| .cons ⟨_, _, _, rfl, rfl, rfl⟩ <|
      .cons ⟨_, rfl, rfl, rfl, by decide, rfl⟩ <| .nil _
  exact ⟨hrun, tasks_accounted hrun⟩

end Executor

end PrivmxEndpoint
