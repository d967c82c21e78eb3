import PrivmxEndpoint.GuardedExecutor

/-!
# Progress of the executor

A thread of the pool that runs the destructor of a guard waits there for the tasks of that
guard.  A task that is behind the clean-up of its owner in the queue needs another thread.
When every thread waits like that, the pool is stuck, and it stays so (`stuck_forever`).

As long as no task is handed over to a guard once the clean-up of its owner is queued, the
pool drains: the threads empty the queue and come back from all destructors, in any order
(`pool_drains`).
-/

namespace PrivmxEndpoint

open Runs Headcount

/-- The steps of the threads of the pool. -/
def ExecutorEvent.OfThread : ExecutorEvent → Prop
  | .pop _ => True
  | .check _ => True
  | .run _ _ => True
  | .finish _ => True
  | .leave _ => True
  | _ => False

/-- No step of a shutdown. -/
def ExecutorEvent.BeforeShutdown : ExecutorEvent → Prop
  | .clear => False
  | .cancel _ => False
  | .exit _ => False
  | _ => True

/-- The thread has taken the clean-up of the guard's owner, and is not back from it. -/
def ThreadPhase.cleansUp (g : ℕ) : ThreadPhase → Bool
  | .popped task => task == .cleanup g
  | .called task => task == .cleanup g
  | .waiting g' => g' == g
  | _ => false

/-- How many steps the thread has before it looks for a task again. -/
def ThreadPhase.remaining : ThreadPhase → ℕ
  | .popped _ => 3
  | .called _ => 2
  | .inTask _ _ => 1
  | .waiting _ => 1
  | _ => 0

namespace Executor

variable {x y : Executor} {g w n : ℕ} {guard : GuardedExecutor} {last : Bool} {task : TaskData}
  {rest : List TaskData} {events : List ExecutorEvent} {e : ExecutorEvent} {phase : ThreadPhase}

/-- Nothing is queued, and no thread is busy. -/
def Quiet (x : Executor) : Prop :=
  x.tasksToDo = [] ∧ ∀ phase ∈ x.threads, phase = .idle

/-- Every thread waits for a guard with tasks. -/
def Deadlocked (x : Executor) : Prop :=
  ∀ phase ∈ x.threads, ∃ g, phase = .waiting g ∧ 0 < x.dataToProcess g

/-- A thread cleans up. -/
def CleansUp (x : Executor) (g : ℕ) : Prop :=
  ∃ phase ∈ x.threads, phase.cleansUp g = true

/-- A task enters its guard before the clean-up of the owner is queued. -/
def InTime (x : Executor) : ExecutorEvent → Prop
  | .enter g _ => .cleanup g ∉ x.tasksToDo ∧ ¬ x.CleansUp g
  | .cleanup g => ∀ task, (g, task) ∉ x.entering
  | .clear => False
  | .cancel _ => False
  | .exit _ => False
  | _ => True

/-- What holds of the threads before holds of them when one of them has gone on. -/
theorem forall_threads_set {P : ThreadPhase → Prop} (h : ∀ phase ∈ x.threads, P phase)
    (hnew : P phase) : ∀ phase' ∈ x.threads.set w phase, P phase' := by
  intro phase' hmem
  rcases List.mem_or_eq_of_mem_set hmem with hold | rfl
  · exact h phase' hold
  · exact hnew

/-! ## Before a shutdown -/

/-- No thread has left its loop, and none is about to. -/
structure Running (x : Executor) : Prop where
  threads : ∀ phase ∈ x.threads, phase ≠ .stopped ∧ phase.holds .stop = false
  cancelled : true ∉ x.cancelled
  tasksToDo : .stop ∉ x.tasksToDo

/-- A pool that has just been started runs. -/
theorem running_start (n : ℕ) : (start n).Running where
  threads phase h := by
    obtain rfl := List.eq_of_mem_replicate h
    exact ⟨by simp, rfl⟩
  cancelled h := by cases List.eq_of_mem_replicate h
  tasksToDo h := by cases h

/-- A thread goes on to a phase that is not the end of its loop. -/
theorem Running.thread (h : x.Running) (hnew : phase ≠ .stopped ∧ phase.holds .stop = false) :
    ∀ phase' ∈ x.threads.set w phase, phase' ≠ .stopped ∧ phase'.holds .stop = false :=
  forall_threads_set h.threads hnew

/-- What is queued is no stop. -/
theorem Running.queue (h : x.Running) (hne : task ≠ .stop) : .stop ∉ x.tasksToDo ++ [task] := by
  intro hmem
  rcases List.mem_append.mp hmem with hold | hnew
  · exact h.tasksToDo hold
  · exact hne (List.mem_singleton.mp hnew).symm

/-- The task that is taken is no stop. -/
theorem Running.pop (h : x.Running) (hqueue : x.tasksToDo = task :: rest) :
    (x.pop w task rest).Running := by
  have hqueued := h.tasksToDo
  rw [hqueue, List.mem_cons, not_or] at hqueued
  refine ⟨h.thread ⟨by simp, ?_⟩, h.cancelled, hqueued.2⟩
  exact beq_eq_false_iff_ne.mpr (Ne.symm hqueued.1)

/-- A thread that runs does not drop its task. -/
theorem Running.check_eq (h : x.Running) (hthread : x.threads[w]? = some (.popped task)) :
    x.check w task = { x with threads := x.threads.set w (.called task) } := by
  rcases check_cases x w task with ⟨rfl | hcancelled, -⟩ | ⟨-, heq⟩
  · have hholds := (h.threads _ (List.mem_of_getElem? hthread)).2
    cases hholds
  · exact absurd (List.mem_of_getElem? hcancelled) h.cancelled
  · exact heq

/-- A thread does not come to call a stop. -/
theorem Running.not_stop (h : x.Running) (hthread : x.threads[w]? = some (.called task)) :
    task ≠ .stop := by
  rintro rfl
  have hholds := (h.threads _ (List.mem_of_getElem? hthread)).2
  cases hholds

/-- The callback of a task leaves the loop going. -/
theorem Running.run (h : x.Running) (w : ℕ) (last : Bool) (task : TaskData) :
    (x.run w last task).Running := by
  have hcalls := calls_run x w last task
  generalize x.run w last task = y at hcalls
  cases hcalls with
  | guarded g task hkept hran => exact ⟨h.thread ⟨by simp, rfl⟩, h.cancelled, h.tasksToDo⟩
  | cleanup g => exact ⟨h.thread ⟨by simp, rfl⟩, h.cancelled, h.tasksToDo⟩
  | last g hguard halive =>
      exact ⟨h.thread ⟨by simp, rfl⟩, h.cancelled, h.tasksToDo⟩
  | stop => exact ⟨h.thread ⟨by simp, rfl⟩, h.cancelled, h.tasksToDo⟩

/-- Before a shutdown no step ends a loop. -/
theorem Running.step (h : x.Running) (hopen : e.BeforeShutdown) (hstep : x.Step e y) :
    y.Running := by
  cases e with
  | create => rw [hstep]; exact ⟨h.threads, h.cancelled, h.tasksToDo⟩
  | exec g task => rw [hstep.2]; exact ⟨h.threads, h.cancelled, h.tasksToDo⟩
  | enter g task =>
      obtain ⟨-, guard, -, -, rfl⟩ := hstep
      exact ⟨h.threads, h.cancelled, h.tasksToDo⟩
  | push g task =>
      obtain ⟨-, rfl⟩ := hstep
      exact ⟨h.threads, h.cancelled, h.queue (by simp)⟩
  | cleanup g =>
      obtain ⟨-, rfl⟩ := hstep
      exact ⟨h.threads, h.cancelled, h.queue (by simp)⟩
  | pop w =>
      obtain ⟨-, task, rest, hqueue, rfl⟩ := hstep
      exact h.pop hqueue
  | check w =>
      obtain ⟨task, hthread, rfl⟩ := hstep
      rw [h.check_eq hthread]
      refine ⟨h.thread ⟨by simp, ?_⟩, h.cancelled, h.tasksToDo⟩
      exact (h.threads _ (List.mem_of_getElem? hthread)).2
  | run w last =>
      obtain ⟨task, -, rfl⟩ := hstep
      exact h.run w last task
  | finish w =>
      obtain ⟨g, task, guard, -, -, rfl⟩ := hstep
      exact ⟨h.thread ⟨by simp, rfl⟩, h.cancelled, h.tasksToDo⟩
  | leave w =>
      obtain ⟨g, guard, -, -, -, rfl⟩ := hstep
      exact ⟨h.thread ⟨by simp, rfl⟩, h.cancelled, h.tasksToDo⟩
  | destroy g =>
      obtain ⟨guard, -, -, rfl⟩ := hstep
      exact ⟨h.threads, h.cancelled, h.tasksToDo⟩
  | destroyed g =>
      obtain ⟨guard, -, -, -, -, rfl⟩ := hstep
      exact ⟨h.threads, h.cancelled, h.tasksToDo⟩
  | clear | cancel | exit => exact hopen.elim

/-! ## Where a pool can be stuck -/

/-- A guard with tasks has been made. -/
theorem exists_guard (h : 0 < x.dataToProcess g) : ∃ guard, x.guards[g]? = some guard := by
  unfold dataToProcess at h
  cases hguard : x.guards[g]? with
  | none =>
      rw [hguard] at h
      exact absurd h (Nat.lt_irrefl 0)
  | some guard => exact ⟨guard, rfl⟩

/-- A destructor that runs on a thread has begun. -/
def Begun (x : Executor) : Prop :=
  ∀ g, .waiting g ∈ x.threads → x.Ended g

/-- So has one whose destructor has begun. -/
theorem Ended.exists_guard (h : x.Ended g) : ∃ guard, x.guards[g]? = some guard := by
  unfold Ended phase at h
  cases hguard : x.guards[g]? with
  | none =>
      rw [hguard] at h
      rcases h with h | h <;> cases h
  | some guard => exact ⟨guard, rfl⟩

/-- A thread that goes on elsewhere does not come to wait. -/
theorem waiting_of_set (h : .waiting g ∈ x.threads.set w phase) (hne : phase ≠ .waiting g) :
    .waiting g ∈ x.threads := by
  rcases List.mem_or_eq_of_mem_set h with hold | hnew
  · exact hold
  · exact absurd hnew.symm hne

/-- Only a clean-up makes a thread wait, and then it has set `_stopping`. -/
theorem Calls.waiting (h : x.Calls w task y) (hmem : .waiting g ∈ y.threads) :
    .waiting g ∈ x.threads ∨ task = .cleanup g ∧ y.phase g = some .stopping := by
  cases h with
  | guarded g' task hkept hran => exact Or.inl (waiting_of_set hmem (by simp))
  | cleanup g' => exact Or.inl (waiting_of_set hmem (by simp))
  | @last g' guard hguard halive =>
      rcases List.mem_or_eq_of_mem_set hmem with hold | hnew
      · exact Or.inl hold
      · cases hnew
        obtain ⟨hlt, -⟩ := List.getElem?_eq_some_iff.mp hguard
        refine Or.inr ⟨rfl, ?_⟩
        unfold Executor.phase
        rw [List.getElem?_set_self hlt]
        rfl
  | stop => exact Or.inl (waiting_of_set hmem (by simp))

/-- Only a thread that calls a clean-up comes to wait. -/
theorem waiting_step (hstep : x.Step e y) (hmem : .waiting g ∈ y.threads) :
    .waiting g ∈ x.threads ∨ y.phase g = some .stopping := by
  cases e with
  | pop w =>
      obtain ⟨-, task, rest, -, rfl⟩ := hstep
      exact Or.inl (waiting_of_set hmem (by simp))
  | check w =>
      obtain ⟨task, -, rfl⟩ := hstep
      rcases check_cases x w task with ⟨-, heq⟩ | ⟨-, heq⟩ <;> rw [heq] at hmem <;>
        exact Or.inl (waiting_of_set hmem (by simp))
  | run w last =>
      obtain ⟨task, -, rfl⟩ := hstep
      exact ((calls_run x w last task).waiting hmem).imp_right And.right
  | finish w =>
      obtain ⟨g', task, guard, -, -, rfl⟩ := hstep
      exact Or.inl (waiting_of_set hmem (by simp))
  | leave w =>
      obtain ⟨g', guard, -, -, -, rfl⟩ := hstep
      exact Or.inl (waiting_of_set hmem (by simp))
  | exit w =>
      obtain ⟨-, -, rfl⟩ := hstep
      exact Or.inl (waiting_of_set hmem (by simp))
  | create => rw [hstep] at hmem; exact Or.inl hmem
  | exec g' task => rw [hstep.2] at hmem; exact Or.inl hmem
  | enter g' task =>
      obtain ⟨-, guard, -, -, rfl⟩ := hstep
      exact Or.inl hmem
  | push g' task => rw [hstep.2] at hmem; exact Or.inl hmem
  | cleanup g' => rw [hstep.2] at hmem; exact Or.inl hmem
  | destroy g' =>
      obtain ⟨guard, -, -, rfl⟩ := hstep
      exact Or.inl hmem
  | destroyed g' =>
      obtain ⟨guard, -, -, -, -, rfl⟩ := hstep
      exact Or.inl hmem
  | clear => rw [hstep] at hmem; exact Or.inl hmem
  | cancel w => rw [hstep.2] at hmem; exact Or.inl hmem

/-- Whoever waits has begun the destructor, and no guard comes back to life. -/
theorem Begun.step (h : x.Begun) (hstep : x.Step e y) : y.Begun := by
  intro g hmem
  rcases waiting_step hstep hmem with hold | hnew
  · exact hstep.ended (h g hold)
  · exact Or.inl hnew

/-- Only the end of a task counts down. -/
theorem dataToProcess_le (hstep : x.Step e y) (hne : ∀ w, e ≠ .finish w) (g : ℕ) :
    x.dataToProcess g ≤ y.dataToProcess g := by
  cases e with
  | create => rw [hstep, dataToProcess_create]
  | enter g' task =>
      obtain ⟨-, guard, hguard, -, rfl⟩ := hstep
      have hdata := dataToProcess_set
        { guard with dataToProcess := guard.dataToProcess + 1 } hguard g
      refine le_of_le_of_eq ?_ hdata.symm
      rcases eq_or_ne g' g with rfl | hne
      · rw [if_pos rfl, dataToProcess_of hguard]
        exact Nat.le_succ _
      · rw [if_neg hne]
  | check w =>
      obtain ⟨task, -, rfl⟩ := hstep
      rcases check_cases x w task with ⟨-, heq⟩ | ⟨-, heq⟩ <;> rw [heq] <;> exact le_rfl
  | run w last =>
      obtain ⟨task, -, rfl⟩ := hstep
      exact ((calls_run x w last task).dataToProcess_eq g).ge
  | finish w => exact absurd rfl (hne w)
  | leave w =>
      obtain ⟨g', guard, -, hguard, -, rfl⟩ := hstep
      exact (dataToProcess_set_phase .destroyed hguard g).ge
  | destroy g' =>
      obtain ⟨guard, hguard, -, rfl⟩ := hstep
      exact (dataToProcess_set_phase .stopping hguard g).ge
  | destroyed g' =>
      obtain ⟨guard, hguard, -, -, -, rfl⟩ := hstep
      exact (dataToProcess_set_phase .destroyed hguard g).ge
  | exec g' task => rw [hstep.2]; exact le_rfl
  | push g' task => rw [hstep.2]; exact le_rfl
  | cleanup g' => rw [hstep.2]; exact le_rfl
  | pop w =>
      obtain ⟨-, task, rest, -, rfl⟩ := hstep
      exact le_rfl
  | clear => rw [hstep]; exact le_rfl
  | cancel w => rw [hstep.2]; exact le_rfl
  | exit w => rw [hstep.2.2]; exact le_rfl

/-- The thread at an index is one that waits in vain. -/
theorem Deadlocked.waits (h : x.Deadlocked) (hw : x.threads[w]? = some phase) :
    ∃ g, phase = .waiting g ∧ 0 < x.dataToProcess g :=
  h phase (List.mem_of_getElem? hw)

/-- No thread goes on. -/
theorem Deadlocked.not_step (h : x.Deadlocked) (hthread : e.OfThread) : ¬ x.Step e y := by
  intro hstep
  cases e with
  | pop w =>
      obtain ⟨g, hne, -⟩ := h.waits hstep.1
      cases hne
  | check w =>
      obtain ⟨task, hpopped, -⟩ := hstep
      obtain ⟨g, hne, -⟩ := h.waits hpopped
      cases hne
  | run w last =>
      obtain ⟨task, hcalled, -⟩ := hstep
      obtain ⟨g, hne, -⟩ := h.waits hcalled
      cases hne
  | finish w =>
      obtain ⟨g, task, guard, hbusy, -⟩ := hstep
      obtain ⟨g', hne, -⟩ := h.waits hbusy
      cases hne
  | leave w =>
      obtain ⟨g, guard, hwaiting, hguard, hzero, -⟩ := hstep
      obtain ⟨g', heq, hpos⟩ := h.waits hwaiting
      cases heq
      rw [dataToProcess_of hguard, hzero] at hpos
      exact Nat.lt_irrefl 0 hpos
  | create | exec | enter | push | cleanup | destroy | destroyed | clear | cancel | exit =>
      exact hthread.elim

/-- What clients do leaves the threads as they are. -/
theorem threads_step (hstep : x.Step e y) (hclient : ¬ e.OfThread) (hexit : ∀ w, e ≠ .exit w) :
    y.threads = x.threads := by
  cases e with
  | create => rw [hstep]
  | exec g task => rw [hstep.2]
  | enter g task =>
      obtain ⟨-, guard, -, -, rfl⟩ := hstep
      rfl
  | push g task => rw [hstep.2]
  | cleanup g => rw [hstep.2]
  | destroy g =>
      obtain ⟨guard, -, -, rfl⟩ := hstep
      rfl
  | destroyed g =>
      obtain ⟨guard, -, -, -, -, rfl⟩ := hstep
      rfl
  | clear => rw [hstep]
  | cancel w => rw [hstep.2]
  | exit w => exact absurd rfl (hexit w)
  | pop | check | run | finish | leave => exact absurd trivial hclient

/-- Neither the clients nor a shutdown help a pool that is stuck. -/
theorem Deadlocked.step (h : x.Deadlocked) (hstep : x.Step e y) : y.Deadlocked := by
  have hclient : ¬ e.OfThread := fun hthread => h.not_step hthread hstep
  have hexit : ∀ w, e ≠ .exit w := by
    rintro w rfl
    obtain ⟨g, hne, -⟩ := h.waits hstep.1
    cases hne
  have hfinish : ∀ w, e ≠ .finish w := by
    rintro w rfl
    exact hclient trivial
  intro phase hmem
  rw [threads_step hstep hclient hexit] at hmem
  obtain ⟨g, rfl, hpos⟩ := h phase hmem
  exact ⟨g, rfl, lt_of_lt_of_le hpos (dataToProcess_le hstep hfinish g)⟩

/-- So it is stuck in every continuation. -/
theorem Deadlocked.run (h : x.Deadlocked) (hrun : Run Step x events y) : y.Deadlocked :=
  hrun.preserves Deadlocked (fun _ _ _ hs hstep => hs.step hstep) h

/-- What can be said of a pool before a shutdown. -/
structure Open (x : Executor) : Prop where
  counted : x.Counted
  logged : x.Logged
  running : x.Running
  begun : x.Begun

/-- A pool that has just been started is open. -/
theorem open_start (n : ℕ) : (start n).Open where
  counted := counted_start n
  logged := logged_start n
  running := running_start n
  begun g h := by cases List.eq_of_mem_replicate h

/-- What is known of a pool is kept by every step before a shutdown. -/
theorem Open.step (h : x.Open) (hopen : e.BeforeShutdown) (hstep : x.Step e y) : y.Open where
  counted := h.counted.step hstep
  logged := h.logged.step hstep
  running := h.running.step hopen hstep
  begun := h.begun.step hstep

/-- Where no thread can go on, each of them looks for a task in vain or waits in vain. -/
theorem Open.of_stuck (h : x.Open) (hstuck : ∀ e y, e.OfThread → ¬ x.Step e y)
    (phase : ThreadPhase) (hmem : phase ∈ x.threads) :
    phase = .idle ∧ x.tasksToDo = [] ∨ ∃ g, phase = .waiting g ∧ 0 < x.dataToProcess g := by
  obtain ⟨w, hw⟩ := List.mem_iff_getElem?.mp hmem
  cases phase with
  | idle =>
      refine Or.inl ⟨rfl, ?_⟩
      cases htasks : x.tasksToDo with
      | nil => rfl
      | cons task rest => exact absurd ⟨hw, task, rest, htasks, rfl⟩ (hstuck (.pop w) _ trivial)
  | popped task => exact absurd ⟨task, hw, rfl⟩ (hstuck (.check w) _ trivial)
  | called task => exact absurd ⟨task, hw, rfl⟩ (hstuck (.run w false) _ trivial)
  | inTask g task =>
      have hpos : 0 < x.dataToProcess g := by
        have hone : 0 < x.threads.countP (ThreadPhase.hasTaskOf g) :=
          List.countP_pos_iff.mpr ⟨_, hmem, beq_self_eq_true g⟩
        rw [h.counted.counted g]
        unfold outstanding
        omega
      obtain ⟨guard, hguard⟩ := exists_guard hpos
      exact absurd ⟨g, task, guard, hw, hguard, rfl⟩ (hstuck (.finish w) _ trivial)
  | waiting g =>
      obtain ⟨guard, hguard⟩ := (h.begun g hmem).exists_guard
      refine Or.inr ⟨g, rfl, Nat.pos_of_ne_zero fun hzero => ?_⟩
      rw [dataToProcess_of hguard] at hzero
      exact hstuck (.leave w) _ trivial ⟨g, guard, hw, hguard, hzero, rfl⟩
  | stopped => exact absurd rfl (h.running.threads _ hmem).1

/-- **A pool with tasks is stuck** exactly when every thread of it waits for a guard with
tasks, and then for ever, whatever the clients do. -/
theorem stuck_forever (hrun : Run Step (start n) events x)
    (hopen : ∀ e ∈ events, e.BeforeShutdown) :
    (x.tasksToDo ≠ [] → ((∀ e y, e.OfThread → ¬ x.Step e y) ↔ x.Deadlocked)) ∧
      (x.Deadlocked → ∀ later y, Run Step x later y →
        y.Deadlocked ∧ ∀ e z, e.OfThread → ¬ y.Step e z) := by
  have hx : x.Open := (hrun.guard hopen).preserves Open
    (fun _ _ _ hs hstep => hs.step hstep.1 hstep.2) (open_start n)
  refine ⟨fun hqueue => ⟨fun hstuck phase hmem => ?_, fun hdead e y hthread => hdead.not_step hthread⟩,
    fun hdead later y hlater => ⟨hdead.run hlater, fun e z hthread => (hdead.run hlater).not_step hthread⟩⟩
  rcases hx.of_stuck hstuck _ hmem with ⟨-, hempty⟩ | hwaits
  · exact absurd hempty hqueue
  · exact hwaits

/-- Four owners are cleaned up, and then each of them is handed one more task. -/
def lateTasks : List ExecutorEvent :=
  [.create, .create, .create, .create, .cleanup 0, .cleanup 1, .cleanup 2, .cleanup 3,
    .exec 0 0, .enter 0 0, .push 0 0, .exec 1 0, .enter 1 0, .push 1 0, .exec 2 0, .enter 2 0,
    .push 2 0, .exec 3 0, .enter 3 0, .push 3 0, .pop 0, .pop 1, .pop 2, .pop 3, .check 0,
    .check 1, .check 2, .check 3, .run 0 true, .run 1 true, .run 2 true, .run 3 true]

/-- The four threads are in the four destructors. -/
def stuckPool : Executor :=
  { start EXECUTOR_THREAD_POOL_SIZE with
    tasksToDo := [.guarded 0 0, .guarded 1 0, .guarded 2 0, .guarded 3 0]
    taken := [.cleanup 0, .cleanup 1, .cleanup 2, .cleanup 3]
    threads := [.waiting 0, .waiting 1, .waiting 2, .waiting 3]
    guards := List.replicate 4 { dataToProcess := 1, phase := .stopping }
    ledger := [(.cleanup 0, .ran), (.cleanup 1, .ran), (.cleanup 2, .ran), (.cleanup 3, .ran)] }

/-- The run ends with all four threads in destructors. -/
theorem run_lateTasks : Run Step (start EXECUTOR_THREAD_POOL_SIZE) lateTasks stuckPool :=
  .cons rfl <| .cons rfl <| .cons rfl <| .cons rfl <| .cons ⟨rfl, rfl⟩ <| .cons ⟨rfl, rfl⟩ <|
    .cons ⟨rfl, rfl⟩ <| .cons ⟨rfl, rfl⟩ <|
    .cons ⟨rfl, rfl⟩ <| .cons ⟨by decide, _, rfl, by decide, rfl⟩ <| .cons ⟨by decide, rfl⟩ <|
    .cons ⟨rfl, rfl⟩ <| .cons ⟨by decide, _, rfl, by decide, rfl⟩ <| .cons ⟨by decide, rfl⟩ <|
    .cons ⟨rfl, rfl⟩ <| .cons ⟨by decide, _, rfl, by decide, rfl⟩ <| .cons ⟨by decide, rfl⟩ <|
    .cons ⟨rfl, rfl⟩ <| .cons ⟨by decide, _, rfl, by decide, rfl⟩ <| .cons ⟨by decide, rfl⟩ <|
    .cons ⟨rfl, _, _, rfl, rfl⟩ <| .cons ⟨rfl, _, _, rfl, rfl⟩ <|
    .cons ⟨rfl, _, _, rfl, rfl⟩ <| .cons ⟨rfl, _, _, rfl, rfl⟩ <|
    .cons ⟨_, rfl, rfl⟩ <| .cons ⟨_, rfl, rfl⟩ <| .cons ⟨_, rfl, rfl⟩ <| .cons ⟨_, rfl, rfl⟩ <|
    .cons ⟨_, rfl, rfl⟩ <| .cons ⟨_, rfl, rfl⟩ <| .cons ⟨_, rfl, rfl⟩ <| .cons ⟨_, rfl, rfl⟩ <|
    .nil _

/-- Each of the four guards has one task in the queue, where no thread looks any more. -/
theorem deadlocked_stuckPool : stuckPool.Deadlocked := by
  intro phase hmem
  simp only [stuckPool, List.mem_cons, List.not_mem_nil, or_false] at hmem
  rcases hmem with rfl | rfl | rfl | rfl
  · exact ⟨0, rfl, Nat.one_pos⟩
  · exact ⟨1, rfl, Nat.one_pos⟩
  · exact ⟨2, rfl, Nat.one_pos⟩
  · exact ⟨3, rfl, Nat.one_pos⟩

/-- The pool of four threads is stuck for ever behind four clean-ups that came too early. -/
theorem stuck_forever_sample :
    Run Step (start EXECUTOR_THREAD_POOL_SIZE) lateTasks stuckPool ∧
      ∀ later y, Run Step stuckPool later y → ∀ e z, e.OfThread → ¬ y.Step e z := by
  have hopen : ∀ e ∈ lateTasks, e.BeforeShutdown := by
    intro e he
    simp only [lateTasks, List.mem_cons, List.not_mem_nil, or_false] at he
    casesm* _ ∨ _ <;> subst e <;> exact trivial
  have hstuck := (stuck_forever run_lateTasks hopen).2 deadlocked_stuckPool
  exact ⟨run_lateTasks, fun later y hlater => (hstuck later y hlater).2⟩

/-! ## A pool that drains -/

/-- No task of a guard is behind the clean-up of its owner, and no thread has dropped one. -/
structure Orderly (x : Executor) : Prop where
  order : x.tasksToDo.Pairwise fun a b => ∀ g task, a = .cleanup g → b ≠ .guarded g task
  entering : ∀ g, .cleanup g ∈ x.tasksToDo → ∀ task, (g, task) ∉ x.entering
  cleansUp : ∀ g, x.CleansUp g →
    (∀ task, (g, task) ∉ x.entering) ∧ ∀ task, .guarded g task ∉ x.tasksToDo
  kept : ∀ task, (task, .dropped) ∉ x.ledger

/-- An empty queue is in order. -/
theorem orderly_start (n : ℕ) : (start n).Orderly where
  order := .nil
  entering g h := by cases h
  cleansUp g h := by
    obtain ⟨phase, hmem, hphase⟩ := h
    obtain rfl := List.eq_of_mem_replicate hmem
    cases hphase
  kept task h := by cases h

/-- A thread that cleans up was there before, or is the one that went on. -/
theorem CleansUp.of_set {threads : List ThreadPhase}
    (h : ∃ phase' ∈ threads.set w phase, phase'.cleansUp g = true) :
    (∃ phase' ∈ threads, phase'.cleansUp g = true) ∨ phase.cleansUp g = true := by
  obtain ⟨phase', hmem, hphase⟩ := h
  rcases List.mem_or_eq_of_mem_set hmem with hold | rfl
  · exact Or.inl ⟨phase', hold, hphase⟩
  · exact Or.inr hphase

/-- A thread goes on, and does not come to clean up. -/
theorem Orderly.thread (h : x.Orderly) (hw : x.threads[w]? = some phase) {next : ThreadPhase}
    (hnext : ∀ g, next.cleansUp g = true → phase.cleansUp g = true) (g : ℕ)
    (hcleans : ∃ phase' ∈ x.threads.set w next, phase'.cleansUp g = true) :
    (∀ task, (g, task) ∉ x.entering) ∧ ∀ task, .guarded g task ∉ x.tasksToDo := by
  rcases CleansUp.of_set hcleans with hold | hnew
  · exact h.cleansUp g hold
  · exact h.cleansUp g ⟨phase, List.mem_of_getElem? hw, hnext g hnew⟩

/-- The ledger grows by a task that was not dropped. -/
theorem Orderly.kept_append (h : x.Orderly) {outcome : Outcome} (hkept : outcome ≠ .dropped)
    (task' : TaskData) : (task', .dropped) ∉ x.ledger ++ [(task, outcome)] := by
  intro hmem
  rcases List.mem_append.mp hmem with hold | hnew
  · exact h.kept task' hold
  · exact hkept (Prod.mk.inj (List.mem_singleton.mp hnew)).2.symm

/-- A task is counted while nobody cleans up behind its guard. -/
theorem Orderly.enter (h : x.Orderly) {task : ℕ} {admitted : List (ℕ × ℕ)}
    (hok : .cleanup g ∉ x.tasksToDo ∧ ¬ x.CleansUp g) :
    Orderly { x.setGuard g guard with
      admitted := admitted
      entering := (g, task) :: x.entering } := by
  refine ⟨h.order, fun g' hmem task' hin => ?_, fun g' hcleans => ⟨fun task' hin => ?_,
    (h.cleansUp g' hcleans).2⟩, h.kept⟩
  · rcases List.mem_cons.mp hin with hnew | hold
    · obtain rfl : g' = g := (Prod.mk.inj hnew).1
      exact hok.1 hmem
    · exact h.entering g' hmem task' hold
  · rcases List.mem_cons.mp hin with hnew | hold
    · obtain rfl : g' = g := (Prod.mk.inj hnew).1
      exact hok.2 hcleans
    · exact (h.cleansUp g' hcleans).1 task' hold

/-- It then comes in front of the clean-up of its owner. -/
theorem Orderly.push (h : x.Orderly) {task : ℕ} (hin : (g, task) ∈ x.entering) :
    Orderly { x with
      entering := x.entering.erase (g, task)
      tasksToDo := x.tasksToDo ++ [.guarded g task] } := by
  refine ⟨?_, fun g' hmem task' herase => ?_, fun g' hcleans => ?_, h.kept⟩
  · rw [List.pairwise_append]
    refine ⟨h.order, List.pairwise_singleton _ _, fun a ha b hb g' task' hclean hguarded => ?_⟩
    rw [List.mem_singleton.mp hb] at hguarded
    obtain ⟨rfl, rfl⟩ := TaskData.guarded.inj hguarded
    exact h.entering g (hclean ▸ ha) task hin
  · rcases List.mem_append.mp hmem with hold | hnew
    · exact h.entering g' hold task' (List.mem_of_mem_erase herase)
    · cases List.mem_singleton.mp hnew
  · obtain ⟨hnone, hqueued⟩ := h.cleansUp g' hcleans
    refine ⟨fun task' herase => hnone task' (List.mem_of_mem_erase herase), fun task' hnew => ?_⟩
    rcases List.mem_append.mp hnew with hold | hlast
    · exact hqueued task' hold
    · obtain ⟨rfl, rfl⟩ := TaskData.guarded.inj (List.mem_singleton.mp hlast)
      exact hnone task' hin

/-- A clean-up is queued when all counted tasks are in the queue. -/
theorem Orderly.cleanup (h : x.Orderly) (hok : ∀ task, (g, task) ∉ x.entering) :
    Orderly { x with tasksToDo := x.tasksToDo ++ [.cleanup g] } := by
  refine ⟨?_, fun g' hmem => ?_, fun g' hcleans => ⟨(h.cleansUp g' hcleans).1, fun task hnew => ?_⟩,
    h.kept⟩
  · rw [List.pairwise_append]
    refine ⟨h.order, List.pairwise_singleton _ _, fun a _ b hb g' task _ hguarded => ?_⟩
    rw [List.mem_singleton.mp hb] at hguarded
    cases hguarded
  · rcases List.mem_append.mp hmem with hold | hnew
    · exact h.entering g' hold
    · obtain rfl : g' = g := TaskData.cleanup.inj (List.mem_singleton.mp hnew)
      exact hok
  · rcases List.mem_append.mp hnew with hold | hlast
    · exact (h.cleansUp g' hcleans).2 task hold
    · cases List.mem_singleton.mp hlast

/-- A clean-up is taken, and the tasks of its guard were in front of it. -/
theorem Orderly.pop (h : x.Orderly) (hqueue : x.tasksToDo = task :: rest) :
    (x.pop w task rest).Orderly := by
  have horder := h.order
  rw [hqueue, List.pairwise_cons] at horder
  obtain ⟨hfirst, horder⟩ := horder
  have hold : ∀ {task'}, task' ∈ rest → task' ∈ x.tasksToDo := by
    intro task' hmem
    rw [hqueue]
    exact List.mem_cons_of_mem _ hmem
  refine ⟨horder, fun g hmem => h.entering g (hold hmem), fun g hcleans => ?_, h.kept⟩
  rcases CleansUp.of_set hcleans with hbefore | hnew
  · obtain ⟨hnone, hqueued⟩ := h.cleansUp g hbefore
    exact ⟨hnone, fun task hin => hqueued task (hold hin)⟩
  · obtain rfl := beq_iff_eq.mp hnew
    refine ⟨h.entering g ?_, fun task hin => hfirst _ hin g task rfl rfl⟩
    rw [hqueue]
    exact List.mem_cons_self

/-- The callback of a task leaves the order of the queue as it is. -/
theorem Orderly.run (h : x.Orderly) (hw : x.threads[w]? = some (.called task))
    (hne : task ≠ .stop) (last : Bool) : (x.run w last task).Orderly := by
  have hcalls := calls_run x w last task
  generalize x.run w last task = y at hcalls
  cases hcalls with
  | guarded g task hkept hran =>
      exact ⟨h.order, h.entering, (h.thread hw fun g hnext => by cases hnext), h.kept_append hkept⟩
  | cleanup g =>
      exact ⟨h.order, h.entering, (h.thread hw fun g hnext => by cases hnext),
        h.kept_append (by simp)⟩
  | last g hguard halive =>
      refine ⟨h.order, h.entering, h.thread hw fun g' hnext => ?_,
        h.kept_append (by simp)⟩
      obtain rfl := beq_iff_eq.mp hnext
      exact beq_self_eq_true _
  | stop => exact absurd rfl hne

/-- **Step.** The order is kept as long as tasks come in time. -/
theorem Orderly.step (hx : x.Open) (h : x.Orderly) (hok : x.InTime e) (hstep : x.Step e y) :
    y.Orderly := by
  cases e with
  | create => rw [hstep]; exact ⟨h.order, h.entering, h.cleansUp, h.kept⟩
  | exec g task => rw [hstep.2]; exact ⟨h.order, h.entering, h.cleansUp, h.kept⟩
  | enter g task =>
      obtain ⟨-, guard, -, -, rfl⟩ := hstep
      exact h.enter hok
  | push g task =>
      obtain ⟨hin, rfl⟩ := hstep
      exact h.push hin
  | cleanup g =>
      obtain ⟨-, rfl⟩ := hstep
      exact h.cleanup hok
  | pop w =>
      obtain ⟨-, task, rest, hqueue, rfl⟩ := hstep
      exact h.pop hqueue
  | check w =>
      obtain ⟨task, hw, rfl⟩ := hstep
      rw [hx.running.check_eq hw]
      exact ⟨h.order, h.entering, h.thread hw fun _ hnext => hnext, h.kept⟩
  | run w last =>
      obtain ⟨task, hw, rfl⟩ := hstep
      exact h.run hw (hx.running.not_stop hw) last
  | finish w =>
      obtain ⟨g, task, guard, hw, -, rfl⟩ := hstep
      exact ⟨h.order, h.entering, (h.thread hw fun g hnext => by cases hnext), h.kept⟩
  | leave w =>
      obtain ⟨g, guard, hw, -, -, rfl⟩ := hstep
      exact ⟨h.order, h.entering, (h.thread hw fun g hnext => by cases hnext), h.kept⟩
  | destroy g =>
      obtain ⟨guard, -, -, rfl⟩ := hstep
      exact ⟨h.order, h.entering, h.cleansUp, h.kept⟩
  | destroyed g =>
      obtain ⟨guard, -, -, -, -, rfl⟩ := hstep
      exact ⟨h.order, h.entering, h.cleansUp, h.kept⟩
  | clear | cancel | exit => exact hok.elim

/-- What is in time is no step of a shutdown. -/
theorem InTime.beforeShutdown (h : x.InTime e) : e.BeforeShutdown := by
  cases e <;> first | exact trivial | exact h

/-- The pool keeps its threads. -/
theorem length_threads_step (hstep : x.Step e y) : y.threads.length = x.threads.length := by
  cases e with
  | pop w =>
      obtain ⟨-, task, rest, -, rfl⟩ := hstep
      exact List.length_set ..
  | check w =>
      obtain ⟨task, -, rfl⟩ := hstep
      rcases check_cases x w task with ⟨-, heq⟩ | ⟨-, heq⟩ <;> rw [heq] <;> exact List.length_set ..
  | run w last =>
      obtain ⟨task, -, rfl⟩ := hstep
      have hcalls := calls_run x w last task
      generalize x.run w last task = y at hcalls
      cases hcalls <;> exact List.length_set ..
  | finish w =>
      obtain ⟨g, task, guard, -, -, rfl⟩ := hstep
      exact List.length_set ..
  | leave w =>
      obtain ⟨g, guard, -, -, -, rfl⟩ := hstep
      exact List.length_set ..
  | exit w =>
      obtain ⟨-, -, rfl⟩ := hstep
      exact List.length_set ..
  | create | exec | enter | push | cleanup | destroy | destroyed | clear | cancel =>
      exact congrArg List.length (threads_step hstep id (by simp))

/-- A guard whose owner is cleaned up has no task left outside the threads. -/
theorem Orderly.outstanding_eq (h : x.Orderly) (hcleans : x.CleansUp g) :
    x.outstanding g = x.threads.countP (ThreadPhase.hasTaskOf g) := by
  obtain ⟨hentering, hqueued⟩ := h.cleansUp g hcleans
  have hcalls : x.entering.countP (fun call => call.1 == g) = 0 := by
    rw [List.countP_eq_zero]
    rintro ⟨g', task⟩ hin heq
    exact hentering task (beq_iff_eq.mp heq ▸ hin)
  have htasks : x.tasksToDo.countP (TaskData.ofGuard g) = 0 := by
    rw [List.countP_eq_zero]
    intro task hin heq
    cases task with
    | guarded g' task => exact hqueued task (beq_iff_eq.mp heq ▸ hin)
    | cleanup g' => cases heq
    | stop => cases heq
  have hdropped : x.ledger.countP (droppedOf g) = 0 := by
    rw [List.countP_eq_zero]
    rintro ⟨task, outcome⟩ hin heq
    simp only [droppedOf, Bool.and_eq_true, beq_iff_eq] at heq
    exact h.kept task (heq.2 ▸ hin)
  unfold outstanding
  omega

/-- A pool that is not quiet has a thread that can go on. -/
theorem Orderly.exists_step (hx : x.Open) (h : x.Orderly) (hpool : 0 < x.threads.length) :
    x.Quiet ∨ ∃ e y, e.OfThread ∧ x.Step e y := by
  by_contra hnot
  push Not at hnot
  obtain ⟨hbusy, hstuck⟩ := hnot
  have hphase := hx.of_stuck hstuck
  have hnobody : ∀ phase ∈ x.threads, phase = .idle ∧ x.tasksToDo = [] := by
    intro phase hmem
    rcases hphase _ hmem with hidle | ⟨g, rfl, hpos⟩
    · exact hidle
    · have hthreads : x.threads.countP (ThreadPhase.hasTaskOf g) = 0 := by
        rw [List.countP_eq_zero]
        intro phase hin heq
        rcases hphase _ hin with ⟨rfl, -⟩ | ⟨g', rfl, -⟩ <;> cases heq
      have hcleans : x.CleansUp g := ⟨_, hmem, beq_self_eq_true g⟩
      rw [hx.counted.counted g, h.outstanding_eq hcleans, hthreads] at hpos
      exact absurd hpos (Nat.lt_irrefl 0)
  obtain ⟨phase, hmem⟩ := List.exists_mem_of_length_pos hpool
  exact hbusy ⟨(hnobody phase hmem).2, fun phase hin => (hnobody phase hin).1⟩

/-- What the threads still have to do. -/
def work (x : Executor) : ℕ :=
  4 * x.tasksToDo.length + (x.threads.map ThreadPhase.remaining).sum

/-- The callback brings its thread closer to the head of the loop. -/
theorem Calls.remaining_lt (h : x.Calls w task y) (hw : x.threads[w]? = some (.called task)) :
    y.tasksToDo = x.tasksToDo ∧
      (y.threads.map ThreadPhase.remaining).sum < (x.threads.map ThreadPhase.remaining).sum := by
  have hset : ∀ {phase : ThreadPhase}, phase.remaining ≤ 1 →
      ((x.threads.set w phase).map ThreadPhase.remaining).sum <
        (x.threads.map ThreadPhase.remaining).sum := by
    intro phase hphase
    have hsum := sum_set_add ThreadPhase.remaining (b := phase) hw
    have htwo : (ThreadPhase.called task).remaining = 2 := rfl
    omega
  cases h with
  | guarded g task hkept hran => exact ⟨rfl, hset le_rfl⟩
  | cleanup g => exact ⟨rfl, hset (Nat.zero_le 1)⟩
  | last g hguard halive => exact ⟨rfl, hset le_rfl⟩
  | stop => exact ⟨rfl, hset (Nat.zero_le 1)⟩

/-- Each step of a thread leaves less to do. -/
theorem work_step (hthread : e.OfThread) (hstep : x.Step e y) : y.work < x.work := by
  cases e with
  | pop w =>
      obtain ⟨hw, task, rest, hqueue, rfl⟩ := hstep
      have hsum := sum_set_add ThreadPhase.remaining (b := .popped task) hw
      simp only [ThreadPhase.remaining] at hsum
      simp only [work, pop, hqueue, List.length_cons]
      omega
  | check w =>
      obtain ⟨task, hw, rfl⟩ := hstep
      rcases check_cases x w task with ⟨-, heq⟩ | ⟨-, heq⟩
      · have hsum := sum_set_add ThreadPhase.remaining (b := .stopped) hw
        simp only [ThreadPhase.remaining] at hsum
        simp only [heq, work]
        omega
      · have hsum := sum_set_add ThreadPhase.remaining (b := .called task) hw
        simp only [ThreadPhase.remaining] at hsum
        simp only [heq, work]
        omega
  | run w last =>
      obtain ⟨task, hw, rfl⟩ := hstep
      obtain ⟨hqueue, hlt⟩ := (calls_run x w last task).remaining_lt hw
      simp only [work, hqueue]
      omega
  | finish w =>
      obtain ⟨g, task, guard, hw, -, rfl⟩ := hstep
      have hsum := sum_set_add ThreadPhase.remaining (b := .idle) hw
      simp only [ThreadPhase.remaining] at hsum
      simp only [work, setGuard]
      omega
  | leave w =>
      obtain ⟨g, guard, hw, -, -, rfl⟩ := hstep
      have hsum := sum_set_add ThreadPhase.remaining (b := .idle) hw
      simp only [ThreadPhase.remaining] at hsum
      simp only [work, setGuard]
      omega
  | create | exec | enter | push | cleanup | destroy | destroyed | clear | cancel | exit =>
      exact hthread.elim

/-- The threads make no more steps than they have work. -/
theorem length_le_work (hrun : Run Step x events y) (hthreads : ∀ e ∈ events, e.OfThread) :
    y.work + events.length ≤ x.work := by
  induction hrun with
  | nil x => exact le_rfl
  | cons hstep _ ih =>
      have hlt := work_step (hthreads _ List.mem_cons_self) hstep
      have hrest := ih fun e he => hthreads e (List.mem_cons_of_mem _ he)
      rw [List.length_cons]
      omega

/-- The threads come to an end, in whatever order they go on, and then all tasks that were
queued have been run or skipped. -/
structure Drains (x : Executor) : Prop where
  bounded : ∀ later y, Run Step x later y → (∀ e ∈ later, e.OfThread) → later.length ≤ x.work
  goes_on : ∀ later y, Run Step x later y → (∀ e ∈ later, e.OfThread) →
    y.Quiet ∨ ∃ e z, e.OfThread ∧ y.Step e z
  done : ∀ later y, Run Step x later y → (∀ e ∈ later, e.OfThread) → y.Quiet →
    ∀ task ∈ x.taken ++ x.tasksToDo, ∃ outcome, outcome ≠ .dropped ∧ (task, outcome) ∈ y.ledger

/-- **The pool drains** before a shutdown, as long as no task is handed over to a guard once
the clean-up of its owner is queued: no thread waits for ever in a destructor. -/
theorem pool_drains (hn : 0 < n) (hrun : Run (guarded InTime Step) (start n) events x) :
    x.Drains := by
  have hinv : ∀ {x : Executor} {e : ExecutorEvent} {y : Executor},
      (x.Open ∧ x.Orderly ∧ x.threads.length = n) → guarded InTime Step x e y →
        y.Open ∧ y.Orderly ∧ y.threads.length = n := by
    rintro x e y ⟨hx, ho, hlength⟩ ⟨hok, hstep⟩
    exact ⟨hx.step hok.beforeShutdown hstep, ho.step hx hok hstep,
      (length_threads_step hstep).trans hlength⟩
  have hx := hrun.preserves (fun x => x.Open ∧ x.Orderly ∧ x.threads.length = n)
    (fun _ _ _ => hinv) ⟨open_start n, orderly_start n, List.length_replicate⟩
  have hlater : ∀ later y, Run Step x later y → (∀ e ∈ later, e.OfThread) →
      y.Open ∧ y.Orderly ∧ y.threads.length = n := by
    intro later y hrest hthreads
    refine (hrest.guard hthreads).preserves (fun x => x.Open ∧ x.Orderly ∧ x.threads.length = n) ?_ hx
    rintro x e y hx ⟨hthread, hstep⟩
    refine hinv hx ⟨?_, hstep⟩
    cases e <;> first | exact trivial | exact hthread.elim
  refine ⟨fun later y hrest hthreads => ?_, fun later y hrest hthreads => ?_,
    fun later y hrest hthreads hquiet task hmem => ?_⟩
  · have hle := length_le_work hrest hthreads
    omega
  · obtain ⟨hy, ho, hlength⟩ := hlater later y hrest hthreads
    exact ho.exists_step hy (hlength ▸ hn)
  · obtain ⟨hy, ho, -⟩ := hlater later y hrest hthreads
    have hfifo := fifo_run hrest
    rw [hquiet.1, List.append_nil] at hfifo
    have htaken : task ∈ y.taken := by
      rw [hfifo]
      exact List.mem_append_left _ hmem
    have hidle : ∀ phase ∈ y.threads, phase.holds task = false := by
      intro phase hin
      rw [hquiet.2 phase hin]
      rfl
    obtain ⟨outcome, hentry⟩ := hy.logged.mem_ledger htaken hidle
    exact ⟨outcome, fun hdropped => ho.kept _ (hdropped ▸ hentry), hentry⟩

/-- An owner that is cleaned up behind its last task. -/
def lastTask : List ExecutorEvent :=
  [.create, .exec 0 7, .enter 0 7, .push 0 7, .cleanup 0, .pop 0, .check 0, .run 0 false, .pop 1,
    .check 1, .run 1 true]

/-- One thread is in the task, and another one is in the destructor. -/
def drainingPool : Executor :=
  { start EXECUTOR_THREAD_POOL_SIZE with
    taken := [.guarded 0 7, .cleanup 0]
    threads := [.inTask 0 7, .waiting 0, .idle, .idle]
    guards := [{ dataToProcess := 1, phase := .stopping }]
    ledger := [(.guarded 0 7, .ran), (.cleanup 0, .ran)] }

/-- The pool drains behind the clean-up of an owner whose last task is still running. -/
theorem pool_drains_sample :
    Run (guarded InTime Step) (start EXECUTOR_THREAD_POOL_SIZE) lastTask drainingPool ∧
      drainingPool.Drains := by
  have hnobody : ¬ (start EXECUTOR_THREAD_POOL_SIZE).CleansUp 0 := by
    rintro ⟨phase, hmem, hphase⟩
    obtain rfl := List.eq_of_mem_replicate hmem
    cases hphase
  have hrun : Run (guarded InTime Step) (start EXECUTOR_THREAD_POOL_SIZE) lastTask drainingPool :=
    .cons ⟨trivial, rfl⟩ <| .cons ⟨trivial, rfl, rfl⟩ <|
      .cons ⟨⟨List.not_mem_nil, hnobody⟩, by decide, _, rfl, by decide, rfl⟩ <|
      .cons ⟨trivial, by decide, rfl⟩ <| .cons ⟨fun task => List.not_mem_nil, rfl, rfl⟩ <|
      .cons ⟨trivial, rfl, _, _, rfl, rfl⟩ <| .cons ⟨trivial, _, rfl, rfl⟩ <|
      .cons ⟨trivial, _, rfl, rfl⟩ <| .cons ⟨trivial, rfl, _, _, rfl, rfl⟩ <|
      .cons ⟨trivial, _, rfl, rfl⟩ <| .cons ⟨trivial, _, rfl, rfl⟩ <| .nil _
  exact ⟨hrun, pool_drains (by decide) hrun⟩

end Executor

end PrivmxEndpoint
