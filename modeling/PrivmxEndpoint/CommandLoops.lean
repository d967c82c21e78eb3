import Mathlib

/-!
# Loops of the command line

`DataProcesor::ExecuteCommand` runs the commands of `privmxcli` one by one.  A loop runs its
body while it is read, and every loop that is open records the commands that are executed.
`loopStop` then executes what its loop has recorded as often as the count still asks for.

What a `loopStop` executes again is recorded by the loops around it once more, behind the
commands of the inner loop.  A program with loops does what it says if and only if no loop
that is repeated has a repeated loop in its body, and no count is less than one
(`run_eq_meaning_iff`).
-/

namespace PrivmxEndpoint

variable {α : Type*}

/-- A command with its arguments, after `Executer::getFunc`. -/
inductive CliCommand (α : Type*)
  | loopStart (numberOfTimes : ℤ)
  | loopStop
  /-- A command that the executer runs. -/
  | execute (command : α)
  deriving Repr, DecidableEq

/-- `Loop`. -/
structure Loop (α : Type*) where
  commands : List (CliCommand α)
  numberOfTimes : ℤ
  deriving Repr, DecidableEq

/-- The loops that are open, the innermost one first, and the commands that the executer has
run. -/
structure DataProcesor (α : Type*) where
  loops : List (Loop α)
  executed : List α
  deriving Repr, DecidableEq

namespace DataProcesor

def start : DataProcesor α where
  loops := []
  executed := []

/-- `_loops[i].commands.push_back(command)`, for every loop and one command after the other. -/
def record (commands : List (CliCommand α)) (loops : List (Loop α)) : List (Loop α) :=
  loops.map fun loop => { loop with commands := loop.commands ++ commands }

/-- `DataProcesor::ExecuteCommand`, with fuel for loops in loops.  Without a loop, `loopStop`
has no meaning. -/
def executeCommand : ℕ → DataProcesor α → CliCommand α → Option (DataProcesor α)
  | _, d, .loopStart n =>
      some { d with
        loops := { commands := [], numberOfTimes := n } :: record [.loopStart n] d.loops }
  | _, d, .execute c =>
      some { loops := record [.execute c] d.loops, executed := d.executed ++ [c] }
  | 0, _, .loopStop => none
  | fuel + 1, d, .loopStop =>
      match d.loops with
      | [] => none
      | loop :: loops =>
          (List.replicate (loop.numberOfTimes - 1).toNat loop.commands).flatten.foldlM
            (executeCommand fuel) { d with loops := record [.loopStop] loops }

/-- One command after the other. -/
def executeAll (fuel : ℕ) (d : DataProcesor α) (commands : List (CliCommand α)) :
    Option (DataProcesor α) :=
  commands.foldlM (executeCommand fuel) d

/-- What the executer runs for a list of commands. -/
def run (fuel : ℕ) (commands : List (CliCommand α)) : Option (List α) :=
  (executeAll fuel start commands).map DataProcesor.executed

end DataProcesor

/-- Commands with loops. -/
inductive CliProgram (α : Type*)
  | skip
  | execute (command : α)
  | seq (first second : CliProgram α)
  | loop (numberOfTimes : ℤ) (body : CliProgram α)
  deriving Repr, DecidableEq

namespace CliProgram

/-- The commands of a program. -/
def commands : CliProgram α → List (CliCommand α)
  | .skip => []
  | .execute c => [.execute c]
  | .seq p q => p.commands ++ q.commands
  | .loop n body => .loopStart n :: (body.commands ++ [.loopStop])

/-- What a program says: a loop is its body, as often as its count. -/
def meaning : CliProgram α → List α
  | .skip => []
  | .execute c => [c]
  | .seq p q => p.meaning ++ q.meaning
  | .loop n body => (List.replicate n.toNat body.meaning).flatten

def depth : CliProgram α → ℕ
  | .skip | .execute _ => 0
  | .seq p q => max p.depth q.depth
  | .loop _ body => body.depth + 1

/-- The program executes nothing. -/
def Silent : CliProgram α → Prop
  | .skip => True
  | .execute _ => False
  | .seq p q => p.Silent ∧ q.Silent
  | .loop _ body => body.Silent

/-- The loops that execute something have the count one. -/
def Once : CliProgram α → Prop
  | .skip | .execute _ => True
  | .seq p q => p.Once ∧ q.Once
  | .loop n body => body.Silent ∨ n = 1 ∧ body.Once

/-- No loop that is repeated has a repeated loop in its body, and no count is less than one,
as far as the loops execute something. -/
def Exact : CliProgram α → Prop
  | .skip | .execute _ => True
  | .seq p q => p.Exact ∧ q.Exact
  | .loop n body => body.Silent ∨ n = 1 ∧ body.Exact ∨ 1 < n ∧ body.Once

/-! ## What is executed -/

/-- The commands of a program that was recorded, executed and recorded again, `k` times in
all. -/
def recorded : ℕ → CliProgram α → List (CliCommand α)
  | _, .skip => []
  | _, .execute c => [.execute c]
  | k, .seq p q => recorded k p ++ recorded k q
  | k, .loop n body =>
      .loopStart n :: (recorded k body ++ .loopStop ::
        (List.replicate (k * (n - 1).toNat) (recorded (k + 1) body)).flatten)

/-- What is executed for them. -/
def executed : ℕ → CliProgram α → List α
  | _, .skip => []
  | _, .execute c => [c]
  | k, .seq p q => executed k p ++ executed k q
  | k, .loop n body =>
      executed k body ++ (List.replicate ((k + 1) * (n - 1).toNat) (executed (k + 1) body)).flatten

/-- Around a program without loops stand its own commands. -/
theorem recorded_zero (p : CliProgram α) : recorded 0 p = p.commands := by
  induction p with
  | skip => rfl
  | execute c => rfl
  | seq p q hp hq => rw [recorded, hp, hq, commands]
  | loop n body ih => rw [recorded, ih, commands, Nat.zero_mul, List.replicate_zero, List.flatten_nil]

end CliProgram

namespace DataProcesor

variable {d : DataProcesor α} {fuel : ℕ}

/-- Commands are recorded in the order in which they come. -/
theorem record_append (commands commands' : List (CliCommand α)) (loops : List (Loop α)) :
    record (commands ++ commands') loops = record commands' (record commands loops) := by
  unfold record
  rw [List.map_map]
  refine List.map_congr_left fun loop _ => ?_
  simp only [Function.comp_apply, List.append_assoc]

/-- Without an open loop nothing is recorded. -/
theorem record_nil (loops : List (Loop α)) : record [] loops = loops := by
  unfold record
  simp

/-- A command list is executed part by part. -/
theorem executeAll_append (commands commands' : List (CliCommand α)) :
    executeAll fuel d (commands ++ commands') =
      (executeAll fuel d commands).bind fun d' => executeAll fuel d' commands' :=
  List.foldlM_append ..

/-- A command list is executed command by command. -/
theorem executeAll_cons (c : CliCommand α) (commands : List (CliCommand α)) :
    executeAll fuel d (c :: commands) =
      (executeCommand fuel d c).bind fun d' => executeAll fuel d' commands :=
  rfl

/-- A start opens a loop and is recorded in the loops around it. -/
theorem executeCommand_loopStart (n : ℤ) :
    executeCommand fuel d (.loopStart n) = some { d with
      loops := { commands := [], numberOfTimes := n } :: record [.loopStart n] d.loops } := by
  cases fuel <;> rfl

/-- A plain command is executed and recorded. -/
theorem executeCommand_execute (c : α) :
    executeCommand fuel d (.execute c) =
      some { loops := record [.execute c] d.loops, executed := d.executed ++ [c] } := by
  cases fuel <;> rfl

/-- A stop closes the innermost loop and executes its body again. -/
theorem executeCommand_loopStop (loop : Loop α) (loops : List (Loop α)) (executed : List α) :
    executeCommand (fuel + 1) { loops := loop :: loops, executed := executed } .loopStop =
      executeAll fuel { loops := record [.loopStop] loops, executed := executed }
        (List.replicate (loop.numberOfTimes - 1).toNat loop.commands).flatten :=
  rfl

/-- If the commands do the same from everywhere, they do so as often as they are executed. -/
theorem executeAll_replicate {commands commands' : List (CliCommand α)} {out : List α}
    (h : ∀ d : DataProcesor α, executeAll fuel d commands =
      some { loops := record commands' d.loops, executed := d.executed ++ out })
    (n : ℕ) (d : DataProcesor α) :
    executeAll fuel d (List.replicate n commands).flatten =
      some { loops := record (List.replicate n commands').flatten d.loops,
             executed := d.executed ++ (List.replicate n out).flatten } := by
  induction n generalizing d with
  | zero => simp [executeAll, record_nil]
  | succ n ih =>
      rw [List.replicate_succ, List.flatten_cons, executeAll_append, h, Option.bind_some, ih,
        List.replicate_succ, List.flatten_cons, record_append, List.replicate_succ,
        List.flatten_cons, List.append_assoc]

open CliProgram

/-- **What the commands of a program do.**  The executer runs `executed k p`, and the loops
around record the commands of the program as it is executed the next time. -/
theorem executeAll_recorded (p : CliProgram α) (k fuel : ℕ) (hfuel : p.depth ≤ fuel)
    (d : DataProcesor α) :
    executeAll fuel d (recorded k p) =
      some { loops := record (recorded (k + 1) p) d.loops,
             executed := d.executed ++ p.executed k } := by
  induction p generalizing k fuel d with
  | skip => simp [recorded, executeAll, CliProgram.executed, record_nil]
  | execute c =>
      rw [recorded, executeAll_cons, executeCommand_execute]
      rfl
  | seq p q hp hq =>
      obtain ⟨hpfuel, hqfuel⟩ := max_le_iff.mp hfuel
      rw [recorded, executeAll_append, hp k fuel hpfuel, Option.bind_some, hq k fuel hqfuel, recorded,
        record_append, CliProgram.executed, List.append_assoc]
  | loop n body ih =>
      obtain ⟨fuel, rfl⟩ : ∃ m, fuel = m + 1 := ⟨fuel - 1, by unfold depth at hfuel; omega⟩
      have hbody : body.depth ≤ fuel := Nat.le_of_succ_le_succ hfuel
      -- the body while it is read, what `loopStop` executes, and what was recorded behind it
      have hfirst := ih k (fuel + 1) (Nat.le_succ_of_le hbody)
      have hagain := executeAll_replicate (ih (k + 1) fuel hbody) (n - 1).toNat
      have hbehind := executeAll_replicate (ih (k + 1) (fuel + 1) (Nat.le_succ_of_le hbody))
        (k * (n - 1).toNat)
      have hcount : (k + 1) * (n - 1).toNat = (n - 1).toNat + k * (n - 1).toNat := by ring
      rw [recorded, executeAll_cons, executeCommand_loopStart, Option.bind_some, executeAll_append,
        hfirst, Option.bind_some, executeAll_cons]
      simp only [record, List.map_cons, List.nil_append]
      rw [executeCommand_loopStop, hagain, Option.bind_some, hbehind]
      simp only [recorded, CliProgram.executed, hcount, List.replicate_add, List.flatten_append,
        List.append_assoc, record, List.map_map, Function.comp_def, List.cons_append, List.nil_append]

end DataProcesor

namespace CliProgram

/-! ## What should be executed -/

/-- A program executes nothing exactly when it is silent. -/
theorem executed_eq_nil_iff (p : CliProgram α) (k : ℕ) : p.executed k = [] ↔ p.Silent := by
  induction p generalizing k with
  | skip => exact iff_of_true rfl trivial
  | execute c => exact iff_of_false nofun id
  | seq p q hp hq => rw [executed, List.append_eq_nil_iff, hp, hq, Silent]
  | loop n body ih =>
      rw [executed, List.append_eq_nil_iff, ih, Silent]
      refine ⟨And.left, fun h => ⟨h, ?_⟩⟩
      rw [(ih (k + 1)).mpr h, List.flatten_replicate_nil]

/-- A silent program means nothing. -/
theorem meaning_of_silent (p : CliProgram α) (h : p.Silent) : p.meaning = [] := by
  induction p with
  | skip => rfl
  | execute c => exact h.elim
  | seq p q hp hq => rw [meaning, hp h.1, hq h.2, List.append_nil]
  | loop n body ih => rw [meaning, ih h, List.flatten_replicate_nil]

/-- The length of a repeated body. -/
theorem length_flatten_replicate (n : ℕ) (l : List α) :
    (List.replicate n l).flatten.length = n * l.length := by
  rw [List.length_flatten, List.map_replicate, List.sum_replicate_nat]

/-- Too much is executed, if anything. -/
theorem length_meaning_le (p : CliProgram α) (k : ℕ) :
    p.meaning.length ≤ (p.executed k).length := by
  induction p generalizing k with
  | skip => exact le_rfl
  | execute c => exact le_rfl
  | seq p q hp hq =>
      rw [meaning, executed, List.length_append, List.length_append]
      exact Nat.add_le_add (hp k) (hq k)
  | loop n body ih =>
      rw [meaning, executed, List.length_append, length_flatten_replicate, length_flatten_replicate]
      have hfirst := ih k
      have hagain : (n - 1).toNat * body.meaning.length ≤
          (k + 1) * (n - 1).toNat * (body.executed (k + 1)).length := by
        refine Nat.mul_le_mul ?_ (ih (k + 1))
        exact Nat.le_mul_of_pos_left _ k.succ_pos
      have hcount : n.toNat ≤ 1 + (n - 1).toNat := by omega
      calc n.toNat * body.meaning.length
          ≤ (1 + (n - 1).toNat) * body.meaning.length := Nat.mul_le_mul_right _ hcount
        _ = body.meaning.length + (n - 1).toNat * body.meaning.length := by ring
        _ ≤ _ := Nat.add_le_add hfirst hagain

/-- Both parts of a sequence are executed as they should be. -/
theorem executed_seq_iff (p q : CliProgram α) (k : ℕ) :
    (seq p q).executed k = (seq p q).meaning ↔
      p.executed k = p.meaning ∧ q.executed k = q.meaning := by
  rw [executed, meaning]
  constructor
  · intro h
    have hlength := congrArg List.length h
    rw [List.length_append, List.length_append] at hlength
    have hp := length_meaning_le p k
    have hq := length_meaning_le q k
    exact List.append_inj h (by omega)
  · rintro ⟨hp, hq⟩
    rw [hp, hq]

/-- A loop of one round is as exact as its body. -/
theorem executed_loop_one (body : CliProgram α) (k : ℕ) :
    (loop 1 body).executed k = (loop 1 body).meaning ↔ body.executed k = body.meaning := by
  simp [executed, meaning]

/-- A loop with a count below one should not execute anything. -/
theorem executed_loop_of_lt {n : ℤ} (hn : n < 1) (body : CliProgram α) (k : ℕ) :
    (loop n body).executed k = (loop n body).meaning ↔ body.Silent := by
  have hnothing : (loop n body).meaning = [] := by
    rw [meaning, Int.toNat_of_nonpos (by omega), List.replicate_zero, List.flatten_nil]
  rw [hnothing, executed_eq_nil_iff, Silent]

/-- A loop over nothing is exact. -/
theorem executed_loop_of_silent {n : ℤ} {body : CliProgram α} (h : body.Silent) (k : ℕ) :
    (loop n body).executed k = (loop n body).meaning := by
  rw [(executed_eq_nil_iff (loop n body) k).mpr h, meaning_of_silent (loop n body) h]

/-- The lengths of a repeated loop that is executed as it should be. -/
theorem length_eq_of_loop {n : ℤ} (hn : 1 < n) {body : CliProgram α} {k : ℕ}
    (h : (loop n body).executed k = (loop n body).meaning) :
    (body.executed k).length = body.meaning.length ∧
      (k + 1) * (n - 1).toNat * (body.executed (k + 1)).length =
        (n - 1).toNat * body.meaning.length := by
  have hlength := congrArg List.length h
  rw [executed, meaning, List.length_append, length_flatten_replicate, length_flatten_replicate]
    at hlength
  have hfirst := length_meaning_le body k
  have hagain : (n - 1).toNat * body.meaning.length ≤
      (k + 1) * (n - 1).toNat * (body.executed (k + 1)).length := by
    refine Nat.mul_le_mul ?_ (length_meaning_le body (k + 1))
    exact Nat.le_mul_of_pos_left _ k.succ_pos
  have hcount : n.toNat * body.meaning.length =
      body.meaning.length + (n - 1).toNat * body.meaning.length := by
    rw [show n.toNat = 1 + (n - 1).toNat by omega]
    ring
  omega

/-- Where the program has been recorded before, a loop that is repeated is repeated too
often. -/
theorem executed_succ_iff (p : CliProgram α) (k : ℕ) :
    p.executed (k + 1) = p.meaning ↔ p.Once := by
  induction p generalizing k with
  | skip => exact iff_of_true rfl trivial
  | execute c => exact iff_of_true rfl trivial
  | seq p q hp hq => rw [executed_seq_iff, hp, hq, Once]
  | loop n body ih =>
      rw [Once]
      constructor
      · intro h
        by_cases hsilent : body.Silent
        · exact Or.inl hsilent
        rcases lt_trichotomy n 1 with hlt | rfl | hgt
        · exact absurd ((executed_loop_of_lt hlt body (k + 1)).mp h) hsilent
        · exact Or.inr ⟨rfl, (ih k).mp ((executed_loop_one body (k + 1)).mp h)⟩
        · refine absurd ?_ hsilent
          obtain ⟨-, hagain⟩ := length_eq_of_loop hgt h
          have hle := length_meaning_le body (k + 1 + 1)
          have hpos : 0 < (n - 1).toNat := by omega
          rw [← executed_eq_nil_iff body (k + 1 + 1), ← List.length_eq_zero_iff]
          by_contra hne
          have hlt : (n - 1).toNat * body.meaning.length <
              (k + 1 + 1) * (n - 1).toNat * (body.executed (k + 1 + 1)).length := by
            calc (n - 1).toNat * body.meaning.length
                ≤ (n - 1).toNat * (body.executed (k + 1 + 1)).length := Nat.mul_le_mul_left _ hle
              _ < (k + 1 + 1) * ((n - 1).toNat * (body.executed (k + 1 + 1)).length) :=
                  lt_mul_of_one_lt_left (Nat.mul_pos hpos (Nat.pos_of_ne_zero hne)) (by omega)
              _ = _ := by ring
          exact hlt.ne hagain.symm
      · rintro (hsilent | ⟨rfl, honce⟩)
        · exact executed_loop_of_silent hsilent (k + 1)
        · exact (executed_loop_one body (k + 1)).mpr ((ih k).mpr honce)

/-- A program whose loops run once is exact. -/
theorem Once.exact {p : CliProgram α} (h : p.Once) : p.Exact := by
  induction p with
  | skip => trivial
  | execute c => trivial
  | seq p q hp hq => exact ⟨hp h.1, hq h.2⟩
  | loop n body ih =>
      rcases h with hsilent | ⟨hn, honce⟩
      · exact Or.inl hsilent
      · exact Or.inr (Or.inl ⟨hn, ih honce⟩)

/-- The first pass and the passes behind it. -/
theorem executed_loop_of_gt {n : ℤ} (hn : 1 < n) (body : CliProgram α) :
    (loop n body).executed 0 = (loop n body).meaning ↔
      body.executed 0 = body.meaning ∧ body.executed 1 = body.meaning := by
  obtain ⟨m, hm⟩ : ∃ m, (n - 1).toNat = m + 1 := ⟨(n - 1).toNat - 1, by omega⟩
  have hcount : n.toNat = m + 1 + 1 := by omega
  constructor
  · intro h
    obtain ⟨hfirst, hagain⟩ := length_eq_of_loop hn h
    rw [hm, Nat.zero_add, Nat.one_mul] at hagain
    have hlength : (body.executed 1).length = body.meaning.length :=
      Nat.eq_of_mul_eq_mul_left m.succ_pos hagain
    simp only [executed, meaning, hm, hcount, Nat.zero_add, Nat.one_mul, List.replicate_succ,
      List.flatten_cons] at h
    obtain ⟨hzero, hrest⟩ := List.append_inj h hfirst
    exact ⟨hzero, (List.append_inj hrest hlength).1⟩
  · rintro ⟨hzero, hone⟩
    simp only [executed, meaning, hm, hcount, Nat.zero_add, Nat.one_mul, hzero, hone,
      List.replicate_succ, List.flatten_cons]

/-- **At the top a program is executed as meant exactly when it is exact.** -/
theorem executed_zero_iff (p : CliProgram α) : p.executed 0 = p.meaning ↔ p.Exact := by
  induction p with
  | skip => exact iff_of_true rfl trivial
  | execute c => exact iff_of_true rfl trivial
  | seq p q hp hq => rw [executed_seq_iff, hp, hq, Exact]
  | loop n body ih =>
      rw [Exact]
      constructor
      · intro h
        by_cases hsilent : body.Silent
        · exact Or.inl hsilent
        rcases lt_trichotomy n 1 with hlt | rfl | hgt
        · exact absurd ((executed_loop_of_lt hlt body 0).mp h) hsilent
        · exact Or.inr (Or.inl ⟨rfl, ih.mp ((executed_loop_one body 0).mp h)⟩)
        · have hone := ((executed_loop_of_gt hgt body).mp h).2
          exact Or.inr (Or.inr ⟨hgt, (executed_succ_iff body 0).mp hone⟩)
      · rintro (hsilent | ⟨rfl, hexact⟩ | ⟨hgt, honce⟩)
        · exact executed_loop_of_silent hsilent 0
        · exact (executed_loop_one body 0).mpr (ih.mpr hexact)
        · exact (executed_loop_of_gt hgt body).mpr
            ⟨ih.mpr honce.exact, (executed_succ_iff body 0).mpr honce⟩

end CliProgram

namespace DataProcesor

/-- A run with enough fuel executes the program. -/
theorem run_commands (p : CliProgram α) (fuel : ℕ) (hfuel : p.depth ≤ fuel) :
    run fuel p.commands = some (p.executed 0) := by
  rw [run, ← CliProgram.recorded_zero, executeAll_recorded p 0 fuel hfuel]
  rfl

/-- **Loops do what they say** if and only if no loop that is repeated has a repeated loop in
its body, and no count is less than one. -/
theorem run_eq_meaning_iff (p : CliProgram α) :
    (∃ N, ∀ fuel, N ≤ fuel → run fuel p.commands = some p.meaning) ↔ p.Exact := by
  rw [← CliProgram.executed_zero_iff]
  constructor
  · rintro ⟨N, h⟩
    have hrun := run_commands p (max N p.depth) (le_max_right _ _)
    rw [h _ (le_max_left _ _)] at hrun
    exact (Option.some.inj hrun).symm
  · intro h
    exact ⟨p.depth, fun fuel hfuel => h ▸ run_commands p fuel hfuel⟩

/-- Two passes of two: the second pass is one of three. -/
example : run 2 (CliProgram.loop 2 (.loop 2 (.execute 'a'))).commands =
    some ['a', 'a', 'a', 'a', 'a'] := by decide

end DataProcesor

end PrivmxEndpoint
