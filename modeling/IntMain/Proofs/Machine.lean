import Mathlib.Data.Option.Basic

/-!
# Machines that take one step at a time

A machine is a function from a state to the next one; a state without a next one is
final. A run is determined by its start, so a final state that is reached at all is
the only one, every other state of the run leads to it, and the run ends. Both the
machine for quadruples and the machine for assembly lines are of this kind; whether a
final state is a proper end is for them to say.

Both fetch from a list. `CodeAt` says that a piece of code stands at a position of it.
-/

namespace IntMain.Machine

variable {State : Type} {next : State → Option State}

/-- The state after `count` steps, if so many can be taken. -/
def after (next : State → Option State) : Nat → State → Option State
  | 0, state => some state
  | count + 1, state => (next state).bind (after next count)

/-- Some number of steps leads from one state to the other. -/
def Reaches (next : State → Option State) (start finish : State) : Prop :=
  ∃ count, after next count start = some finish

/-- At least `count` steps can be taken. -/
def Lasts (next : State → Option State) (count : Nat) (start : State) : Prop :=
  (after next count start).isSome = true

/-- Every number of steps can be taken. -/
def RunsForever (next : State → Option State) (start : State) : Prop :=
  ∀ count, Lasts next count start

/-- Steps are taken one after the other. If the machine stops among the first ones, no state comes
after them. -/
theorem after_add (first second : Nat) (start : State) :
    after next (first + second) start = (after next first start).bind (after next second) := by
  induction first generalizing start with
  | zero => rw [Nat.zero_add, after, Option.bind_some]
  | succ first inductionHypothesis =>
    rw [Nat.succ_add]
    cases stepped : next start with
    | none => simp only [after, stepped, Option.bind_none]
    | some middle => simp only [after, stepped, Option.bind_some, inductionHypothesis]

/-- After one step a machine is in its next state. -/
theorem after_one (start : State) : after next 1 start = next start := by
  rw [after]
  cases next start <;> rfl

/-- Without a step, a state reaches itself. -/
theorem Reaches.refl (start : State) : Reaches next start start := ⟨0, rfl⟩

/-- A step leads to the next state. -/
theorem Reaches.single {start finish : State} (step : next start = some finish) :
    Reaches next start finish := ⟨1, by rw [after_one, step]⟩

/-- Runs are joined where one ends and the other begins. The numbers of steps are forgotten. -/
theorem Reaches.trans {start middle finish : State} (first : Reaches next start middle)
    (second : Reaches next middle finish) : Reaches next start finish := by
  obtain ⟨before, reached⟩ := first
  obtain ⟨later, continued⟩ := second
  exact ⟨before + later, by rw [after_add, reached, Option.bind_some, continued]⟩

/-- A step before a run makes another run. -/
theorem Reaches.head {start middle finish : State} (step : next start = some middle)
    (rest : Reaches next middle finish) : Reaches next start finish :=
  (Reaches.single step).trans rest

/-- Fewer steps than can be taken can be taken. -/
theorem Lasts.mono {fewer more : Nat} {start : State} (lasting : Lasts next more start)
    (bound : fewer ≤ more) : Lasts next fewer start := by
  obtain ⟨rest, rfl⟩ := Nat.exists_eq_add_of_le bound
  rw [Lasts, after_add] at lasting
  exact Option.isSome_of_isSome_bind lasting

/-- A step before `count` steps makes one more. This is what loops are counted with. -/
theorem Lasts.head {count : Nat} {start middle : State} (step : next start = some middle)
    (lasting : Lasts next count middle) : Lasts next (count + 1) start := by
  simpa only [Lasts, after, step, Option.bind_some] using lasting

/-- What can be done from a reached state can be done from the start. The steps up to there are not
counted. -/
theorem Lasts.of_reaches {count : Nat} {start middle : State}
    (reached : Reaches next start middle) (lasting : Lasts next count middle) :
    Lasts next count start := by
  obtain ⟨before, reached⟩ := reached
  have longer : Lasts next (before + count) start := by
    rw [Lasts, after_add, reached]
    exact lasting
  exact longer.mono (Nat.le_add_left count before)

/-- A final state ends every run through it: from any state on the way, the remaining
steps lead to it. -/
theorem after_final {start middle final : State} {steps taken : Nat}
    (ended : after next steps start = some final) (halted : next final = none)
    (passed : after next taken start = some middle) :
    taken ≤ steps ∧ after next (steps - taken) middle = some final := by
  by_cases early : taken ≤ steps
  · obtain ⟨rest, rfl⟩ := Nat.exists_eq_add_of_le early
    rw [after_add, passed, Option.bind_some] at ended
    exact ⟨early, by rwa [Nat.add_sub_cancel_left]⟩
  · obtain ⟨rest, rfl⟩ := Nat.exists_eq_add_of_lt (Nat.lt_of_not_le early)
    rw [Nat.add_assoc, after_add, ended, Option.bind_some, Nat.add_comm rest 1, after_add] at passed
    simp [after, halted] at passed

/-- A run has at most one final state, because each state has at most one next state. -/
theorem final_unique {start left right : State} (toLeft : Reaches next start left)
    (leftFinal : next left = none) (toRight : Reaches next start right)
    (rightFinal : next right = none) : left = right := by
  obtain ⟨leftSteps, toLeft⟩ := toLeft
  obtain ⟨rightSteps, toRight⟩ := toRight
  obtain ⟨notLonger, rest⟩ := after_final toLeft leftFinal toRight
  obtain ⟨notShorter, _⟩ := after_final toRight rightFinal toLeft
  have same : leftSteps - rightSteps = 0 := by omega
  rw [same] at rest
  exact (Option.some.inj rest).symm

/-- A run with a final state takes a bounded number of steps. So a machine does not halt and run
forever from the same start. -/
theorem exists_not_lasts {start final : State} (reached : Reaches next start final)
    (halted : next final = none) : ∃ count, ¬ Lasts next count start := by
  obtain ⟨steps, ended⟩ := reached
  refine ⟨steps + 1, ?_⟩
  rw [Lasts, after_add, ended]
  simp [after, halted]

end IntMain.Machine

namespace IntMain

variable {Instruction : Type} {program : List Instruction} {position : Nat}

/-- The code stands in the program from that position on. More of the program may follow behind
it. -/
def CodeAt (program : List Instruction) (position : Nat) (code : List Instruction) : Prop :=
  code <+: program.drop position

namespace CodeAt

/-- The first instruction of the code is the one at its position, so it is what a step fetches. -/
theorem fetch {instruction : Instruction} {later : List Instruction}
    (placed : CodeAt program position (instruction :: later)) :
    program[position]? = some instruction := by
  obtain ⟨rest, whole⟩ := placed
  have head := congrArg List.head? whole
  rw [List.head?_drop] at head
  exact head.symm

/-- Code in a row: the second piece stands behind the first. In this way the place of every part of
a program follows from that of the whole. -/
theorem split {first second : List Instruction}
    (placed : CodeAt program position (first ++ second)) :
    CodeAt program position first ∧ CodeAt program (position + first.length) second := by
  obtain ⟨rest, whole⟩ := placed
  refine ⟨⟨second ++ rest, by rw [← whole, List.append_assoc]⟩, rest, ?_⟩
  rw [← List.drop_drop, ← whole, List.append_assoc, List.drop_left]

/-- What stands behind the first instruction stands one position further. -/
theorem tail {instruction : Instruction} {later : List Instruction}
    (placed : CodeAt program position (instruction :: later)) :
    CodeAt program (position + 1) later :=
  (show CodeAt program position ([instruction] ++ later) from placed).split.2

/-- The whole program stands at its start. -/
theorem whole (program : List Instruction) : CodeAt program 0 program := List.prefix_rfl

end CodeAt

end IntMain
