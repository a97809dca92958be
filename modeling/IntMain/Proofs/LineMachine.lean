import IntMain.Assembly.Selection
import IntMain.Proofs.QuadMachine

/-!
# The machine for assembly lines

The machine has the registers, the frame and the operands of the last comparison. It reads
and writes places: a register, an immediate value, or a slot of the frame. The arithmetic
instructions have two operands and compute as the quadruples do, by the same reading of
the operators. A jump on a relation looks at the last comparison, and a jump goes to the
first label of its name.

The machine is started behind the lines that set up the frame, and it stops at the label
behind the program's code. It has no stack, so the lines that push and pop have no next
state.
-/

namespace IntMain

/-- The value of an arithmetic instruction. -/
def Interpretation.arithmetic (meaning : Interpretation) : Arithmetic → Int → Int → Int
  | .add => meaning.add
  | .sub => meaning.sub
  | .mul => meaning.mul
  | .div => meaning.div

/-- Whether two integers are related so. -/
def Relation.holds : Relation → Int → Int → Bool
  | .greater, left, right => decide (right < left)
  | .less, left, right => decide (left < right)
  | .greaterOrEqual, left, right => decide (right ≤ left)
  | .lessOrEqual, left, right => decide (left ≤ right)
  | .equal, left, right => decide (left = right)
  | .notEqual, left, right => decide (left ≠ right)

/-- The negated relation holds where the relation does not. So a jump on the negated relation is
taken where the condition fails. -/
theorem Relation.holds_negated (relation : Relation) (left right : Int) :
    relation.negated.holds left right = !relation.holds left right := by
  rw [Bool.eq_iff_iff]
  cases relation <;> simp only [negated, holds, Bool.not_eq_true', decide_eq_true_eq,
    decide_eq_false_iff_not] <;> omega

namespace LineMachine

/-- What the instructions work on. A comparison keeps its operands rather than flags, since the
jumps that follow may ask for any relation between them. -/
structure Store where
  registers : Register → Int
  memory : Memory
  /-- The operands of the last comparison. -/
  compared : Int × Int

namespace Store

/-- The value in a place. The name of a label has none, and neither has an address that is not
written as one of the frame. -/
def read? (store : Store) : Place → Option Int
  | .register named => some (store.registers named)
  | .immediate text => signedNumeral? 10 text.toList
  | .memory text => (frameAddress? text).map store.memory
  | .symbol _ => none

/-- Put a value into a place, if it is one that can be written: a register or an address of the
frame. -/
def write? (store : Store) (place : Place) (value : Int) : Option Store :=
  match place with
  | .register named =>
    some { store with registers := Function.update store.registers named value }
  | .memory text =>
    (frameAddress? text).map (fun address =>
      { store with memory := Function.update store.memory address value })
  | _ => none

/-- Execute an instruction that is no jump. -/
def perform? (meaning : Interpretation) (store : Store) : Instruction → Option Store
  | .move target source => do store.write? target (← store.read? source)
  | .arithmetic op target source => do
    let left ← store.read? target
    let right ← store.read? source
    store.write? target (meaning.arithmetic op left right)
  | .negate target => do store.write? target (meaning.negate (← store.read? target))
  | .compare left right => do
    let left ← store.read? left
    let right ← store.read? right
    return { store with compared := (left, right) }
  | _ => none

/-- Execute lines that have no jumps and no labels. -/
def performAll? (meaning : Interpretation) : Store → List Line → Option Store
  | store, [] => some store
  | store, .instruction executed :: later => do
    performAll? meaning (← store.perform? meaning executed) later
  | store, .comment _ :: later => performAll? meaning store later
  | _, .label _ :: _ => none

end Store

/-- The next line and the store. -/
structure State where
  counter : Nat
  store : Store

/-- The index of the first label of that name. -/
def labelIndex? (lines : List Line) (name : String) : Option Nat :=
  lines.findIdx? (fun line => line == .label name)

/-- The state behind the next line. The machine stops at the label behind the program's code, and at
whatever it cannot execute. -/
def step (meaning : Interpretation) (lines : List Line) (state : State) : Option State :=
  let next : State := { state with counter := state.counter + 1 }
  let jump (label : String) : Option State :=
    (labelIndex? lines label).map (fun counter => { state with counter })
  match lines[state.counter]? with
  | none => none
  | some (.comment _) => some next
  | some (.label name) => if name = exitLabel then none else some next
  | some (.instruction (.jump label)) => jump label
  | some (.instruction (.jumpIf relation label)) =>
    if relation.holds state.store.compared.1 state.store.compared.2 then jump label
    else some next
  | some (.instruction executed) =>
    (state.store.perform? meaning executed).map (fun store => { next with store })

/-- Whether the machine has come to the label behind the program's code. -/
def State.atExit (lines : List Line) (state : State) : Prop :=
  lines[state.counter]? = some (.label exitLabel)

section Steps

variable {meaning : Interpretation} {lines : List Line}

/-- Lines in a row are executed one after the other. If the first ones cannot be executed, the
others are not reached. -/
theorem Store.performAll_append (store : Store) (first second : List Line) :
    store.performAll? meaning (first ++ second) =
      (store.performAll? meaning first).bind (fun middle =>
        middle.performAll? meaning second) := by
  induction first generalizing store with
  | nil => rfl
  | cons line later inductionHypothesis =>
    cases line with
    | label name => rfl
    | comment text => exact inductionHypothesis store
    | instruction executed =>
      rw [List.cons_append, performAll?, performAll?]
      cases store.perform? meaning executed with
      | none => rfl
      | some middle => exact inductionHypothesis middle

/-- An instruction that is no jump leads on to the next line. That it is no jump follows from its
being performed. -/
theorem step_performed {state : State} {executed : Instruction} {store : Store}
    (fetched : lines[state.counter]? = some (.instruction executed))
    (performed : state.store.perform? meaning executed = some store) :
    step meaning lines state = some ⟨state.counter + 1, store⟩ := by
  cases executed with
  | jump label => cases performed
  | jumpIf relation label => cases performed
  | push source => cases performed
  | pop target => cases performed
  | ret => cases performed
  | move target source => simp only [step, fetched, performed, Option.map_some]
  | arithmetic op target source => simp only [step, fetched, performed, Option.map_some]
  | negate target => simp only [step, fetched, performed, Option.map_some]
  | compare left right => simp only [step, fetched, performed, Option.map_some]

/-- Lines without jumps and labels are executed from the first to the last, where they stand among
the lines of a program. It takes as many steps as there are lines, comments included. -/
theorem reaches_performAll {block : List Line} {state : State} {store : Store}
    (placed : CodeAt lines state.counter block)
    (performed : state.store.performAll? meaning block = some store) :
    Machine.after (step meaning lines) block.length state =
      some ⟨state.counter + block.length, store⟩ := by
  induction block generalizing state with
  | nil =>
    cases performed
    rfl
  | cons line later inductionHypothesis =>
    obtain ⟨middle, stepped, continued⟩ : ∃ middle,
        step meaning lines state = some ⟨state.counter + 1, middle⟩ ∧
        middle.performAll? meaning later = some store := by
      cases line with
      | label name => cases performed
      | comment text =>
        refine ⟨state.store, ?_, performed⟩
        simp only [step, placed.fetch]
      | instruction executed =>
        obtain ⟨middle, first, continued⟩ := Option.bind_eq_some_iff.mp performed
        exact ⟨middle, step_performed placed.fetch first, continued⟩
    have rest := @inductionHypothesis ⟨state.counter + 1, middle⟩ placed.tail continued
    rw [List.length_cons, Machine.after, stepped, Option.bind_some, rest, Nat.add_assoc,
      Nat.add_comm 1]

/-- A label that is not the last one does nothing. -/
theorem step_label {state : State} {name : String}
    (fetched : lines[state.counter]? = some (.label name)) (inside : name ≠ exitLabel) :
    step meaning lines state = some { state with counter := state.counter + 1 } := by
  simp only [step, fetched, if_neg inside]

/-- A jump goes to its label, the first one of that name. -/
theorem step_jump {state : State} {label : String} {index : Nat}
    (fetched : lines[state.counter]? = some (.instruction (.jump label)))
    (found : labelIndex? lines label = some index) :
    step meaning lines state = some { state with counter := index } := by
  simp only [step, fetched, found, Option.map_some]

/-- A jump on a relation is taken if the last comparison had it. If it is taken and there is no such
label, the machine is stuck. -/
theorem step_jumpIf {state : State} {relation : Relation} {label : String}
    (fetched : lines[state.counter]? = some (.instruction (.jumpIf relation label))) :
    step meaning lines state =
      if relation.holds state.store.compared.1 state.store.compared.2 then
        (labelIndex? lines label).map (fun counter => { state with counter })
      else some { state with counter := state.counter + 1 } := by
  simp only [step, fetched]

/-- No step leads on from the label behind the program's code, which is where a program ends. -/
theorem step_atExit {state : State} (exit : state.atExit lines) :
    step meaning lines state = none := by
  simp only [step, show lines[state.counter]? = some (.label exitLabel) from exit, if_pos]

end Steps

end LineMachine

end IntMain
