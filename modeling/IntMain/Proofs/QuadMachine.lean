import IntMain.Proofs.Machine
import IntMain.Proofs.Meaning
import IntMain.Proofs.Numeral

/-!
# The machine for quadruples

The machine executes quadruples one at a time, starting with the first. Variables are in
the memory at the addresses that their texts name, and temporaries have a store of their
own, by name. A jump goes to the first label of its name. The machine ends behind the
last quadruple, where the program falls through, or at a return.

A quadruple that reads no value, writes to no place or jumps nowhere has no next state
and is no end either.
-/

namespace IntMain

/-- The address in the text of a place in the frame. -/
def frameAddress? (text : String) : Option Int :=
  match text.toList with
  | '[' :: 'e' :: 'b' :: 'p' :: rest =>
    if rest.getLast? = some ']' then signedNumeral? 10 rest.dropLast else none
  | _ => none

/-- The text of a variable names its address, whatever its name is. So the machine finds a variable
by the text that the assembly writes. -/
theorem frameAddress_stored (name : String) (address : Int) :
    frameAddress? (Operand.stored name address).text = some address := by
  have text : (Operand.stored name address).text.toList =
      '[' :: 'e' :: 'b' :: 'p' :: ((Text.signedInteger address).toList ++ [']']) := by
    simp only [Operand.stored, String.toList_append]
    rfl
  rw [frameAddress?, text]
  simp [signedNumeral_signedInteger]

/-- The sign with a given spelling. -/
def UnaryOp.ofSymbol? (symbol : String) : Option UnaryOp :=
  [UnaryOp.plus, .minus].find? (fun op => op.symbol == symbol)

/-- The binary operator with a given spelling. -/
def BinaryOp.ofSymbol? (symbol : String) : Option BinaryOp :=
  [BinaryOp.add, .sub, .mul, .div, .lt, .le, .gt, .ge, .eq, .ne, .and, .or].find? (fun op =>
    op.symbol == symbol)

/-- A sign is found by its spelling, because no two signs are spelled alike. -/
theorem UnaryOp.ofSymbol_symbol (op : UnaryOp) : UnaryOp.ofSymbol? op.symbol = some op := by
  cases op <;> decide

/-- A binary operator is found by its spelling, because no two operators are spelled alike. -/
theorem BinaryOp.ofSymbol_symbol (op : BinaryOp) : BinaryOp.ofSymbol? op.symbol = some op := by
  cases op <;> decide

namespace QuadMachine

/-- The next quadruple, the variables and the temporaries. -/
structure State where
  counter : Nat
  memory : Memory
  temporaries : String → Int

namespace State

/-- The value of an operand. -/
def read? (state : State) (operand : Operand) : Option Int :=
  match operand.kind with
  | .literal => signedNumeral? 10 operand.text.toList
  | .variable => (frameAddress? operand.text).map state.memory
  | .temporary => some (state.temporaries operand.name)
  | .label => none

/-- Store a value. -/
def write? (state : State) (operand : Operand) (value : Int) : Option State :=
  match operand.kind with
  | .variable =>
    (frameAddress? operand.text).map (fun address =>
      { state with memory := Function.update state.memory address value })
  | .temporary =>
    some { state with temporaries := Function.update state.temporaries operand.name value }
  | _ => none

/-- Go on to the next quadruple. -/
def advance (state : State) : State := { state with counter := state.counter + 1 }

/-- Go on with the quadruple at an index. -/
def goto (state : State) (counter : Nat) : State := { state with counter }

end State

/-- Whether a quadruple is a label of that name. -/
def isLabel (name : String) (quad : Quad) : Bool :=
  quad.kind? == some .label && quad.target.any (fun label => label.name == name)

/-- The index of the first label of that name. -/
def labelIndex? (quads : List Quad) (name : String) : Option Nat :=
  quads.findIdx? (isLabel name)

/-- Go to the label that a jump names. -/
def jump? (quads : List Quad) (state : State) (quad : Quad) : Option State := do
  let label ← quad.target
  let counter ← labelIndex? quads label.name
  return state.goto counter

/-- The value that a quadruple computes. -/
def result? (meaning : Interpretation) (state : State) (quad : Quad) (command : Command) :
    Option Int :=
  match command.kind with
  | .copy => quad.left.bind state.read?
  | .unary => do
    let op ← UnaryOp.ofSymbol? command.text
    let operand ← quad.left.bind state.read?
    return meaning.unary op operand
  | _ => do
    let op ← BinaryOp.ofSymbol? command.text
    let left ← quad.left.bind state.read?
    let right ← quad.right.bind state.read?
    return meaning.binary op left right

/-- Execute a command. A return has no next state: it is an end, which is told apart from being
stuck by `State.ending?`. -/
def perform? (meaning : Interpretation) (quads : List Quad) (state : State) (quad : Quad)
    (command : Command) : Option State :=
  match command.kind with
  | .label => some state.advance
  | .unconditionalJump => jump? quads state quad
  | .conditionalJump => do
    let condition ← quad.left.bind state.read?
    if decide (condition ≠ 0) = command.jumpsWhenTrue then jump? quads state quad
    else return state.advance
  | .ret => none
  | _ => do
    let value ← result? meaning state quad command
    let target ← quad.target
    let written ← state.write? target value
    return written.advance

/-- The state behind the next quadruple. -/
def step (meaning : Interpretation) (quads : List Quad) (state : State) : Option State := do
  let quad ← quads[state.counter]?
  let command ← quad.command
  perform? meaning quads state quad command

/-- How the program ends in a state, if it does: it falls through behind the last
quadruple, and a return returns its value. -/
def State.ending? (quads : List Quad) (state : State) : Option Ending :=
  match quads[state.counter]? with
  | none => some .fellThrough
  | some quad =>
    if quad.kind? = some .ret then (quad.target.bind state.read?).map .returned else none

/-- The run from a state leads to an end of that kind, with that memory. The temporaries at the end
do not count. -/
def Halts (meaning : Interpretation) (quads : List Quad) (start : State) (memory : Memory)
    (ending : Ending) : Prop :=
  ∃ final, Machine.Reaches (step meaning quads) start final ∧
    final.ending? quads = some ending ∧ final.memory = memory

namespace State

/-- A literal is read from its text, as the value that was written there. It needs no memory. -/
@[simp]
theorem read_literal (state : State) (value : Int) :
    state.read? (.literal value) = some value := signedNumeral_integer value

/-- A variable is read at its address. Its name has no part in it, so two variables of one name do
not interfere. -/
@[simp]
theorem read_stored (state : State) (name : String) (address : Int) :
    state.read? (.stored name address) = some (state.memory address) := by
  change (frameAddress? _).map _ = _
  rw [frameAddress_stored, Option.map_some]

/-- A temporary is read by its name, in every state: temporaries have values from the start. -/
@[simp]
theorem read_temporary (state : State) (number : Nat) :
    state.read? (.temporary number) =
      some (state.temporaries (Operand.temporary number).name) := rfl

/-- A variable is written at its address, and nothing else changes. -/
@[simp]
theorem write_stored (state : State) (name : String) (address value : Int) :
    state.write? (.stored name address) value =
      some { state with memory := Function.update state.memory address value } := by
  change (frameAddress? _).map _ = _
  rw [frameAddress_stored, Option.map_some]

/-- A temporary is written by its name, and the memory stays as it is. -/
@[simp]
theorem write_temporary (state : State) (number : Nat) (value : Int) :
    state.write? (.temporary number) value = some { state with
      temporaries :=
        Function.update state.temporaries (Operand.temporary number).name value } := rfl

/-- Writing does not move the machine. It goes on only when the whole command has been executed. -/
theorem write_counter {state written : State} {operand : Operand} {value : Int}
    (wrote : state.write? operand value = some written) : written.counter = state.counter := by
  unfold write? at wrote
  split at wrote
  · obtain ⟨address, -, rfl⟩ := Option.map_eq_some_iff.mp wrote
    rfl
  · cases wrote
    rfl
  · cases wrote

end State

section Steps

variable {meaning : Interpretation} {quads : List Quad} {state : State}

/-- The next state is what the fetched quadruple makes of the current one. Each lemma below is this
one for a kind of quadruple. -/
theorem step_fetched {quad : Quad} {command : Command}
    (fetched : quads[state.counter]? = some quad) (commanded : quad.command = some command) :
    step meaning quads state = perform? meaning quads state quad command := by
  simp [step, fetched, commanded]

/-- A binary operation reads both operands before it writes its target, so the target may be one of
them. -/
theorem step_binary {op : BinaryOp} {left right target : Operand} {first second : Int}
    {written : State} (fetched : quads[state.counter]? = some (.binary op left right target))
    (leftRead : state.read? left = some first) (rightRead : state.read? right = some second)
    (stored : state.write? target (meaning.binary op first second) = some written) :
    step meaning quads state = some written.advance := by
  rw [step_fetched fetched rfl]
  cases op <;>
    simp [perform?, result?, Command.binary, BinaryOp.operatorClass, Quad.binary,
      BinaryOp.ofSymbol_symbol, leftRead, rightRead, stored]

/-- A signed operand is read before the target is written, so the target may be the operand. -/
theorem step_unary {op : UnaryOp} {operand target : Operand} {value : Int} {written : State}
    (fetched : quads[state.counter]? = some (.unary op operand target))
    (read : state.read? operand = some value)
    (stored : state.write? target (meaning.unary op value) = some written) :
    step meaning quads state = some written.advance := by
  rw [step_fetched fetched rfl]
  simp [perform?, result?, Quad.unary, UnaryOp.ofSymbol_symbol, read, stored]

/-- A copy stores what it reads and goes on. -/
theorem step_copy {source target : Operand} {value : Int} {written : State}
    (fetched : quads[state.counter]? = some (.copy source target))
    (read : state.read? source = some value) (stored : state.write? target value = some written) :
    step meaning quads state = some written.advance := by
  rw [step_fetched fetched rfl]
  simp [perform?, result?, Quad.copy, read, stored]

/-- A label does nothing but go on. -/
theorem step_label {label : Operand} (fetched : quads[state.counter]? = some (.label label)) :
    step meaning quads state = some state.advance := by
  rw [step_fetched fetched rfl]
  rfl

/-- A jump goes to its label, if there is one. Otherwise the machine is stuck. -/
theorem step_jump {label : Operand} (fetched : quads[state.counter]? = some (.jump label)) :
    step meaning quads state = (labelIndex? quads label.name).map state.goto := by
  rw [step_fetched fetched rfl]
  simp [perform?, jump?, Quad.jump, Option.map_eq_bind]

/-- A jump on a false condition is taken if the condition is zero, and otherwise the machine goes
on. -/
theorem step_jumpIfFalse {condition label : Operand} {value : Int}
    (fetched : quads[state.counter]? = some (.jumpIfFalse condition label))
    (read : state.read? condition = some value) :
    step meaning quads state =
      if value = 0 then (labelIndex? quads label.name).map state.goto else some state.advance := by
  rw [step_fetched fetched rfl]
  by_cases zero : value = 0 <;>
    simp [perform?, jump?, Quad.jumpIfFalse, Command.jumpsWhenTrue, Command.ifFalseText,
      Command.ifTrueText, read, zero, Option.map_eq_bind]

/-- A jump on a true condition is taken if the condition is not zero, be it one or another
number. -/
theorem step_jumpIfTrue {condition label : Operand} {value : Int}
    (fetched : quads[state.counter]? = some (.jumpIfTrue condition label))
    (read : state.read? condition = some value) :
    step meaning quads state =
      if value = 0 then some state.advance else (labelIndex? quads label.name).map state.goto := by
  rw [step_fetched fetched rfl]
  by_cases zero : value = 0 <;>
    simp [perform?, jump?, Quad.jumpIfTrue, Command.jumpsWhenTrue, Command.ifTrueText, read, zero,
      Option.map_eq_bind]

/-- A return ends the program with the value it reads. Code behind it is not reached from here. -/
theorem ending_ret {operand : Operand} {value : Int}
    (fetched : quads[state.counter]? = some (.ret operand))
    (read : state.read? operand = some value) :
    state.ending? quads = some (.returned value) := by
  simp [State.ending?, fetched, Quad.kind?, Quad.ret, read]

/-- No step leads on from an end, so what has ended stays as it is. -/
theorem step_ended {ending : Ending} (ended : state.ending? quads = some ending) :
    step meaning quads state = none := by
  rw [State.ending?] at ended
  cases fetched : quads[state.counter]? with
  | none => simp [step, fetched]
  | some quad =>
    simp only [fetched] at ended
    by_cases returns : quad.kind? = some .ret
    · obtain ⟨command, commanded, kind⟩ := Option.map_eq_some_iff.mp returns
      rw [step_fetched fetched commanded, perform?, kind]
    · simp [returns] at ended

/-- An end that is reached is the only one, with its memory and its kind. The machine is
deterministic. -/
theorem Halts.unique {start : State} {left right : Memory} {leftEnding rightEnding : Ending}
    (first : Halts meaning quads start left leftEnding)
    (second : Halts meaning quads start right rightEnding) :
    left = right ∧ leftEnding = rightEnding := by
  obtain ⟨final, toFinal, ended, rfl⟩ := first
  obtain ⟨other, toOther, otherEnded, rfl⟩ := second
  obtain rfl := Machine.final_unique toFinal (step_ended ended) toOther (step_ended otherEnded)
  exact ⟨rfl, Option.some.inj (ended.symm.trans otherEnded)⟩

/-- A run that halts takes a bounded number of steps, so it does not run forever as well. -/
theorem Halts.exists_not_lasts {start : State} {memory : Memory} {ending : Ending}
    (halts : Halts meaning quads start memory ending) :
    ∃ count, ¬ Machine.Lasts (step meaning quads) count start := by
  obtain ⟨final, reached, ended, -⟩ := halts
  exact Machine.exists_not_lasts reached (step_ended ended)

end Steps

end QuadMachine

end IntMain
