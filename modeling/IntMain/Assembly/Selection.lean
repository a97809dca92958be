import IntMain.Assembly.Line
import IntMain.Assembly.Pairing
import IntMain.Fault
import IntMain.Log
import IntMain.Quad.Printer

/-!
# From quadruples to assembly

Every quadruple becomes a few lines. Temporaries one to four live in the registers
`eax`, `ebx`, `ecx` and `edx`; a fifth has no place. A result that goes to memory is
computed in the scratch register `edi` first. All returns jump to one label behind the
program's code.

A comparison leaves no value: it jumps for the branch it feeds. A comparison that feeds
none, and every logical operator, is left as a comment.
-/

namespace IntMain

/-- The registers that hold the temporaries, the first temporary in the first. -/
def temporaryRegisters : List Register := [.eax, .ebx, .ecx, .edx]

/-- The label behind a program's code, to which every return jumps. -/
def exitLabel : String := "main_end"

/-- The name of the assembly back end. -/
def backendName : String := "asm"

/-- The machine for which assembly is written. -/
def targetName : String := "i386"

/-- The register in which a program returns its value. -/
def accumulator : Place := .register .eax

/-- The register for results on their way to memory and for values that have to be moved
out of the way. -/
def scratch : Place := .register .edi

namespace Operand

/-- A fault of the assembler. -/
def assemblyFault (detail : String) : Fault := .unsupported .assemble detail

/-- The number in a temporary's name: a `t`, a plus sign or none, and digits. -/
def temporaryNumber? (operand : Operand) : Option Nat :=
  match operand.name.toList with
  | 't' :: '+' :: digits => Text.numeral? 10 digits
  | 't' :: digits => Text.numeral? 10 digits
  | _ => none

/-- The register of a temporary. -/
def register (operand : Operand) : Except Fault Register :=
  let found := operand.temporaryNumber?.bind (fun number =>
    if number = 0 then none else temporaryRegisters[number - 1]?)
  match found with
  | some register => .ok register
  | none =>
    .error (assemblyFault ("temporary " ++ operand.name ++ " does not fit the " ++
      Text.decimal temporaryRegisters.length ++ " available registers"))

/-- The place where an operand's value is. -/
def place (operand : Operand) : Except Fault Place :=
  match operand.kind with
  | .temporary => operand.register.map .register
  | .literal => .ok (.immediate operand.text)
  | .variable => .ok (.memory operand.text)
  | .label => .ok (.symbol operand.name)

end Operand

/-- Where a result is computed, and where it is stored afterwards if it belongs
elsewhere. -/
structure Workplace where
  register : Place
  store : Option Place
  deriving DecidableEq, Repr

namespace Workplace

/-- The workplace of a result. -/
def ofTarget (target : Operand) : Except Fault Workplace :=
  match target.kind with
  | .temporary => target.register.map (fun register => ⟨.register register, none⟩)
  | .variable => .ok ⟨scratch, some (.memory target.text)⟩
  | _ => .error (Operand.assemblyFault ("cannot write to " ++ target.name))

/-- The line that loads a value, unless it is already there. -/
def load (workplace : Workplace) (source : Place) : List Line :=
  if source.same workplace.register then [] else [.move workplace.register source]

/-- The line that stores the result where it belongs. -/
def storing (workplace : Workplace) : List Line :=
  (workplace.store.map (fun slot => Line.move slot workplace.register)).toList

/-- The lines that bring the left operand to the workplace, and where the right one then
is. A right operand that the load would overwrite is moved out of the way first. -/
def loadPair (workplace : Workplace) (left right : Place) : List Line × Place :=
  if right.same workplace.register && !left.same workplace.register then
    (.move scratch right :: workplace.load left, scratch)
  else (workplace.load left, right)

end Workplace

namespace Quad

/-- An operand that an instruction needs. -/
def required (quad : Quad) (operand : Option Operand) (what : String) : Except Fault Operand :=
  match operand with
  | some operand => .ok operand
  | none =>
    .error (Operand.assemblyFault ("missing " ++ what ++ " in '" ++ quad.text ++ "'"))

/-- The two operands of an instruction, and the workplace of its result. -/
def operands (quad : Quad) : Except Fault (Place × Place × Workplace) := do
  let left ← (← quad.required quad.left "left operand").place
  let right ← (← quad.required quad.right "right operand").place
  let workplace ← Workplace.ofTarget (← quad.required quad.target "destination")
  return (left, right, workplace)

/-- The lines of a return. -/
def selectReturn (quad : Quad) : Except Fault (List Line) := do
  let value ← (← quad.required quad.target "return value").place
  let load := if value.same accumulator then [] else [Line.move accumulator value]
  return load ++ [.instruction (.jump exitLabel)]

/-- The lines of a copy. From variable to variable it goes through the scratch register. -/
def selectCopy (quad : Quad) : Except Fault (List Line) := do
  let source ← quad.required quad.left "source"
  let target ← quad.required quad.target "destination"
  let value ← source.place
  if target.kind = .variable ∧ source.kind = .variable then
    return [.move scratch value, .move (.memory target.text) scratch]
  else return [.move (← target.place) value]

/-- The lines of a signed operand. -/
def selectUnary (quad : Quad) (symbol : String) : Except Fault (List Line) := do
  let source ← (← quad.required quad.left "operand").place
  let workplace ← Workplace.ofTarget (← quad.required quad.target "destination")
  let negation := if symbol = "-" then [Line.instruction (.negate workplace.register)] else []
  return workplace.load source ++ negation ++ workplace.storing

/-- The comment on an instruction that reads its first operand from the accumulator,
whatever the line says. -/
def accumulatorNote (op : Arithmetic) (register : Place) : List Line :=
  if op.takesAccumulator && !register.same accumulator then
    [.comment (op.mnemonic ++ " only takes " ++ accumulator.text ++ " as its implicit operand")]
  else []

/-- The lines of an arithmetic operation. -/
def selectArithmetic (quad : Quad) (symbol : String) : Except Fault (List Line) := do
  let (left, right, workplace) ← quad.operands
  match Arithmetic.ofSymbol? symbol with
  | none => .error (Operand.assemblyFault ("arithmetic operator '" ++ symbol ++ "'"))
  | some op =>
    let (loads, right) := workplace.loadPair left right
    return loads ++ accumulatorNote op workplace.register ++
      [.instruction (.arithmetic op workplace.register right)] ++ workplace.storing

/-- The lines of a comparison that feeds a branch. -/
def selectComparison (quad : Quad) (symbol : String) (branch : Branch) :
    Except Fault (List Line) := do
  let (left, right, workplace) ← quad.operands
  match Relation.ofSymbol? symbol with
  | none => .error (Operand.assemblyFault ("relational operator '" ++ symbol ++ "'"))
  | some relation =>
    let (loads, right) := workplace.loadPair left right
    let taken := if branch.whenTrue then relation else relation.negated
    return loads ++
      [.instruction (.compare workplace.register right), .instruction (.jumpIf taken branch.label)]

/-- The lines of a conditional jump, given the family of the instruction that produced its
condition. What a comparison produced is tested by the comparison itself. -/
def selectBranch (quad : Quad) (command : Command) (producer : Option CommandKind) :
    Except Fault (List Line) := do
  let condition ← quad.required quad.left "condition"
  let label ← quad.required quad.target "label"
  match producer with
  | some .relational => return []
  | some .logical => return [.comment (quad.text ++ " on a logical result is not supported")]
  | _ =>
    let value ← condition.place
    let (load, tested) :=
      if condition.kind = .literal then ([Line.move scratch value], scratch) else ([], value)
    let taken := if command.jumpsWhenTrue then Relation.notEqual else .equal
    return load ++
      [.instruction (.compare tested (.immediate "0")), .instruction (.jumpIf taken label.name)]

end Quad

/-- What selection knows besides the quadruples: the branches that still wait for their
comparison, and the family of the instruction that last wrote each temporary. -/
structure Selection where
  waiting : List Branch
  producers : List (String × CommandKind)
  deriving DecidableEq, Repr

/-- The lines of one quadruple, a warning about it, and what is then known. -/
structure Selected where
  lines : List Line
  warning : Option String := none
  waiting : List Branch

namespace Selection

/-- Select lines for a command; `feeds` says whether it is a comparison that feeds a
branch. -/
def selectCommand (state : Selection) (feeds : Bool) (quad : Quad) (command : Command) :
    Except Fault Selected := do
  let plain (lines : List Line) : Selected := { lines, waiting := state.waiting }
  match command.kind with
  | .label => return plain [.label (← quad.required quad.target "label").name]
  | .unconditionalJump =>
    return plain [.instruction (.jump (← quad.required quad.target "label").name)]
  | .ret => return plain (← quad.selectReturn)
  | .copy => return plain (← quad.selectCopy)
  | .unary => return plain (← quad.selectUnary command.text)
  | .arithmetic => return plain (← quad.selectArithmetic command.text)
  | .relational =>
    match feeds, state.waiting with
    | true, branch :: waiting =>
      return { lines := ← quad.selectComparison command.text branch, waiting }
    | _, waiting =>
      return {
        lines := [.comment (quad.text ++ ": comparison has no branch to feed")]
        warning := some "comparison without a consuming branch"
        waiting }
  | .logical =>
    return {
      lines := [.comment (quad.text ++ ": logical operators are not fully supported")]
      warning := some ("logical operator '" ++ command.text ++ "' is not fully supported")
      waiting := state.waiting }
  | .conditionalJump =>
    let producer := quad.tested?.bind (fun name => state.producers.lookup name)
    return plain (← quad.selectBranch command producer)

/-- What is known about the temporaries behind a quadruple. -/
def producersAfter (state : Selection) (quad : Quad) : List (String × CommandKind) :=
  match quad.produced?, quad.kind? with
  | some name, some kind => (name, kind) :: state.producers
  | _, _ => state.producers

end Selection

/-- The lines of a program up to the first fault, and that fault. -/
structure Assembled where
  lines : List Line
  log : List LogRecord
  fault : Option Fault
  deriving DecidableEq, Repr

/-- Select lines for the quadruples from `index` on. -/
def Selection.selectAll (feeding : List Nat) (state : Selection) (index : Nat) :
    List Quad → Assembled
  | [] => ⟨[], [], none⟩
  | quad :: later =>
    match quad.command with
    | none => state.selectAll feeding (index + 1) later
    | some command =>
      match state.selectCommand (feeding.contains index) quad command with
      | .error fault => ⟨[], [], some fault⟩
      | .ok selected =>
        let next : Selection := ⟨selected.waiting, state.producersAfter quad⟩
        let rest := next.selectAll feeding (index + 1) later
        ⟨selected.lines ++ rest.lines,
          (selected.warning.map LogRecord.warning).toList ++ rest.log, rest.fault⟩

/-- The lines before a program's code: the frame is set up. -/
def prologue (frameSize : Nat) : List Line :=
  [.label "main", .instruction (.push (.register .ebp)),
    .move (.register .ebp) (.register .esp)] ++
  if frameSize = 0 then []
  else
    [.instruction (.arithmetic .sub (.register .esp) (.immediate (Text.decimal frameSize)))]

/-- The lines behind a program's code: the frame is given up. -/
def epilogue : List Line :=
  [.label exitLabel, .move (.register .esp) (.register .ebp),
    .instruction (.pop (.register .ebp)), .instruction .ret]

/-- Assemble a program. -/
def Assembled.ofProgram (program : Program) : Assembled :=
  let pairing := Pairing.ofQuads program.quads
  let code := Selection.selectAll pairing.feeding ⟨pairing.branches, []⟩ 0 program.quads
  let summary :=
    if code.fault.isSome then []
    else
      [LogRecord.info ("assembled " ++ Text.decimal program.quads.length ++ " instructions")]
  ⟨prologue program.frameSize ++ code.lines ++ epilogue, code.log ++ summary, code.fault⟩

/-- The lines of an assembled program, if there was no fault. -/
def Assembled.result (assembled : Assembled) : Except Fault (List Line) :=
  match assembled.fault with
  | some fault => .error fault
  | none => .ok assembled.lines

end IntMain
