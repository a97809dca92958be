import IntMain.Fault
import IntMain.Log
import IntMain.Quad.Basic
import IntMain.Tree.Walk

/-!
# From a tree to quadruples

Lowering turns a tree whose identifiers have addresses into quadruples. It goes through
the tree once and keeps a generator: the quadruples so far, how many temporaries hold
values and how many labels are taken.

Temporaries are used like a stack. An instruction releases its operands before it takes a
temporary for its result, so a temporary is free again as soon as its value has been used.
An assignment of a value that was just computed sends that computation to the variable
instead of copying it.

Labels are numbered from one in the order in which they are taken.
-/

namespace IntMain

/-- What lowering keeps on its way through a tree. -/
structure Generator where
  /-- The quadruples emitted so far. -/
  quads : Array Quad := #[]
  /-- The number of temporaries that hold values. -/
  temporaries : Nat := 0
  /-- The number of labels taken so far. -/
  labels : Nat := 0
  deriving DecidableEq, Repr

/-- A step of lowering: it changes the generator or fails. What the generator holds after a
failure is never looked at, since every program is lowered with a new one. -/
abbrev Generating := StateT Generator (Except Fault)

namespace Generator

/-- Take the next temporary. -/
def newTemporary : Generating Operand :=
  modifyGet (fun generator =>
    (.temporary (generator.temporaries + 1),
      { generator with temporaries := generator.temporaries + 1 }))

/-- Release an operand: the latest temporary is free again, if the operand is one. A count of
zero stays zero. -/
def release (operand : Operand) : Generating Unit :=
  modify (fun generator =>
    if operand.isTemporary then { generator with temporaries := generator.temporaries - 1 }
    else generator)

/-- Take the next label. -/
def newLabel : Generating Operand :=
  modifyGet (fun generator =>
    (.label (generator.labels + 1), { generator with labels := generator.labels + 1 }))

/-- Emit a quadruple. -/
def emit (quad : Quad) : Generating Unit :=
  modify (fun generator => { generator with quads := generator.quads.push quad })

/-- The last quadruple, if it is the one that has computed a temporary. -/
def producer? (generator : Generator) (value : Operand) : Option Quad :=
  generator.quads.back?.filter (fun last =>
    value.isTemporary && last.producesValue && last.target == some value)

/-- Leave a value in `target`. The computation of a temporary that comes last is sent to the
target; another value is copied. -/
def assign (target value : Operand) : Generating Unit := do
  match (← get).producer? value with
  | some last =>
    modify (fun generator =>
      { generator with quads := generator.quads.pop.push { last with target := some target } })
    release value
  | none =>
    release value
    emit (.copy value target)

end Generator

namespace Node

open Generator

/-- A fault of lowering. -/
def lowerFault (detail : String) : Fault := .unsupported .lower detail

/-- The tag and number of a node, for messages. -/
def reference (node : Node) : String :=
  node.tag ++ " #" ++ Text.decimal node.id

/-- The operand of the variable that a node names. -/
def variableOperand (node : Node) : Except Fault Operand :=
  match node with
  | .identifier _ occurrence =>
    match occurrence.address with
    | some address => .ok (.stored occurrence.name address)
    | none =>
      .error (lowerFault ("identifier '" ++ occurrence.name ++ "' has no resolved address"))
  | other => .error (lowerFault (other.reference ++ " used as a variable"))

/-- Lower an expression, and tell which operand has its value then. -/
def generateExpression : Node → Generating Operand
  | .integer _ value _ => return .literal value
  | .identifier mark occurrence => (Node.identifier mark occurrence).variableOperand
  | .unary _ op operand => do
    let operand ← operand.generateExpression
    release operand
    let target ← newTemporary
    emit (.unary op operand target)
    return target
  | .binary _ op left right => do
    let left ← left.generateExpression
    let right ← right.generateExpression
    release right
    release left
    let target ← newTemporary
    emit (.binary op left right target)
    return target
  | other => throw (lowerFault (other.reference ++ " in expression position"))

/-- Lower a condition for a jump that is emitted next, which is the last to read it. -/
def generateCondition (condition : Node) : Generating Operand := do
  let operand ← condition.generateExpression
  release operand
  return operand

/-- Lower an assignment. A compound one combines the old value with the new. -/
def generateAssignment (target : Node) (op : AssignOp) (value : Node) : Generating Unit := do
  let target ← target.variableOperand
  let value ← value.generateExpression
  match op.arithmetic? with
  | none => assign target value
  | some arithmetic =>
    release value
    let combined ← newTemporary
    emit (.binary arithmetic target value combined)
    assign target combined

mutual

/-- Lower a statement. -/
def generateStatement (node : Node) : Generating Unit :=
  match node with
  | .compound _ statements => generateStatements statements
  | .block _ statements => generateStatements statements
  | .empty _ => return
  | .declaration _ _ => return
  | .initialization _ name value => generateAssignment name .assign value
  | .assignment _ target op value => generateAssignment target op value
  | .returned _ value => do
    let value ← value.generateExpression
    release value
    emit (.ret value)
  | .chain _ clauses none => do
    let done ← newLabel
    generateClauses clauses done
    emit (.label done)
  | .chain _ clauses (some body) => do
    let done ← newLabel
    generateClauses clauses done
    body.generateStatement
    emit (.label done)
  | .whileLoop _ condition body => do
    let start ← newLabel
    let done ← newLabel
    emit (.label start)
    let condition ← condition.generateCondition
    emit (.jumpIfFalse condition done)
    body.generateStatement
    emit (.jump start)
    emit (.label done)
  | .doWhile _ body condition => do
    let start ← newLabel
    emit (.label start)
    body.generateStatement
    let condition ← condition.generateCondition
    emit (.jumpIfTrue condition start)
  | .clause mark _ _ _ =>
    throw (lowerFault ("if clause #" ++ Text.decimal mark.id ++ " outside of an if chain"))
  | other =>
    throw (lowerFault
      ("expression statement #" ++ Text.decimal other.id ++ " (" ++ other.tag ++ ")"))

/-- Lower statements in order. -/
def generateStatements (nodes : List Node) : Generating Unit :=
  match nodes with
  | [] => return
  | node :: later => do
    node.generateStatement
    generateStatements later

/-- Lower the clauses of an if statement. Each jumps over its body when its condition does
not hold, and from the end of its body to `done`. -/
def generateClauses (nodes : List Node) (done : Operand) : Generating Unit :=
  match nodes with
  | [] => return
  | .clause _ _ condition body :: later => do
    let skip ← newLabel
    let condition ← condition.generateCondition
    emit (.jumpIfFalse condition skip)
    body.generateStatement
    emit (.jump done)
    emit (.label skip)
    generateClauses later done
  | other :: _ => throw (lowerFault (other.reference ++ " inside an if chain"))

end

/-- The address stamped on a node, if it is a resolved identifier. -/
def address? : Node → Option Int
  | .identifier _ occurrence => occurrence.address
  | _ => none

/-- The bytes below the frame base that the stamped addresses reach. -/
def frameSize (root : Node) : Nat :=
  let addresses := root.preorder.filterMap (fun (node, _) => node.address?)
  (addresses.foldl min 0).natAbs

end Node

/-- A lowered program and what there is to say about it. -/
structure Lowered where
  program : Program
  log : List LogRecord
  deriving DecidableEq, Repr

/-- Lower a program with a new generator. -/
def Lowered.ofTree (root : Node) : Except Fault Lowered := do
  let (_, generator) ← root.generateStatement.run {}
  let program : Program := ⟨generator.quads.toList, root.frameSize⟩
  return ⟨program, [.info ("lowered " ++ Text.decimal program.quads.length ++ " instructions, " ++
    Text.decimal generator.labels ++ " labels, frame " ++ Text.decimal program.frameSize ++
    " bytes")]⟩

end IntMain
