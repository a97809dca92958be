import IntMain.Quad.Lowering
import Mathlib.Logic.Function.Basic

/-!
# What a program means

A program changes a memory that holds an integer at every frame address, and it either
returns a value or falls through its last statement. Identifiers are read and written
through the addresses stamped on them. How the sign and the four arithmetic operators
compute is left open: an `Interpretation` is any total reading of them. Comparisons and
logical operators give one or zero.

Execution is a function of the tree. Its argument `rounds` bounds how often the body of
each loop may start, so a loop that goes on longer is told apart from a tree that has no
meaning. A program ends if it finishes for some bound, and diverges if it is unfinished
for every bound.
-/

namespace IntMain

/-- A total reading of negation and of the arithmetic operators on integers. It may wrap around at a
word's bounds and read division by zero as it likes, but it always gives a value. -/
structure Interpretation where
  negate : Int → Int
  add : Int → Int → Int
  sub : Int → Int → Int
  mul : Int → Int → Int
  div : Int → Int → Int

namespace Interpretation

/-- One for what holds and zero for what does not. -/
def truth (holds : Prop) [Decidable holds] : Int := if holds then 1 else 0

/-- The value of a signed operand. -/
def unary (meaning : Interpretation) : UnaryOp → Int → Int
  | .plus, value => value
  | .minus, value => meaning.negate value

/-- The value of a binary operator. -/
def binary (meaning : Interpretation) : BinaryOp → Int → Int → Int
  | .add, left, right => meaning.add left right
  | .sub, left, right => meaning.sub left right
  | .mul, left, right => meaning.mul left right
  | .div, left, right => meaning.div left right
  | .lt, left, right => truth (left < right)
  | .le, left, right => truth (left ≤ right)
  | .gt, left, right => truth (right < left)
  | .ge, left, right => truth (right ≤ left)
  | .eq, left, right => truth (left = right)
  | .ne, left, right => truth (left ≠ right)
  | .and, left, right => truth (left ≠ 0 ∧ right ≠ 0)
  | .or, left, right => truth (left ≠ 0 ∨ right ≠ 0)

/-- What an assignment stores, given the old value of its target. -/
def assigned (meaning : Interpretation) (op : AssignOp) (old value : Int) : Int :=
  match op.arithmetic? with
  | none => value
  | some arithmetic => meaning.binary arithmetic old value

/-- The reading over unbounded integers. Division rounds towards zero. -/
def integers : Interpretation := ⟨(- ·), (· + ·), (· - ·), (· * ·), Int.tdiv⟩

end Interpretation

/-- The integers at the addresses of the frame. -/
abbrev Memory : Type := Int → Int

/-- How a program ends. -/
inductive Ending
  | fellThrough
  | returned (value : Int)
  deriving DecidableEq, Repr

/-- What comes of executing a part of a program with bounded loops. Whether it finished, and how, is
kept apart from whether the tree has a meaning at all. -/
inductive Execution
  | finished (memory : Memory) (ending : Ending)
  /-- Some loop has used up its rounds. -/
  | unfinished
  /-- The tree has no meaning here. -/
  | stuck

namespace Execution

/-- How an execution that finished ended. -/
def ending? : Execution → Option Ending
  | .finished _ ending => some ending
  | .unfinished => none
  | .stuck => none

/-- Go on behind a part that fell through. A return stops the program. -/
def andThen : Execution → (Memory → Execution) → Execution
  | .finished memory .fellThrough, later => later memory
  | .finished memory (.returned value), _ => .finished memory (.returned value)
  | .unfinished, _ => .unfinished
  | .stuck, _ => .stuck

/-- Choose by a condition, which holds if its value is not zero. -/
def choose (condition : Option Int) (holds otherwise : Execution) : Execution :=
  match condition with
  | none => .stuck
  | some value => if value = 0 then otherwise else holds

/-- Test, then execute the body and start over, for a bounded number of rounds. -/
def whileLoop (condition : Memory → Option Int) (body : Memory → Execution) :
    Nat → Memory → Execution
  | 0, _ => .unfinished
  | rounds + 1, memory =>
    choose (condition memory) ((body memory).andThen (whileLoop condition body rounds))
      (.finished memory .fellThrough)

/-- Execute the body, then test and start over, for a bounded number of rounds. -/
def doWhile (condition : Memory → Option Int) (body : Memory → Execution) :
    Nat → Memory → Execution
  | 0, _ => .unfinished
  | rounds + 1, memory =>
    (body memory).andThen (fun memory =>
      choose (condition memory) (doWhile condition body rounds memory)
        (.finished memory .fellThrough))

end Execution

namespace Node

/-- The value of an expression. An identifier has the value at its address, so without a stamp it
has none. -/
def value? (meaning : Interpretation) (memory : Memory) : Node → Option Int
  | .integer _ value _ => some value
  | .identifier _ occurrence => occurrence.address.map memory
  | .unary _ op operand => (operand.value? meaning memory).map (meaning.unary op)
  | .binary _ op left right => do
    let left ← left.value? meaning memory
    let right ← right.value? meaning memory
    return meaning.binary op left right
  | _ => none

/-- Store the value of an expression in the variable that `target` names. A target without an
address makes the execution stuck. -/
def assign (meaning : Interpretation) (target : Node) (op : AssignOp) (value : Node)
    (memory : Memory) : Execution :=
  match target.address?, value.value? meaning memory with
  | some address, some value =>
    let stored := meaning.assigned op (memory address) value
    .finished (Function.update memory address stored) .fellThrough
  | _, _ => .stuck

mutual

/-- Execute a statement. -/
def execute (meaning : Interpretation) (rounds : Nat) (node : Node) (memory : Memory) :
    Execution :=
  match node with
  | .compound _ statements => executeAll meaning rounds statements memory
  | .block _ statements => executeAll meaning rounds statements memory
  | .empty _ => .finished memory .fellThrough
  | .declaration _ _ => .finished memory .fellThrough
  | .initialization _ name value => assign meaning name .assign value memory
  | .assignment _ target op value => assign meaning target op value memory
  | .returned _ value =>
    match value.value? meaning memory with
    | some value => .finished memory (.returned value)
    | none => .stuck
  | .chain _ clauses none =>
    executeClauses meaning rounds clauses (fun memory => .finished memory .fellThrough) memory
  | .chain _ clauses (some body) =>
    executeClauses meaning rounds clauses (fun memory => body.execute meaning rounds memory) memory
  | .whileLoop _ condition body =>
    Execution.whileLoop (fun memory => condition.value? meaning memory)
      (fun memory => body.execute meaning rounds memory) rounds memory
  | .doWhile _ body condition =>
    Execution.doWhile (fun memory => condition.value? meaning memory)
      (fun memory => body.execute meaning rounds memory) rounds memory
  | _ => .stuck

/-- Execute statements in order, up to a return. -/
def executeAll (meaning : Interpretation) (rounds : Nat) (nodes : List Node) (memory : Memory) :
    Execution :=
  match nodes with
  | [] => .finished memory .fellThrough
  | node :: later =>
    (node.execute meaning rounds memory).andThen (fun memory =>
      executeAll meaning rounds later memory)

/-- Execute the body of the first clause whose condition holds, or `otherwise`. -/
def executeClauses (meaning : Interpretation) (rounds : Nat) (nodes : List Node)
    (otherwise : Memory → Execution) (memory : Memory) : Execution :=
  match nodes with
  | [] => otherwise memory
  | .clause _ _ condition body :: later =>
    Execution.choose (condition.value? meaning memory) (body.execute meaning rounds memory)
      (executeClauses meaning rounds later otherwise memory)
  | _ :: _ => .stuck

end

end Node

end IntMain
