import IntMain.Text.Decimal
import IntMain.Text.Layout
import IntMain.Tree.Walk

/-!
# Trees as text

An indented listing with one node per line, and the compact shape of an expression.
-/

namespace IntMain

/-- The text of a clause's tag. -/
def ClauseTag.text : ClauseTag → String
  | .first => "IF"
  | .later => "ELSE_IF"

namespace Node

/-- What a node holds besides its children; empty if that is nothing. -/
def label : Node → String
  | .integer _ value _ => Text.integer value
  | .identifier _ occurrence =>
    match occurrence.address with
    | some address => occurrence.name ++ " @" ++ Text.integer address
    | none => occurrence.name
  | .unary _ op _ => op.symbol
  | .binary _ op _ _ => op.symbol
  | .clause _ tag _ _ => tag.text
  | .declaration _ _ => TypeTag.int.name
  | .initialization _ _ _ => TypeTag.int.name
  | .assignment _ _ op _ => op.symbol
  | _ => ""

/-- A node's line of the listing at a depth. -/
def line (node : Node) (depth : Nat) : String :=
  let label := if node.label.isEmpty then "" else " [" ++ node.label ++ "]"
  Text.spaces (2 * depth) ++ node.tag ++ " #" ++ Text.decimal node.id ++ label

/-- The listing of a tree in pre-order. -/
def listing (root : Node) : String :=
  Text.finished (root.preorder.map (fun (node, depth) => node.line depth))

/-- An expression in a compact form; a statement is reduced to its tag. -/
def shape : Node → String
  | .integer _ value _ => Text.integer value
  | .identifier _ occurrence => occurrence.name
  | .unary _ op operand => op.shapeName ++ "(" ++ operand.shape ++ ")"
  | .binary _ op left right =>
    op.shapeName ++ "(" ++ left.shape ++ ", " ++ right.shape ++ ")"
  | node => node.tag

end Node

end IntMain
