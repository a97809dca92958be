import IntMain.Position
import IntMain.Tree.Operator

/-!
# Program trees

A program is a tree of nodes. Every node carries a mark, its number and its
position. Identifier nodes have room for what name resolution finds out about them.

Any node may stand anywhere in a tree; the later stages say which trees they have
rules for.
-/

namespace IntMain

/-- A node's number and position. -/
structure Mark where
  id : Nat
  position : Position
  deriving DecidableEq, Repr

/-- The type of a variable. -/
inductive TypeTag
  | int
  deriving DecidableEq, Repr

/-- The name of a type. -/
def TypeTag.name : TypeTag → String
  | .int => "int"

/-- The type with a given name. -/
def TypeTag.ofName? (name : String) : Option TypeTag :=
  if name = "int" then some .int else none

/-- A name in a program and what is known about the variable it stands for. -/
structure Identifier where
  name : String
  /-- The variable's offset from the frame base. -/
  address : Option Int := none
  type : Option TypeTag := none
  deriving DecidableEq, Repr

/-- Whether a clause is the first of its chain. -/
inductive ClauseTag
  | first
  | later
  deriving DecidableEq, Repr

/-- A node of a program tree. -/
inductive Node
  | integer (mark : Mark) (value : Int) (lexeme : String)
  | identifier (mark : Mark) (identifier : Identifier)
  | unary (mark : Mark) (op : UnaryOp) (operand : Node)
  | binary (mark : Mark) (op : BinaryOp) (left right : Node)
  /-- One condition of an if chain and the body it guards. -/
  | clause (mark : Mark) (tag : ClauseTag) (condition body : Node)
  /-- An if statement: clauses that are tried in turn, and the body of a final else. -/
  | chain (mark : Mark) (clauses : List Node) (otherwise : Option Node)
  | whileLoop (mark : Mark) (condition body : Node)
  | doWhile (mark : Mark) (body condition : Node)
  /-- The statements of the program or of a control statement's body. -/
  | compound (mark : Mark) (statements : List Node)
  /-- A free-standing block, which has a scope of its own. -/
  | block (mark : Mark) (statements : List Node)
  | declaration (mark : Mark) (name : Node)
  | initialization (mark : Mark) (name value : Node)
  | assignment (mark : Mark) (target : Node) (op : AssignOp) (value : Node)
  | returned (mark : Mark) (value : Node)
  | empty (mark : Mark)
  deriving Repr

namespace Node

/-- The mark of a node. -/
def mark : Node → Mark
  | .integer mark _ _ => mark
  | .identifier mark _ => mark
  | .unary mark _ _ => mark
  | .binary mark _ _ _ => mark
  | .clause mark _ _ _ => mark
  | .chain mark _ _ => mark
  | .whileLoop mark _ _ => mark
  | .doWhile mark _ _ => mark
  | .compound mark _ => mark
  | .block mark _ => mark
  | .declaration mark _ => mark
  | .initialization mark _ _ => mark
  | .assignment mark _ _ _ => mark
  | .returned mark _ => mark
  | .empty mark => mark

/-- The number of a node. -/
def id (node : Node) : Nat := node.mark.id

/-- The position of a node. -/
def position (node : Node) : Position := node.mark.position

/-- The children of a node in the order of the source text. -/
def children : Node → List Node
  | .integer _ _ _ => []
  | .identifier _ _ => []
  | .unary _ _ operand => [operand]
  | .binary _ _ left right => [left, right]
  | .clause _ _ condition body => [condition, body]
  | .chain _ clauses otherwise => clauses ++ otherwise.toList
  | .whileLoop _ condition body => [condition, body]
  | .doWhile _ body condition => [body, condition]
  | .compound _ statements => statements
  | .block _ statements => statements
  | .declaration _ name => [name]
  | .initialization _ name value => [name, value]
  | .assignment _ target _ value => [target, value]
  | .returned _ value => [value]
  | .empty _ => []

/-- The name of a node's kind. -/
def tag : Node → String
  | .integer _ _ _ => "Integer"
  | .identifier _ _ => "Identifier"
  | .unary _ _ _ => "Unary"
  | .binary _ op _ _ =>
    match op.operatorClass with
    | .arithmetic => "BinaryOp"
    | .relational => "Condition"
    | .logical => "Condition"
  | .clause _ _ _ _ => "IfClause"
  | .chain _ _ _ => "IfChain"
  | .whileLoop _ _ _ => "While"
  | .doWhile _ _ _ => "DoWhile"
  | .compound _ _ => "Compound"
  | .block _ _ => "Block"
  | .declaration _ _ => "Declaration"
  | .initialization _ _ _ => "DeclarationAssignment"
  | .assignment _ _ _ _ => "Assignment"
  | .returned _ _ => "Return"
  | .empty _ => "Empty"

end Node

end IntMain
