import IntMain.Token.Kind

/-!
# Operators

Unary, binary and assignment operators with their spellings, and how tightly the
binary ones bind.
-/

namespace IntMain

/-- A sign in front of an operand. -/
inductive UnaryOp
  | plus
  | minus
  deriving DecidableEq, Repr

namespace UnaryOp

/-- The spelling of a sign. -/
def symbol : UnaryOp → String
  | .plus => "+"
  | .minus => "-"

/-- The name of a sign in an expression's shape. -/
def shapeName : UnaryOp → String
  | .plus => "Pos"
  | .minus => "Neg"

end UnaryOp

/-- The families of binary operators. -/
inductive OperatorClass
  | arithmetic
  | relational
  | logical
  deriving DecidableEq, Repr

/-- An operator between two operands. -/
inductive BinaryOp
  | add
  | sub
  | mul
  | div
  | lt
  | le
  | gt
  | ge
  | eq
  | ne
  | and
  | or
  deriving DecidableEq, Repr

namespace BinaryOp

/-- The spelling of an operator. -/
def symbol : BinaryOp → String
  | .add => "+"
  | .sub => "-"
  | .mul => "*"
  | .div => "/"
  | .lt => "<"
  | .le => "<="
  | .gt => ">"
  | .ge => ">="
  | .eq => "=="
  | .ne => "!="
  | .and => "&&"
  | .or => "||"

/-- The name of an operator in an expression's shape. -/
def shapeName : BinaryOp → String
  | .add => "Add"
  | .sub => "Sub"
  | .mul => "Mul"
  | .div => "Div"
  | .lt => "Lt"
  | .le => "Le"
  | .gt => "Gt"
  | .ge => "Ge"
  | .eq => "Eq"
  | .ne => "Ne"
  | .and => "And"
  | .or => "Or"

/-- The family of an operator. -/
def operatorClass : BinaryOp → OperatorClass
  | .add => .arithmetic
  | .sub => .arithmetic
  | .mul => .arithmetic
  | .div => .arithmetic
  | .lt => .relational
  | .le => .relational
  | .gt => .relational
  | .ge => .relational
  | .eq => .relational
  | .ne => .relational
  | .and => .logical
  | .or => .logical

/-- How tightly an operator binds: products before sums, sums before comparisons, and
those before the logical operators, which bind alike. -/
def tightness : BinaryOp → Nat
  | .mul => 3
  | .div => 3
  | .add => 2
  | .sub => 2
  | .lt => 1
  | .le => 1
  | .gt => 1
  | .ge => 1
  | .eq => 1
  | .ne => 1
  | .and => 0
  | .or => 0

/-- The operator that a token kind stands for between two operands. -/
def ofKind? : TokenKind → Option BinaryOp
  | .plus => some .add
  | .minus => some .sub
  | .star => some .mul
  | .slash => some .div
  | .lt => some .lt
  | .le => some .le
  | .gt => some .gt
  | .ge => some .ge
  | .eqEq => some .eq
  | .ne => some .ne
  | .andAnd => some .and
  | .orOr => some .or
  | _ => none

end BinaryOp

/-- An operator that writes a variable. -/
inductive AssignOp
  | assign
  | add
  | sub
  | mul
  | div
  deriving DecidableEq, Repr

namespace AssignOp

/-- The spelling of an assignment operator. -/
def symbol : AssignOp → String
  | .assign => "="
  | .add => "+="
  | .sub => "-="
  | .mul => "*="
  | .div => "/="

/-- The operation by which a compound assignment combines the old value with the new. -/
def arithmetic? : AssignOp → Option BinaryOp
  | .assign => none
  | .add => some .add
  | .sub => some .sub
  | .mul => some .mul
  | .div => some .div

/-- The assignment operator that a token kind stands for. -/
def ofKind? : TokenKind → Option AssignOp
  | .assign => some .assign
  | .plusAssign => some .add
  | .minusAssign => some .sub
  | .starAssign => some .mul
  | .slashAssign => some .div
  | _ => none

end AssignOp

end IntMain
