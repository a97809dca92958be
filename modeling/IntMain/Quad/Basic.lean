import IntMain.Text.Decimal
import IntMain.Tree.Operator

/-!
# Quadruples

An instruction of the intermediate program has a command, up to two sources and a
destination. Jumps and labels carry their label as the destination, and a return its
value. Any part may be missing; the assembler says what it needs.
-/

namespace IntMain

/-- The family of a command. -/
inductive CommandKind
  | arithmetic
  | relational
  | logical
  | unary
  | conditionalJump
  | label
  | unconditionalJump
  | copy
  | ret
  deriving DecidableEq, Repr

namespace CommandKind

/-- The name of a family in reports. -/
def name : CommandKind → String
  | .arithmetic => "Arithmetic"
  | .relational => "Relational"
  | .logical => "Logical"
  | .unary => "Unary"
  | .conditionalJump => "ConditionalJump"
  | .label => "Label"
  | .unconditionalJump => "UnconditionalJump"
  | .copy => "Copy"
  | .ret => "Return"

/-- Every family once. -/
def all : List CommandKind :=
  [.arithmetic, .relational, .logical, .unary, .conditionalJump, .label, .unconditionalJump,
   .copy, .ret]

/-- The family with a given name. -/
def ofName? (name : String) : Option CommandKind :=
  all.find? (fun kind => kind.name == name)

/-- Whether commands of a family compute a value into their destination. -/
def producesValue : CommandKind → Bool
  | .arithmetic => true
  | .relational => true
  | .logical => true
  | .unary => true
  | _ => false

end CommandKind

/-- What an instruction does: its family and its spelling. -/
structure Command where
  text : String
  kind : CommandKind
  deriving DecidableEq, Repr

namespace Command

/-- The spelling of a jump that is taken when its condition holds. -/
def ifTrueText : String := "If"

/-- The spelling of a jump that is taken when its condition does not hold. -/
def ifFalseText : String := "IfFalse"

/-- The command of a binary operator. -/
def binary (op : BinaryOp) : Command :=
  match op.operatorClass with
  | .arithmetic => ⟨op.symbol, .arithmetic⟩
  | .relational => ⟨op.symbol, .relational⟩
  | .logical => ⟨op.symbol, .logical⟩

/-- Whether it is a jump that is taken when its condition holds. -/
def jumpsWhenTrue (command : Command) : Bool :=
  command.kind == .conditionalJump && command.text == ifTrueText

end Command

/-- What an operand is. -/
inductive OperandKind
  | literal
  | variable
  | temporary
  | label
  deriving DecidableEq, Repr

namespace OperandKind

/-- The name of an operand kind in reports. -/
def name : OperandKind → String
  | .literal => "Literal"
  | .variable => "Variable"
  | .temporary => "Temporary"
  | .label => "Label"

/-- Every operand kind once. -/
def all : List OperandKind := [.literal, .variable, .temporary, .label]

/-- The operand kind with a given name. -/
def ofName? (name : String) : Option OperandKind :=
  all.find? (fun kind => kind.name == name)

end OperandKind

/-- An operand: the name it is listed by, and the text of its storage or value. -/
structure Operand where
  kind : OperandKind
  name : String
  text : String
  deriving DecidableEq, Repr

namespace Operand

/-- An integer. -/
def literal (value : Int) : Operand :=
  ⟨.literal, Text.integer value, Text.integer value⟩

/-- A variable at an address relative to the frame base. -/
def stored (name : String) (address : Int) : Operand :=
  ⟨.variable, name, "[ebp" ++ Text.signedInteger address ++ "]"⟩

/-- A numbered temporary. -/
def temporary (number : Nat) : Operand :=
  ⟨.temporary, "t" ++ Text.decimal number, "t" ++ Text.decimal number⟩

/-- A numbered label. -/
def label (number : Nat) : Operand :=
  ⟨.label, "L" ++ Text.decimal number, "L" ++ Text.decimal number⟩

/-- Whether an operand is a temporary. -/
def isTemporary (operand : Operand) : Bool := operand.kind == .temporary

end Operand

/-- An instruction of the intermediate program. -/
structure Quad where
  command : Option Command
  left : Option Operand := none
  right : Option Operand := none
  target : Option Operand := none
  deriving DecidableEq, Repr

namespace Quad

/-- Compute a binary operation. -/
def binary (op : BinaryOp) (left right target : Operand) : Quad :=
  ⟨some (.binary op), some left, some right, some target⟩

/-- Compute a signed operand. -/
def unary (op : UnaryOp) (operand target : Operand) : Quad :=
  ⟨some ⟨op.symbol, .unary⟩, some operand, none, some target⟩

/-- Copy a value. -/
def copy (source target : Operand) : Quad :=
  ⟨some ⟨"=", .copy⟩, some source, none, some target⟩

/-- Jump to a label unless a condition holds. -/
def jumpIfFalse (condition label : Operand) : Quad :=
  ⟨some ⟨Command.ifFalseText, .conditionalJump⟩, some condition, none, some label⟩

/-- Jump to a label if a condition holds. -/
def jumpIfTrue (condition label : Operand) : Quad :=
  ⟨some ⟨Command.ifTrueText, .conditionalJump⟩, some condition, none, some label⟩

/-- Jump to a label. -/
def jump (label : Operand) : Quad :=
  ⟨some ⟨"goto", .unconditionalJump⟩, none, none, some label⟩

/-- The place a label names. -/
def label (label : Operand) : Quad :=
  ⟨some ⟨"label", .label⟩, none, none, some label⟩

/-- Return a value. -/
def ret (value : Operand) : Quad :=
  ⟨some ⟨"return", .ret⟩, none, none, some value⟩

/-- The family of an instruction's command. -/
def kind? (quad : Quad) : Option CommandKind := quad.command.map Command.kind

/-- Whether an instruction computes a value into its target. -/
def producesValue (quad : Quad) : Bool := quad.kind?.any CommandKind.producesValue

end Quad

/-- An intermediate program: its instructions and the bytes its variables take. -/
structure Program where
  quads : List Quad
  frameSize : Nat
  deriving DecidableEq, Repr

end IntMain
