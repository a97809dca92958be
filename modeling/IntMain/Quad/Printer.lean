import IntMain.Quad.Basic
import IntMain.Text.Layout

/-!
# Quadruples as text

One instruction per line. Labels stand at the left, everything else is indented.
-/

namespace IntMain

/-- The name of an operand, or a question mark for a missing one. -/
def Operand.nameOf (operand : Option Operand) : String :=
  (operand.map Operand.name).getD "?"

namespace Quad

/-- The text of an instruction. -/
def text (quad : Quad) : String :=
  match quad.command with
  | none => "nop"
  | some command =>
    let left := Operand.nameOf quad.left
    let right := Operand.nameOf quad.right
    let target := Operand.nameOf quad.target
    match command.kind with
    | .arithmetic => target ++ " = " ++ left ++ " " ++ command.text ++ " " ++ right
    | .relational => target ++ " = " ++ left ++ " " ++ command.text ++ " " ++ right
    | .logical => target ++ " = " ++ left ++ " " ++ command.text ++ " " ++ right
    | .unary => target ++ " = " ++ command.text ++ left
    | .copy => target ++ " = " ++ left
    | .conditionalJump => command.text ++ " " ++ left ++ " goto " ++ target
    | .unconditionalJump => "goto " ++ target
    | .label => target ++ ":"
    | .ret => "return " ++ target

/-- The line of an instruction in a listing. -/
def line (quad : Quad) : String :=
  if quad.kind? = some .label then quad.text else "    " ++ quad.text

end Quad

/-- The listing of a program. -/
def Program.listing (program : Program) : String :=
  Text.finished (program.quads.map Quad.line)

end IntMain
