import IntMain.Fault
import IntMain.Text.Layout

/-!
# Diagnostics

A diagnostic is a fault together with the stage that failed and the source line at
which the fault points. Its text shows that line with a mark under the column.
-/

namespace IntMain

/-- The failure of a stage. -/
structure Diagnostic where
  stage : Stage
  fault : Fault
  lineText : Option String
  deriving DecidableEq, Repr

namespace Diagnostic

/-- The first line of a diagnostic. -/
def headline (diagnostic : Diagnostic) : String :=
  let place :=
    match diagnostic.fault.position? with
    | some position => " at " ++ position.text
    | none => ""
  diagnostic.stage.name ++ " error" ++ place ++ ": " ++ diagnostic.fault.message

/-- The source line and a mark under the fault's column. -/
def excerpt (diagnostic : Diagnostic) : String :=
  match diagnostic.lineText, diagnostic.fault.position? with
  | some line, some position =>
    "\n  | " ++ line ++ "\n  | " ++ Text.spaces (position.column - 1) ++ "^"
  | _, _ => ""

/-- The whole text of a diagnostic. -/
def text (diagnostic : Diagnostic) : String :=
  diagnostic.headline ++ diagnostic.excerpt

end Diagnostic

end IntMain
