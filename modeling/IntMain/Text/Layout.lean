/-!
# Columns of text

Padding to a width counted in characters. Text that is already as wide is left as
it is, never cut.
-/

namespace IntMain.Text

/-- A run of spaces. -/
def spaces (count : Nat) : String :=
  String.ofList (List.replicate count ' ')

/-- Pad on the right, so that the text stands at the left of its column. -/
def padRight (width : Nat) (text : String) : String :=
  text ++ spaces (width - text.length)

/-- Pad on the left, so that the text stands at the right of its column. -/
def padLeft (width : Nat) (text : String) : String :=
  spaces (width - text.length) ++ text

/-- Each line followed by a line feed. -/
def finished (lines : List String) : String :=
  String.join (lines.map (· ++ "\n"))

end IntMain.Text
