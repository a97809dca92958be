import IntMain.Text.Decimal

/-!
# Positions

Where something stands in a source text. Lines and columns count from one, and a
column is a number of characters.
-/

namespace IntMain

/-- A line and a column of the source text. -/
structure Position where
  line : Nat
  column : Nat
  deriving DecidableEq, Repr

namespace Position

/-- The position of a text's first character. -/
def start : Position := ⟨1, 1⟩

/-- The position behind one character that stands at `position`. -/
def after (position : Position) (character : Char) : Position :=
  if character = '\n' then ⟨position.line + 1, 1⟩ else ⟨position.line, position.column + 1⟩

/-- The position behind a stretch of characters that starts at `position`. -/
def advance (position : Position) (characters : List Char) : Position :=
  characters.foldl after position

/-- The start of the line below a position. Line numbers are words of 64 bits, and zero
follows the last of them. -/
def below (position : Position) : Position :=
  ⟨(position.line + 1) % 18446744073709551616, 1⟩

/-- Line and column with a colon between them. -/
def text (position : Position) : String :=
  Text.decimal position.line ++ ":" ++ Text.decimal position.column

end Position

end IntMain
