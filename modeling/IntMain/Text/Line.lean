/-!
# Lines of a text

A text is a sequence of lines, each ended by a line feed. The last line may lack
its line feed, and a carriage return directly before a line feed belongs to the
line's end.
-/

namespace IntMain.Text

/-- Drop a carriage return at the end of a line that a line feed has ended. -/
def withoutReturn (line : List Char) : List Char :=
  if line.getLast? = some '\r' then line.dropLast else line

/-- Split characters into lines; `current` holds the unfinished line, last
character first. -/
def linesFrom (current : List Char) : List Char → List (List Char)
  | [] => if current.isEmpty then [] else [current.reverse]
  | '\n' :: rest => withoutReturn current.reverse :: linesFrom [] rest
  | character :: rest => linesFrom (character :: current) rest

/-- The lines of a text, without their ends. The empty text has none. -/
def lines (text : String) : List String :=
  (linesFrom [] text.toList).map String.ofList

/-- Lines put together again, a line feed between each two. -/
def unlines (lines : List String) : String :=
  String.intercalate "\n" lines

end IntMain.Text
