import IntMain.Text.Layout
import IntMain.Text.Decimal

/-!
# Structured values as indented text

A small value type for reports and its text in JSON: every entry of a list or record on
a line of its own, indented by two spaces for each level, and no line break in an empty
one. Characters beyond ASCII are written as they are.
-/

namespace IntMain.Text

/-- A structured value. A record's fields keep their order. -/
inductive Json
  | null
  | number (value : Int)
  | string (text : String)
  | list (items : List Json)
  | record (fields : List (String × Json))

namespace Json

/-- A natural number as a value. -/
def natural (value : Nat) : Json := .number value

/-- A value that may be absent. -/
def optional {α : Type} (encode : α → Json) : Option α → Json
  | some value => encode value
  | none => .null

/-- A hexadecimal digit in lower case. -/
def hexDigit (value : Nat) : Char := Nat.digitChar value

/-- A character inside a quoted text. Quotes, backslashes and control characters are
escaped. -/
def escaped (character : Char) : List Char :=
  if character = '"' then ['\\', '"']
  else if character = '\\' then ['\\', '\\']
  else if character = '\x08' then ['\\', 'b']
  else if character = '\t' then ['\\', 't']
  else if character = '\n' then ['\\', 'n']
  else if character = '\x0c' then ['\\', 'f']
  else if character = '\r' then ['\\', 'r']
  else if character.toNat < 32 then
    ['\\', 'u', '0', '0', hexDigit (character.toNat / 16), hexDigit (character.toNat % 16)]
  else [character]

/-- A text in quotes. -/
def quoted (text : String) : String :=
  String.ofList ('"' :: text.toList.flatMap escaped ++ ['"'])

/-- The indentation of a level. -/
def indentation (level : Nat) : String := spaces (2 * level)

mutual

/-- The text of a value whose first line stands at `level`. -/
def render (level : Nat) : Json → String
  | .null => "null"
  | .number value => integer value
  | .string text => quoted text
  | .list [] => "[]"
  | .list (item :: items) =>
    "[\n" ++ renderItems (level + 1) (item :: items) ++ "\n" ++ indentation level ++ "]"
  | .record [] => "\x7b\x7d"
  | .record (field :: fields) =>
    "\x7b\n" ++ renderFields (level + 1) (field :: fields) ++ "\n" ++ indentation level ++ "\x7d"

/-- The lines of a list's items. -/
def renderItems (level : Nat) : List Json → String
  | [] => ""
  | item :: items =>
    let separator := if items.isEmpty then "" else ",\n"
    indentation level ++ item.render level ++ separator ++ renderItems level items

/-- The lines of a record's fields. -/
def renderFields (level : Nat) : List (String × Json) → String
  | [] => ""
  | (key, value) :: fields =>
    let separator := if fields.isEmpty then "" else ",\n"
    indentation level ++ quoted key ++ ": " ++ value.render level ++ separator ++
      renderFields level fields

end

/-- The text of a value. -/
def text (value : Json) : String := value.render 0

end Json

end IntMain.Text
