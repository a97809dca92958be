import IntMain.Fault

/-!
# Reading a token stream

A cursor stands on one token of a stream that has an end token. It moves forward
only, and never beyond the last token.
-/

namespace IntMain

/-- A token of a stream and the tokens behind it. -/
structure Cursor where
  current : Token
  later : List Token
  deriving DecidableEq, Repr

namespace Cursor

/-- The cursor on the first token of a stream, which is completed if it lacks an end
token. -/
def ofTokens (tokens : List Token) : Cursor :=
  match Token.completed tokens with
  | [] => ⟨Token.missingEnd [], []⟩
  | first :: later => ⟨first, later⟩

/-- The token behind the current one; the last token is followed by itself. -/
def peek (cursor : Cursor) : Token :=
  cursor.later.headD cursor.current

/-- The cursor moved by one token. -/
def advance (cursor : Cursor) : Cursor :=
  match cursor.later with
  | [] => cursor
  | next :: later => ⟨next, later⟩

/-- Whether the current token is of a kind. -/
def check (cursor : Cursor) (kind : TokenKind) : Bool :=
  cursor.current.kind == kind

/-- Whether the current token ends the stream. -/
def isExhausted (cursor : Cursor) : Bool :=
  cursor.current.isEnd

/-- The fault that the current token is when something else was expected. -/
def unexpected (cursor : Cursor) (expected : String) : Fault :=
  Fault.unexpected expected cursor.current

/-- Move past the current token, which has to be of a kind. -/
def advancePast (cursor : Cursor) (kind : TokenKind) : Except Fault (Token × Cursor) :=
  if cursor.check kind then .ok (cursor.current, cursor.advance)
  else .error (cursor.unexpected kind.name)

end Cursor

end IntMain
