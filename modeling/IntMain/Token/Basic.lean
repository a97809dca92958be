import IntMain.Position
import IntMain.Token.Kind

/-!
# Tokens

A token is a lexeme of the source text with its kind and the position of its first
character. A token stream is ended by a token of its own, which has no lexeme.
-/

namespace IntMain

/-- A lexeme, where it stands and what it is. -/
structure Token where
  lexeme : String
  position : Position
  kind : TokenKind
  deriving DecidableEq, Repr

namespace Token

/-- The token that ends a stream. -/
def endAt (position : Position) : Token := ⟨"", position, .endOfInput⟩

/-- Whether a token ends its stream. -/
def isEnd (token : Token) : Bool := token.kind == .endOfInput

/-- Kind, lexeme and position on one line. -/
def text (token : Token) : String :=
  token.kind.name ++ " '" ++ token.lexeme ++ "' @ " ++ token.position.text

/-- The end token that a stream without one receives: on the line below the last
token, or at the start of the text when there is no token. -/
def missingEnd (tokens : List Token) : Token :=
  match tokens.getLast? with
  | some last => endAt last.position.below
  | none => endAt Position.start

/-- A stream whose last token ends it. -/
def completed (tokens : List Token) : List Token :=
  if tokens.getLast?.any isEnd then tokens else tokens ++ [missingEnd tokens]

end Token

end IntMain
