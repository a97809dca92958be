import IntMain.Token.Kind

/-!
# Known spellings

Keywords, operators and punctuation have fixed spellings. A `Lexicon` starts from
those and learns the kind of every other lexeme at its first occurrence; what it
has learned stays for the rest of the text.
-/

namespace IntMain

open TokenKind

/-- The keywords. -/
def keywords : List (String × TokenKind) :=
  [("if", ifWord), ("else", elseWord), ("while", whileWord), ("do", doWord), ("int", intWord),
   ("return", returnWord), ("main", mainWord)]

/-- The operators, a longer spelling before each of its beginnings, so that the
first spelling that matches is the longest. -/
def operators : List (String × TokenKind) :=
  [("<<=", shlAssign), (">>=", shrAssign), ("++", plusPlus), ("--", minusMinus),
   ("+=", plusAssign), ("-=", minusAssign), ("*=", starAssign), ("/=", slashAssign),
   ("%=", percentAssign), ("&=", ampAssign), ("|=", pipeAssign), ("^=", caretAssign),
   ("<=", le), (">=", ge), ("==", eqEq), ("!=", ne), ("&&", andAnd), ("||", orOr),
   ("<<", shl), (">>", shr), ("+", plus), ("-", minus), ("*", star), ("/", slash),
   ("%", percent), ("=", assign), ("!", not), ("<", lt), (">", gt), ("&", amp),
   ("|", pipe), ("^", caret)]

/-- The characters that are a token by themselves. -/
def punctuation : List (Char × TokenKind) :=
  [('(', lParen), (')', rParen), ('{', lBrace), ('}', rBrace), ('[', lBracket), (']', rBracket),
   (';', semicolon), (',', comma), ('?', question), ('~', tilde)]

/-- The kind of a punctuation character. -/
def punctuation? (character : Char) : Option TokenKind :=
  punctuation.lookup character

/-- The first operator that the characters start with. -/
def operator? (characters : List Char) : Option (String × TokenKind) :=
  operators.find? (fun entry => entry.1.toList.isPrefixOf characters)

/-- Whether some operator starts with a character. -/
def startsOperator (character : Char) : Bool :=
  operators.any (fun entry => entry.1.toList.head? == some character)

/-- Every spelling whose kind is fixed. -/
def fixedSpellings : List (String × TokenKind) :=
  keywords ++ operators ++
    punctuation.map (fun entry => (String.singleton entry.1, entry.2)) ++
    [("\"", doubleQuote), ("'", singleQuote)]

/-- The lexemes learned from a text so far, the latest first. -/
structure Lexicon where
  learned : List (String × TokenKind)
  deriving DecidableEq, Repr

namespace Lexicon

/-- A lexicon that knows the fixed spellings only. -/
def seeded : Lexicon := ⟨[]⟩

/-- The kind of a known lexeme. -/
def get? (lexicon : Lexicon) (lexeme : String) : Option TokenKind :=
  (fixedSpellings.lookup lexeme).or (lexicon.learned.lookup lexeme)

/-- The number of known lexemes. -/
def size (lexicon : Lexicon) : Nat :=
  fixedSpellings.length + lexicon.learned.length

/-- The kind of a lexeme: the known one, or else `discovered`, which is learned. -/
def classify (lexicon : Lexicon) (lexeme : String) (discovered : TokenKind) :
    TokenKind × Lexicon :=
  match lexicon.get? lexeme with
  | some kind => (kind, lexicon)
  | none => (discovered, ⟨(lexeme, discovered) :: lexicon.learned⟩)

end Lexicon

end IntMain
