import IntMain.Position
import IntMain.Text.Blank
import IntMain.Text.Number
import IntMain.Token.Lexicon

/-!
# Pieces of source text

A source text is cut into pieces: blanks and comments, which carry no token, and
lexemes. `Mode.piece` takes the next piece off a non-empty rest of the text; every
text has a next piece. Inside a quoted literal the rules differ from those outside,
so the scan knows in which `Mode` it is.

Something odd never stops the scan. It becomes a `Warning` beside the piece.
-/

namespace IntMain

open Text (isBlank isDigit isLetter isLetterOrNumber)

/-- Something odd about a piece, or about a literal that is never closed. -/
inductive Warning
  | unterminatedComment
  | unknownCharacter (character : Char)
  | noDigits (lexeme : List Char)
  | unterminatedLiteral
  | danglingBackslash
  | emptyHexEscape
  | shortEscape (marker : Char) (wanted found : Nat)
  | unknownEscape (character : Char)
  | malformedDelimiter
  | unterminatedRawString
  deriving DecidableEq, Repr

/-- The wording of a warning about what starts at `position`. -/
def Warning.message (position : Position) : Warning → String
  | .unterminatedComment => "unterminated block comment opened at " ++ position.text
  | .unknownCharacter character =>
    "unknown character '" ++ String.singleton character ++ "' at " ++ position.text
  | .noDigits lexeme =>
    "numeric literal '" ++ String.ofList lexeme ++ "' at " ++ position.text ++ " has no digits"
  | .unterminatedLiteral => "unterminated literal opened at " ++ position.text
  | .danglingBackslash => "dangling backslash at " ++ position.text
  | .emptyHexEscape => "\\x escape without digits at " ++ position.text
  | .shortEscape marker wanted found =>
    "\\" ++ String.singleton marker ++ " escape at " ++ position.text ++ " needs " ++
      Text.decimal wanted ++ " hex digits, found " ++ Text.decimal found
  | .unknownEscape character =>
    "unknown escape sequence \\" ++ String.singleton character ++ " at " ++ position.text
  | .malformedDelimiter => "malformed raw string delimiter at " ++ position.text
  | .unterminatedRawString => "unterminated raw string opened at " ++ position.text

/-- How a piece becomes a token. -/
inductive Role
  /-- No token: white space or a comment. -/
  | blank
  /-- A token whose kind the lexicon decides; `kind` is what the scan discovered. -/
  | interned (kind : TokenKind)
  /-- A token of this very kind, which the lexicon never sees. -/
  | fixed (kind : TokenKind)
  deriving DecidableEq, Repr

/-- A stretch of source text. -/
structure Piece where
  role : Role
  lexeme : List Char
  warning : Option Warning := none
  deriving DecidableEq, Repr

/-- Whether a character may start an identifier or a keyword. -/
def startsWord (character : Char) : Bool :=
  isLetter character || character == '_' || character == '$'

/-- Whether a character may continue an identifier or a keyword. -/
def continuesWord (character : Char) : Bool :=
  isLetterOrNumber character || character == '_' || character == '$'

/-- Whether a character opens a quoted literal. -/
def isQuote (character : Char) : Bool :=
  character == '"' || character == '\''

/-- The kind of a quote's token. -/
def quoteKind (quote : Char) : TokenKind :=
  if quote = '"' then .doubleQuote else .singleQuote

/-- The characters up to and including the first occurrence of `closing`, or nothing
when it does not occur. -/
def through? (closing : List Char) : List Char → Option (List Char)
  | [] => none
  | character :: rest =>
    if closing.isPrefixOf (character :: rest) then some closing
    else (through? closing rest).map (character :: ·)

/-- A comment between `/*` and the first `*/` behind it, or to the end of the text. -/
def blockComment (characters : List Char) : Piece :=
  match through? ['*', '/'] (characters.drop 2) with
  | some body => { role := .blank, lexeme := '/' :: '*' :: body }
  | none =>
    { role := .blank, lexeme := characters, warning := some .unterminatedComment }

/-! ### Numbers -/

/-- The longest run of digits of `radix`. Once a digit is `seen`, a single quote may
stand before another digit. -/
def digitRun (radix : Nat) (seen : Bool) : List Char → List Char
  | [] => []
  | character :: rest =>
    if isDigit radix character then character :: digitRun radix true rest
    else if character == '\'' && seen && rest.head?.any (isDigit radix) then
      character :: digitRun radix true rest
    else []

/-- The two characters that announce a radix, and that radix. -/
def radixMark : List Char → List Char × Nat
  | '0' :: 'x' :: _ => (['0', 'x'], 16)
  | '0' :: 'X' :: _ => (['0', 'X'], 16)
  | '0' :: 'b' :: _ => (['0', 'b'], 2)
  | '0' :: 'B' :: _ => (['0', 'B'], 2)
  | _ => ([], 10)

/-- A point and the digits behind it; binary numbers have none. -/
def fraction (radix : Nat) : List Char → List Char
  | '.' :: rest => if radix = 2 then [] else '.' :: digitRun radix false rest
  | _ => []

/-- Whether a character announces an exponent in `radix`. -/
def marksExponent (radix : Nat) (character : Char) : Bool :=
  (radix == 10 && (character == 'e' || character == 'E')) ||
    (radix == 16 && (character == 'p' || character == 'P'))

/-- An exponent: its mark, an optional sign and decimal digits, of which there is at
least one. -/
def exponent (radix : Nat) : List Char → List Char
  | [] => []
  | mark :: rest =>
    let sign := rest.take 1 |>.filter (fun character => character == '+' || character == '-')
    let digits := digitRun 10 false (rest.drop sign.length)
    if marksExponent radix mark && !digits.isEmpty then mark :: sign ++ digits else []

/-- Whether a character may stand in a number's suffix. -/
def isSuffix (character : Char) : Bool :=
  ['u', 'U', 'l', 'L', 'f', 'F'].contains character

/-- A number. It is a floating-point one if it has a point, an exponent or an `f` in
its suffix. -/
def number (characters : List Char) : Piece :=
  let (mark, radix) := radixMark characters
  let rest := characters.drop mark.length
  let whole := digitRun radix false rest
  let rest := rest.drop whole.length
  let fraction := fraction radix rest
  let rest := rest.drop fraction.length
  let exponent := exponent radix rest
  let suffix := (rest.drop exponent.length).takeWhile isSuffix
  let isFloat := !fraction.isEmpty || !exponent.isEmpty || suffix.any (['f', 'F'].contains ·)
  { role := .interned (if isFloat then .floatLiteral else .intLiteral)
    lexeme := mark ++ whole ++ fraction ++ exponent ++ suffix
    warning :=
      if whole.isEmpty && fraction.length ≤ 1 then some (.noDigits (mark ++ whole ++ fraction))
      else none }

/-! ### Raw strings and encoding marks -/

/-- The spellings that open a raw string. -/
def rawOpenings : List String := ["u8R\"", "uR\"", "UR\"", "LR\"", "R\""]

/-- The spellings that may stand before a quoted literal. -/
def encodingMarks : List String := ["u8", "u", "U", "L"]

/-- A raw string's delimiter takes a further character while it has fewer bytes. -/
def rawDelimiterLimit : Nat := 16

/-- The delimiter of a raw string, and whether an opening parenthesis follows it.
`size` is the number of bytes taken so far. -/
def rawDelimiter (size : Nat) : List Char → List Char × Bool
  | [] => ([], false)
  | character :: rest =>
    if character = '(' then ([], true)
    else if !isBlank character && character != ')' && character != '\\' &&
        decide (size < rawDelimiterLimit) then
      let (delimiter, opened) := rawDelimiter (size + character.utf8Size) rest
      (character :: delimiter, opened)
    else ([], false)

/-- A raw string, kept whole: its opening, a delimiter, a parenthesis, and everything
up to the closing parenthesis that the same delimiter and a quote follow. -/
def rawString (opening characters : List Char) : Piece :=
  let rest := characters.drop opening.length
  let (delimiter, opened) := rawDelimiter 0 rest
  let head := opening ++ delimiter
  if opened then
    match through? (')' :: delimiter ++ ['"']) (rest.drop (delimiter.length + 1)) with
    | some body => { role := .fixed .rawString, lexeme := head ++ '(' :: body }
    | none =>
      { role := .fixed .rawString, lexeme := characters, warning := some .unterminatedRawString }
  else { role := .fixed .rawString, lexeme := head, warning := some .malformedDelimiter }

/-- A raw string or the encoding mark of a quoted literal, if the characters start
with one. -/
def literalStart? (characters : List Char) : Option Piece :=
  match rawOpenings.find? (fun opening => opening.toList.isPrefixOf characters) with
  | some opening => some (rawString opening.toList characters)
  | none =>
    let marks (mark : String) : Bool :=
      mark.toList.isPrefixOf characters && (characters.drop mark.length).head?.any isQuote
    (encodingMarks.find? marks).map (fun mark =>
      { role := .fixed .encodingMark, lexeme := mark.toList })

/-! ### Quoted literals -/

/-- The characters that form an escape sequence with the backslash before them. -/
def simpleEscapes : List Char := ['\'', '"', '?', '\\', 'a', 'b', 'f', 'n', 'r', 't', 'v']

/-- The escape sequence whose backslash the characters follow. -/
def escape : List Char → Piece
  | [] =>
    { role := .fixed .escapeSequence, lexeme := ['\\'], warning := some .danglingBackslash }
  | character :: rest =>
    if simpleEscapes.contains character then
      { role := .fixed .escapeSequence, lexeme := ['\\', character] }
    else if isDigit 8 character then
      { role := .fixed .escapeSequence
        lexeme := '\\' :: ((character :: rest).take 3).takeWhile (isDigit 8) }
    else if character = 'x' then
      let digits := rest.takeWhile (isDigit 16)
      { role := .fixed .escapeSequence
        lexeme := '\\' :: character :: digits
        warning := if digits.isEmpty then some .emptyHexEscape else none }
    else if character = 'u' ∨ character = 'U' then
      let wanted := if character = 'u' then 4 else 8
      let digits := (rest.take wanted).takeWhile (isDigit 16)
      { role := .fixed .escapeSequence
        lexeme := '\\' :: character :: digits
        warning :=
          if digits.length = wanted then none
          else some (.shortEscape character wanted digits.length) }
    else
      { role := .fixed .escapeSequence
        lexeme := ['\\', character]
        warning := some (.unknownEscape character) }

/-- The next piece inside a literal that `quote` has opened: its closing quote, an
escape sequence, or text up to the next of these. -/
def quotedPiece (quote character : Char) (rest : List Char) : Piece :=
  if character = quote then { role := .interned (quoteKind quote), lexeme := [character] }
  else if character = '\\' then escape rest
  else
    { role := .fixed .literalText
      lexeme := (character :: rest).takeWhile (fun next => next != quote && next != '\\') }

/-! ### Everything else -/

/-- The next piece outside quoted literals. -/
def codePiece (character : Char) (rest : List Char) : Piece :=
  let characters := character :: rest
  if isBlank character then { role := .blank, lexeme := characters.takeWhile isBlank }
  else if ['/', '/'].isPrefixOf characters then
    { role := .blank, lexeme := characters.takeWhile (· != '\n') }
  else if ['/', '*'].isPrefixOf characters then blockComment characters
  else if startsWord character then
    (literalStart? characters).getD
      { role := .interned .identifier, lexeme := characters.takeWhile continuesWord }
  else if isDigit 10 character then number characters
  else if isQuote character then
    { role := .interned (quoteKind character), lexeme := [character] }
  else
    match punctuation? character, operator? characters with
    | some kind, _ => { role := .interned kind, lexeme := [character] }
    | none, some (spelling, kind) => { role := .interned kind, lexeme := spelling.toList }
    | none, none =>
      { role := .interned .unknown
        lexeme := [character]
        warning := some (.unknownCharacter character) }

/-- Whether the scan is inside a quoted literal, and where that was opened. -/
inductive Mode
  | code
  | quoted (quote : Char) (opened : Position)
  deriving DecidableEq, Repr

namespace Mode

/-- The next piece of a text that starts with `character`. -/
def piece (mode : Mode) (character : Char) (rest : List Char) : Piece :=
  match mode with
  | .code => codePiece character rest
  | .quoted quote _ => quotedPiece quote character rest

/-- The mode behind a piece that starts with `character` at `position`. -/
def next (mode : Mode) (character : Char) (position : Position) : Mode :=
  match mode with
  | .code => if isQuote character then .quoted character position else .code
  | .quoted quote opened => if character = quote then .code else .quoted quote opened

end Mode

/-- A piece and the position of its first character. -/
structure Stretch where
  position : Position
  piece : Piece
  deriving DecidableEq, Repr

/-- A whole text cut into pieces. -/
structure Scan where
  stretches : List Stretch
  /-- Where a literal that is never closed was opened. -/
  unclosed : Option Position
  deriving DecidableEq, Repr

/-- Cut the rest of a text into pieces. -/
def Scan.from (mode : Mode) (position : Position) : List Char → Scan
  | [] =>
    match mode with
    | .code => ⟨[], none⟩
    | .quoted _ opened => ⟨[], some opened⟩
  | character :: rest =>
    let piece := mode.piece character rest
    let later := Scan.from (mode.next character position) (position.advance piece.lexeme)
      (rest.drop (piece.lexeme.length - 1))
    ⟨⟨position, piece⟩ :: later.stretches, later.unclosed⟩
termination_by characters => characters.length
decreasing_by
  simp only [List.length_drop, List.length_cons]
  omega

/-- Cut a text into pieces. -/
def Scan.ofText (text : String) : Scan :=
  Scan.from .code Position.start text.toList

end IntMain
