/-!
# Token kinds

Every kind of token a source text can hold, with the name it has in messages and
reports.
-/

namespace IntMain

/-- What a token is. -/
inductive TokenKind
  | identifier
  | intLiteral
  | floatLiteral
  | plus
  | minus
  | star
  | slash
  | percent
  | plusPlus
  | minusMinus
  | assign
  | plusAssign
  | minusAssign
  | starAssign
  | slashAssign
  | percentAssign
  | ampAssign
  | pipeAssign
  | caretAssign
  | shlAssign
  | shrAssign
  | lt
  | le
  | gt
  | ge
  | eqEq
  | ne
  | andAnd
  | orOr
  | not
  | amp
  | pipe
  | caret
  | tilde
  | shl
  | shr
  | ifWord
  | elseWord
  | whileWord
  | doWord
  | intWord
  | returnWord
  | mainWord
  | lParen
  | rParen
  | lBrace
  | rBrace
  | lBracket
  | rBracket
  | semicolon
  | comma
  | question
  | encodingMark
  | doubleQuote
  | singleQuote
  | literalText
  | escapeSequence
  | rawString
  | endOfInput
  | unknown
  deriving DecidableEq, Repr

namespace TokenKind

/-- The name of a kind in messages and reports. -/
def name : TokenKind → String
  | .identifier => "Identifier"
  | .intLiteral => "IntLiteral"
  | .floatLiteral => "FloatLiteral"
  | .plus => "Plus"
  | .minus => "Minus"
  | .star => "Star"
  | .slash => "Slash"
  | .percent => "Percent"
  | .plusPlus => "PlusPlus"
  | .minusMinus => "MinusMinus"
  | .assign => "Assign"
  | .plusAssign => "PlusAssign"
  | .minusAssign => "MinusAssign"
  | .starAssign => "StarAssign"
  | .slashAssign => "SlashAssign"
  | .percentAssign => "PercentAssign"
  | .ampAssign => "AmpAssign"
  | .pipeAssign => "PipeAssign"
  | .caretAssign => "CaretAssign"
  | .shlAssign => "ShlAssign"
  | .shrAssign => "ShrAssign"
  | .lt => "Lt"
  | .le => "Le"
  | .gt => "Gt"
  | .ge => "Ge"
  | .eqEq => "EqEq"
  | .ne => "Ne"
  | .andAnd => "AndAnd"
  | .orOr => "OrOr"
  | .not => "Not"
  | .amp => "Amp"
  | .pipe => "Pipe"
  | .caret => "Caret"
  | .tilde => "Tilde"
  | .shl => "Shl"
  | .shr => "Shr"
  | .ifWord => "If"
  | .elseWord => "Else"
  | .whileWord => "While"
  | .doWord => "Do"
  | .intWord => "Int"
  | .returnWord => "Return"
  | .mainWord => "Main"
  | .lParen => "LParen"
  | .rParen => "RParen"
  | .lBrace => "LBrace"
  | .rBrace => "RBrace"
  | .lBracket => "LBracket"
  | .rBracket => "RBracket"
  | .semicolon => "Semicolon"
  | .comma => "Comma"
  | .question => "Question"
  | .encodingMark => "EncodingPrefix"
  | .doubleQuote => "DoubleQuote"
  | .singleQuote => "SingleQuote"
  | .literalText => "LiteralText"
  | .escapeSequence => "EscapeSequence"
  | .rawString => "RawString"
  | .endOfInput => "Eof"
  | .unknown => "Unknown"

/-- Every kind once. -/
def all : List TokenKind :=
  [.identifier, .intLiteral, .floatLiteral, .plus, .minus, .star, .slash, .percent, .plusPlus,
   .minusMinus, .assign, .plusAssign, .minusAssign, .starAssign, .slashAssign, .percentAssign,
   .ampAssign, .pipeAssign, .caretAssign, .shlAssign, .shrAssign, .lt, .le, .gt, .ge, .eqEq, .ne,
   .andAnd, .orOr, .not, .amp, .pipe, .caret, .tilde, .shl, .shr, .ifWord, .elseWord, .whileWord,
   .doWord, .intWord, .returnWord, .mainWord, .lParen, .rParen, .lBrace, .rBrace, .lBracket,
   .rBracket, .semicolon, .comma, .question, .encodingMark, .doubleQuote, .singleQuote,
   .literalText, .escapeSequence, .rawString, .endOfInput, .unknown]

/-- The kind with a given name. -/
def ofName? (name : String) : Option TokenKind :=
  all.find? (fun kind => kind.name == name)

end TokenKind

end IntMain
