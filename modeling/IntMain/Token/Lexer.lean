import IntMain.Log
import IntMain.Text.Line
import IntMain.Token.Basic
import IntMain.Token.Piece

/-!
# From text to tokens

The tokens of a text are its pieces that are not blank, in order, followed by an
end token on the line below the last one. Every text has tokens; what is odd in it
is reported in the log.
-/

namespace IntMain

/-- The tokens of scanned stretches, and the lexicon they leave. -/
def Lexicon.tokens (lexicon : Lexicon) : List Stretch → List Token × Lexicon
  | [] => ([], lexicon)
  | ⟨position, piece⟩ :: later =>
    let lexeme := String.ofList piece.lexeme
    match piece.role with
    | .blank => lexicon.tokens later
    | .fixed kind =>
      let (tokens, final) := lexicon.tokens later
      (⟨lexeme, position, kind⟩ :: tokens, final)
    | .interned discovered =>
      let (kind, learned) := lexicon.classify lexeme discovered
      let (tokens, final) := learned.tokens later
      (⟨lexeme, position, kind⟩ :: tokens, final)

/-- The warnings of a scan in the order of the text. -/
def Scan.warnings (scan : Scan) : List LogRecord :=
  scan.stretches.filterMap (fun stretch =>
      stretch.piece.warning.map (fun warning =>
        .warning (warning.message stretch.position))) ++
    (scan.unclosed.map (fun opened =>
      LogRecord.warning (Warning.unterminatedLiteral.message opened))).toList

/-- A text's tokens and what there is to say about it. -/
structure Lexed where
  tokens : List Token
  log : List LogRecord
  deriving DecidableEq, Repr

/-- The tokens of a text. -/
def Lexed.ofText (text : String) : Lexed :=
  let scan := Scan.ofText text
  let (lexemes, lexicon) := Lexicon.seeded.tokens scan.stretches
  let tokens := lexemes ++ [Token.endAt ⟨(Text.lines text).length + 1, 1⟩]
  { tokens
    log := scan.warnings ++
      [.debug ("lexed " ++ Text.decimal tokens.length ++ " tokens, " ++
        Text.decimal lexicon.size ++ " distinct lexemes")] }

/-- The tokens of lines of source text. -/
def Lexed.ofLines (lines : List String) : Lexed :=
  Lexed.ofText (Text.unlines lines)

end IntMain
