import IntMain.Export
import IntMain.Quad.Printer
import IntMain.Scope.Printer
import IntMain.Session

/-!
# Outputs of a session

The output of each stage as text for readers or as structured text for programs.
-/

namespace IntMain

/-- What a session can show. -/
inductive Output
  | tokens
  | tree
  | scopes
  | program
  | assembly
  deriving DecidableEq, Repr

/-- The stage that makes an output. -/
def Output.stage : Output → Stage
  | .tokens => .lex
  | .tree => .parse
  | .scopes => .analyze
  | .program => .lower
  | .assembly => .assemble

/-- How an output is written. -/
inductive Format
  | text
  | json
  deriving DecidableEq, Repr

/-- An output of a session, if the stage that makes it has run. -/
def Session.show? (session : Session) (format : Format) : Output → Option String
  | .tokens => session.tokens.map (fun tokens =>
    match format with
    | .text => Text.finished (tokens.map Token.text)
    | .json => (Token.streamJson tokens).text)
  | .tree => session.tree.map (fun tree =>
    match format with
    | .text => tree.listing
    | .json => tree.json.text)
  | .scopes => session.scopes.map (fun table =>
    match format with
    | .text => table.listing
    | .json => table.json.text)
  | .program => session.program.map (fun program =>
    match format with
    | .text => program.listing
    | .json => program.json.text)
  | .assembly => session.assembly.map (fun lines =>
    match format with
    | .text => Line.listing lines
    | .json => (Line.listingJson lines).text)

end IntMain
