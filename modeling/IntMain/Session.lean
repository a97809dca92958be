import IntMain.Assembly.Selection
import IntMain.Diagnostic
import IntMain.Quad.Lowering
import IntMain.Scope.Resolution
import IntMain.Token.Lexer
import IntMain.Tree.Parser

/-!
# Sessions

A session holds a source text and the output of every stage that has run on it. Running
or resetting a stage throws away what the later stages have made. The tree is stamped in
place when names are resolved, also up to a fault.

Setting another text keeps all outputs: they are stale until the session is told that the
source changed.
-/

namespace IntMain

/-- A source text and the outputs of the stages. -/
structure Session where
  text : String
  tokens : Option (List Token) := none
  tree : Option Node := none
  scopes : Option ScopeTable := none
  program : Option Program := none
  assembly : Option (List Line) := none

/-- A session after running something: the diagnostic if that failed, and the log. -/
structure Run where
  session : Session
  diagnostic : Option Diagnostic := none
  log : List LogRecord := []

/-- A session after the work of one stage. -/
structure StageRun where
  session : Session
  fault : Option Fault := none
  log : List LogRecord := []

namespace Session

/-- A session in which nothing has run. -/
def ofText (text : String) : Session := { text }

/-- The lines of the source text. -/
def lines (session : Session) : List String := Text.lines session.text

/-- A line of the source text by its number, which counts from one. -/
def lineText? (session : Session) (line : Nat) : Option String :=
  if line = 0 then none else session.lines[line - 1]?

/-- Whether a stage has no output. -/
def needs (session : Session) : Stage → Bool
  | .lex => session.tokens.isNone
  | .parse => session.tree.isNone
  | .analyze => session.scopes.isNone
  | .lower => session.program.isNone
  | .assemble => session.assembly.isNone

/-- Drop the output of a stage and of all later ones. -/
def reset (session : Session) (stage : Stage) : Session :=
  let keep {α : Type} (made : Stage) (output : Option α) : Option α :=
    if stage.rank ≤ made.rank then none else output
  { session with
    tokens := keep .lex session.tokens
    tree := keep .parse session.tree
    scopes := keep .analyze session.scopes
    program := keep .lower session.program
    assembly := keep .assemble session.assembly }

/-- Give the session another source text. -/
def setText (session : Session) (text : String) : Session := { session with text }

/-- The source text has changed: every output is stale. -/
def sourceChanged (session : Session) : Session := session.reset .lex

/-- Do the work of a stage on the output of the one before it. -/
def execute (session : Session) (stage : Stage) : StageRun :=
  let missing : StageRun := { session, fault := some (.noInput stage) }
  match stage with
  | .lex =>
    let lexed := Lexed.ofLines session.lines
    { session := { session with tokens := some lexed.tokens }
      log := lexed.log ++ [.info ("lexed " ++ Text.decimal lexed.tokens.length ++ " tokens")] }
  | .parse =>
    match session.tokens with
    | none => missing
    | some tokens =>
      match Parsed.ofTokens tokens with
      | .error fault => { session, fault := some fault }
      | .ok parsed => { session := { session with tree := some parsed.root }, log := parsed.log }
  | .analyze =>
    match session.tree with
    | none => missing
    | some tree =>
      let resolved := tree.resolve
      let scopes := if resolved.fault.isSome then session.scopes else some resolved.table
      { session := { session with tree := some resolved.tree, scopes }
        fault := resolved.fault
        log := resolved.log }
  | .lower =>
    match session.scopes, session.tree with
    | some _, some tree =>
      match Lowered.ofTree tree with
      | .error fault => { session, fault := some fault }
      | .ok lowered =>
        { session := { session with program := some lowered.program }, log := lowered.log }
    | _, _ => missing
  | .assemble =>
    match session.program with
    | none => missing
    | some program =>
      let assembled := Assembled.ofProgram program
      let started :=
        LogRecord.info ("assembling with " ++ backendName ++ " backend for " ++ targetName)
      { session := { session with assembly := assembled.result.toOption }
        fault := assembled.fault
        log := started :: assembled.log }

/-- The diagnostic of a stage that failed. -/
def diagnose (session : Session) (stage : Stage) (fault : Fault) : Diagnostic :=
  ⟨stage, fault, fault.position?.bind (fun position => session.lineText? position.line)⟩

/-- Run one stage. -/
def run (session : Session) (stage : Stage) : Run :=
  let ran := (session.reset stage).execute stage
  match ran.fault with
  | none =>
    { session := ran.session, log := ran.log ++ [.info (stage.name ++ " stage complete")] }
  | some fault =>
    let diagnostic := session.diagnose stage fault
    { session := ran.session
      diagnostic := some diagnostic
      log := ran.log ++ [⟨.error, diagnostic.text⟩] }

/-- Run those of some stages that have no output, up to the first that fails. -/
def runMissing (session : Session) : List Stage → Run
  | [] => { session }
  | stage :: later =>
    if session.needs stage then
      let ran := session.run stage
      if ran.diagnostic.isSome then ran
      else
        let rest := ran.session.runMissing later
        { rest with log := ran.log ++ rest.log }
    else session.runMissing later

/-- Run every stage up to and including `stage` that has no output. -/
def runThrough (session : Session) (stage : Stage) : Run := session.runMissing stage.through

/-- Run every stage that has no output. -/
def runAll (session : Session) : Run := session.runThrough .assemble

end Session

end IntMain
