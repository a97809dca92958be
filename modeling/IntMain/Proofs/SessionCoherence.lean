import IntMain.Proofs.NameChanges
import IntMain.Session

/-!
# Sessions hold no stale outputs

A session may be asked for its stages in any order, also for a stage whose input is
missing, may lose outputs and get another text, and any stage may fail. Whatever has
happened, the outputs that it holds belong together: each is what its stage makes of the
output before it. The tokens alone may be out of date, because a text that is set says
nothing to the session; they are those of the text at the last run of the lexer.

The tree is the exception to the rule that a stage makes a new output. Resolution stamps it
in place, and a resolution that fails leaves it stamped in part. So the tree is what the
parser makes of the tokens up to its stamps, and resolution can be run again on it because
it reads none of them.
-/

namespace IntMain

namespace Session

/-- What can be done with a session. -/
inductive Operation
  | run (stage : Stage)
  | runThrough (stage : Stage)
  | runAll
  | reset (stage : Stage)
  | sourceChanged
  | setText (text : String)
  deriving DecidableEq, Repr

/-- The session after an operation. -/
def perform (session : Session) : Operation → Session
  | .run stage => (session.run stage).session
  | .runThrough stage => (session.runThrough stage).session
  | .runAll => session.runAll.session
  | .reset stage => session.reset stage
  | .sourceChanged => session.sourceChanged
  | .setText text => session.setText text

/-- Whether an operation runs the lexer. Stages that are missing start with it. -/
def lexes (session : Session) : Operation → Bool
  | .run stage => stage = .lex
  | .runThrough _ => session.needs .lex
  | .runAll => session.needs .lex
  | _ => false

/-- A session and the text that it had at the last run of the lexer. The session itself does not
know that text once it has got another one. -/
structure History where
  session : Session
  lexed : Option String

namespace History

/-- Nothing has been done. -/
def start (text : String) : History := ⟨Session.ofText text, none⟩

/-- One more operation. -/
def after (history : History) (operation : Operation) : History :=
  ⟨history.session.perform operation,
    if history.session.lexes operation then some history.session.text else history.lexed⟩

end History

/-- The stages that need not run. -/
def made (session : Session) : List Stage :=
  Stage.all.filter (fun stage => !session.needs stage)

/-- The outputs of a session belong together, when the lexer has last seen a text. Each output is
made from the one before it, and the tokens from that text, which need not be the present one. -/
structure Coherent (session : Session) (lexed : Option String) : Prop where
  tokens : ∀ tokens, session.tokens = some tokens →
    ∃ text, lexed = some text ∧ tokens = (Lexed.ofLines (Text.lines text)).tokens
  tree : ∀ tree, session.tree = some tree → ∃ tokens parsed, session.tokens = some tokens ∧
    Parsed.ofTokens tokens = .ok parsed ∧ tree.unstamped = parsed.root.unstamped
  scopes : ∀ table, session.scopes = some table → ∃ tokens parsed,
    session.tokens = some tokens ∧ Parsed.ofTokens tokens = .ok parsed ∧
    parsed.root.resolve.fault = none ∧ session.tree = some parsed.root.resolve.tree ∧
    table = parsed.root.resolve.table
  program : ∀ program, session.program = some program → session.scopes.isSome = true ∧
    ∃ tree lowered, session.tree = some tree ∧ Lowered.ofTree tree = .ok lowered ∧
      program = lowered.program
  assembly : ∀ lines, session.assembly = some lines → ∃ program,
    session.program = some program ∧ (Assembled.ofProgram program).result = .ok lines

/-- What the work of a stage can do to a session. A stage whose input is missing does
nothing, and one that fails makes no output; resolution stamps the tree even so. -/
inductive Executes (session : Session) : Stage → Session → Prop
  | idle {stage : Stage} : Executes session stage session
  | lexed : Executes session .lex
      { session with tokens := some (Lexed.ofLines session.lines).tokens }
  | parsed {tokens : List Token} {parsed : Parsed} (input : session.tokens = some tokens)
      (parses : Parsed.ofTokens tokens = .ok parsed) :
      Executes session .parse { session with tree := some parsed.root }
  | resolved {tree : Node} (input : session.tree = some tree)
      (noFault : tree.resolve.fault = none) :
      Executes session .analyze
        { session with tree := some tree.resolve.tree, scopes := some tree.resolve.table }
  | stamped {tree : Node} (input : session.tree = some tree) :
      Executes session .analyze { session with tree := some tree.resolve.tree }
  | lowered {table : ScopeTable} {tree : Node} {lowered : Lowered}
      (resolved : session.scopes = some table) (input : session.tree = some tree)
      (lowers : Lowered.ofTree tree = .ok lowered) :
      Executes session .lower { session with program := some lowered.program }
  | assembled {program : Program} {lines : List Line} (input : session.program = some program)
      (assembles : (Assembled.ofProgram program).result = .ok lines) :
      Executes session .assemble { session with assembly := some lines }
  | unassembled : Executes session .assemble { session with assembly := none }

/-- The work of a stage does what it can do, whatever the session is. -/
theorem executes (session : Session) (stage : Stage) :
    session.Executes stage (session.execute stage).session := by
  cases stage with
  | lex => exact .lexed
  | parse =>
    simp only [execute]
    split
    case h_1 => exact .idle
    case h_2 tokens input =>
      split
      case h_1 => exact .idle
      case h_2 parsed parses => exact .parsed input parses
  | analyze =>
    simp only [execute]
    split
    case h_1 => exact .idle
    case h_2 tree input =>
      cases fault : tree.resolve.fault with
      | none => exact .resolved input fault
      | some value => exact .stamped input
  | lower =>
    simp only [execute]
    split
    case h_1 table tree isTable input =>
      split
      case h_1 => exact .idle
      case h_2 lowered lowers => exact .lowered isTable input lowers
    case h_2 => exact .idle
  | assemble =>
    simp only [execute]
    split
    case h_1 => exact .idle
    case h_2 program input =>
      cases assembles : (Assembled.ofProgram program).result with
      | error fault => exact .unassembled
      | ok lines => exact .assembled input assembles

namespace Coherent

variable {session : Session} {lexed : Option String}

/-- A session without outputs is coherent, with any text that the lexer may have seen. -/
theorem ofText (text : String) (lexed : Option String) :
    (Session.ofText text).Coherent lexed := by
  constructor <;> intro _ absent <;> cases absent

/-- A session stays coherent when outputs are dropped, because later ones are dropped with them. -/
theorem reset (coherent : session.Coherent lexed) (stage : Stage) :
    (session.reset stage).Coherent lexed := by
  cases stage with
  | lex => exact ofText session.text lexed
  | parse =>
    refine ⟨coherent.tokens, ?_, ?_, ?_, ?_⟩ <;> intro _ absent <;> cases absent
  | analyze =>
    refine ⟨coherent.tokens, coherent.tree, ?_, ?_, ?_⟩ <;> intro _ absent <;> cases absent
  | lower =>
    refine ⟨coherent.tokens, coherent.tree, coherent.scopes, ?_, ?_⟩ <;> intro _ absent <;>
      cases absent
  | assemble =>
    refine ⟨coherent.tokens, coherent.tree, coherent.scopes, coherent.program, ?_⟩
    intro _ absent
    cases absent

/-- A tree that is stamped is what it was up to its stamps, so it may be stamped again. -/
theorem stamped (coherent : session.Coherent lexed) {tree : Node}
    (input : session.tree = some tree) :
    ∃ tokens parsed, session.tokens = some tokens ∧ Parsed.ofTokens tokens = .ok parsed ∧
      tree.unstamped = parsed.root.unstamped ∧
      tree.resolve.tree.unstamped = parsed.root.unstamped := by
  obtain ⟨tokens, parsed, isTokens, parses, same⟩ := coherent.tree tree input
  exact ⟨tokens, parsed, isTokens, parses, same,
    (tree.resolveFrom_unstamped Resolution.start).trans same⟩

/-- A session stays coherent when a stage is run, and the lexer sees the present text. This holds if
the stage fails or has no input as well. -/
theorem run (coherent : session.Coherent lexed) (stage : Stage) :
    (session.run stage).session.Coherent
      (if stage = .lex then some session.text else lexed) := by
  have sameSession : (session.run stage).session =
      ((session.reset stage).execute stage).session := by
    simp only [Session.run]
    split <;> rfl
  have dropped := coherent.reset stage
  have steps := (session.reset stage).executes stage
  rw [sameSession]
  generalize ((session.reset stage).execute stage).session = after at steps
  cases steps with
  | idle =>
    cases stage with
    | lex => exact ofText session.text _
    | _ => exact dropped
  | lexed =>
    constructor
    case tokens =>
      rintro tokens ⟨⟩
      exact ⟨session.text, rfl, rfl⟩
    all_goals
      intro _ absent
      cases absent
  | parsed input parses =>
    constructor
    case tokens => exact dropped.tokens
    case tree =>
      rintro tree ⟨⟩
      exact ⟨_, _, input, parses, rfl⟩
    all_goals
      intro _ absent
      cases absent
  | resolved input noFault =>
    obtain ⟨tokens, parsed, isTokens, parses, same, sameStamped⟩ := dropped.stamped input
    constructor
    case tokens => exact dropped.tokens
    case tree =>
      rintro tree ⟨⟩
      exact ⟨tokens, parsed, isTokens, parses, sameStamped⟩
    case scopes =>
      rintro table ⟨⟩
      obtain ⟨resolved, tables, trees⟩ := Node.resolve_congr same.symm noFault
      exact ⟨tokens, parsed, isTokens, parses, resolved, congrArg some trees.symm, tables.symm⟩
    all_goals
      intro _ absent
      cases absent
  | stamped input =>
    obtain ⟨tokens, parsed, isTokens, parses, -, sameStamped⟩ := dropped.stamped input
    constructor
    case tokens => exact dropped.tokens
    case tree =>
      rintro tree ⟨⟩
      exact ⟨tokens, parsed, isTokens, parses, sameStamped⟩
    all_goals
      intro _ absent
      cases absent
  | lowered isTable input lowers =>
    constructor
    case tokens => exact dropped.tokens
    case tree => exact dropped.tree
    case scopes => exact dropped.scopes
    case program =>
      rintro program ⟨⟩
      exact ⟨Option.isSome_iff_exists.mpr ⟨_, isTable⟩, _, _, input, lowers, rfl⟩
    case assembly =>
      intro _ absent
      cases absent
  | assembled input assembles =>
    refine ⟨dropped.tokens, dropped.tree, dropped.scopes, dropped.program, ?_⟩
    rintro lines ⟨⟩
    exact ⟨_, input, assembles⟩
  | unassembled => exact dropped

/-- A session stays coherent when missing stages are run, if the lexer is not among
them. -/
theorem runMissing (coherent : session.Coherent lexed) (stages : List Stage)
    (noLexer : .lex ∉ stages) : (session.runMissing stages).session.Coherent lexed := by
  induction stages generalizing session with
  | nil => exact coherent
  | cons stage later inductionHypothesis =>
    obtain ⟨notLexer, noLaterLexer⟩ := not_or.mp (List.mem_cons.not.mp noLexer)
    have ran := coherent.run stage
    rw [if_neg (fun isLexer => notLexer isLexer.symm)] at ran
    simp only [Session.runMissing]
    split
    · split
      · exact ran
      · exact inductionHypothesis ran noLaterLexer
    · exact inductionHypothesis coherent noLaterLexer

/-- A session stays coherent when everything up to a stage is run. The lexer comes first and
never fails. -/
theorem runThrough (coherent : session.Coherent lexed) (stage : Stage) :
    (session.runThrough stage).session.Coherent
      (if session.needs .lex then some session.text else lexed) := by
  obtain ⟨later, through, noLexer⟩ : ∃ later, stage.through = .lex :: later ∧ .lex ∉ later := by
    cases stage <;> exact ⟨_, rfl, by decide⟩
  rw [Session.runThrough, through, Session.runMissing]
  by_cases missing : session.needs .lex = true
  · have neverFails : ¬ (session.run .lex).diagnostic.isSome = true := by
      intro fails
      cases fails
    rw [if_pos missing, if_pos missing]
    simp only [if_neg neverFails]
    exact (coherent.run .lex).runMissing later noLexer
  · rw [if_neg missing, if_neg missing]
    exact coherent.runMissing later noLexer

/-- Another text leaves the outputs as they are. They still belong to the text that the lexer has
seen. -/
theorem setText (coherent : session.Coherent lexed) (text : String) :
    (session.setText text).Coherent lexed :=
  ⟨coherent.tokens, coherent.tree, coherent.scopes, coherent.program, coherent.assembly⟩

/-- One operation keeps a session coherent, with the text that the lexer has then seen. -/
theorem after {history : History} (coherent : history.session.Coherent history.lexed)
    (operation : Operation) :
    (history.after operation).session.Coherent (history.after operation).lexed := by
  cases operation with
  | run stage =>
    have ran := coherent.run stage
    simpa only [History.after, perform, lexes, decide_eq_true_eq] using ran
  | runThrough stage => exact coherent.runThrough stage
  | runAll => exact coherent.runThrough .assemble
  | reset stage => exact coherent.reset stage
  | sourceChanged => exact coherent.reset .lex
  | setText text => exact coherent.setText text

/-- Any operations keep a session coherent, one after the other, by induction on the operations. -/
theorem afterAll {history : History} (coherent : history.session.Coherent history.lexed)
    (operations : List Operation) :
    (operations.foldl History.after history).session.Coherent
      (operations.foldl History.after history).lexed := by
  induction operations generalizing history with
  | nil => exact coherent
  | cons operation later inductionHypothesis =>
    exact inductionHypothesis (coherent.after operation)

/-- The stages with outputs are the first ones, since every output needs the one before it. -/
theorem made (coherent : session.Coherent lexed) : session.made <+: Stage.all := by
  have treeNeedsTokens : session.tree.isSome = true → session.tokens.isSome = true := by
    intro present
    obtain ⟨tree, isTree⟩ := Option.isSome_iff_exists.mp present
    obtain ⟨tokens, -, isTokens, -⟩ := coherent.tree tree isTree
    exact Option.isSome_iff_exists.mpr ⟨tokens, isTokens⟩
  have scopesNeedTree : session.scopes.isSome = true → session.tree.isSome = true := by
    intro present
    obtain ⟨table, isTable⟩ := Option.isSome_iff_exists.mp present
    obtain ⟨tokens, parsed, -, -, -, isTree, -⟩ := coherent.scopes table isTable
    exact Option.isSome_iff_exists.mpr ⟨_, isTree⟩
  have programNeedsScopes : session.program.isSome = true → session.scopes.isSome = true := by
    intro present
    obtain ⟨program, isProgram⟩ := Option.isSome_iff_exists.mp present
    exact (coherent.program program isProgram).1
  have assemblyNeedsProgram : session.assembly.isSome = true → session.program.isSome = true := by
    intro present
    obtain ⟨lines, isLines⟩ := Option.isSome_iff_exists.mp present
    obtain ⟨program, isProgram, -⟩ := coherent.assembly lines isLines
    exact Option.isSome_iff_exists.mpr ⟨program, isProgram⟩
  rw [Session.made]
  simp only [Stage.all, List.filter_cons, List.filter_nil, Session.needs, Option.not_isNone]
  revert treeNeedsTokens scopesNeedTree programNeedsScopes assemblyNeedsProgram
  cases session.tokens.isSome <;> cases session.tree.isSome <;> cases session.scopes.isSome <;>
    cases session.program.isSome <;> cases session.assembly.isSome <;> decide

end Coherent

/-- **The outputs of a session belong together, whatever has been done with it.**

Take a session on any text and perform any operations, whether their stages fail or not.
The stages that need not run are the first ones. The tokens are those of the text at the
last run of the lexer. The tree is what the parser makes of the tokens, up to stamps. If
there are scopes, then they and the tree are what resolution makes of the parsed tree.
The program is the lowered tree, and the assembly is that of the program. -/
theorem outputs_belong_together (text : String) (operations : List Operation) :
    let history := operations.foldl History.after (History.start text)
    history.session.made <+: Stage.all ∧ history.session.Coherent history.lexed := by
  have start : (History.start text).session.Coherent (History.start text).lexed :=
    Coherent.ofText text none
  have reached := start.afterAll operations
  exact ⟨reached.made, reached⟩

end Session

end IntMain
