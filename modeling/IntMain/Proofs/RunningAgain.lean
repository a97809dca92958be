import IntMain.Proofs.Restamping
import IntMain.Proofs.SessionCoherence

/-!
# Running the missing stages is running all of them

A session that is asked to run up to a stage skips the stages that have outputs, and runs
the others on what earlier runs have left: a tree that may have been stamped, wholly or up
to a fault, and scopes that may be those of a longer run. Nothing of this can be seen in
the result. Up to the stage that was asked for, a session that knows of its text ends like
a new session on that text, with the same diagnostic and the same outputs.

The reason is that all of it is a matter of the text alone. `Fails` says, without any
session, which stage a text fails at and with which fault. A session is `Current` if each
output that it holds is what the text makes of it; then running up to a stage comes to the
point that `Fails` says, whatever was there before. So two current sessions on one text
cannot differ.
-/

namespace IntMain

/-- A stage below the next rank is below this one or is the stage itself. A proof about all stages
up to one goes along this. -/
theorem Stage.rank_lt_succ {stage other : Stage} (below : other.rank < stage.rank + 1) :
    other.rank < stage.rank ∨ other = stage := by
  revert below
  cases stage <;> cases other <;> decide

namespace Session

/-!
## What a text comes to
-/

/-- The tokens of a text. -/
def tokensOf (text : String) : List Token := (Lexed.ofLines (Text.lines text)).tokens

/-- The stage that a text fails at, with its fault. The stages before it succeed. -/
inductive Fails (text : String) : Stage → Fault → Prop
  | parse {fault : Fault} (refused : Parsed.ofTokens (tokensOf text) = .error fault) :
      Fails text .parse fault
  | analyze {parsed : Parsed} {fault : Fault}
      (parses : Parsed.ofTokens (tokensOf text) = .ok parsed)
      (stopped : parsed.root.resolve.fault = some fault) : Fails text .analyze fault
  | lower {parsed : Parsed} {fault : Fault}
      (parses : Parsed.ofTokens (tokensOf text) = .ok parsed)
      (resolves : parsed.root.resolve.fault = none)
      (refused : Lowered.ofTree parsed.root.resolve.tree = .error fault) :
      Fails text .lower fault
  | assemble {parsed : Parsed} {lowered : Lowered} {fault : Fault}
      (parses : Parsed.ofTokens (tokensOf text) = .ok parsed)
      (resolves : parsed.root.resolve.fault = none)
      (lowers : Lowered.ofTree parsed.root.resolve.tree = .ok lowered)
      (refused : (Assembled.ofProgram lowered.program).fault = some fault) :
      Fails text .assemble fault

/-- The first stage that a text fails at and its fault, if there is such a stage: the stages are
tried in order, each with the outputs of those before it. -/
def failure? (text : String) : Option (Stage × Fault) :=
  match Parsed.ofTokens (tokensOf text) with
  | .error fault => some (.parse, fault)
  | .ok parsed =>
    match parsed.root.resolve.fault with
    | some fault => some (.analyze, fault)
    | none =>
      match Lowered.ofTree parsed.root.resolve.tree with
      | .error fault => some (.lower, fault)
      | .ok lowered => (Assembled.ofProgram lowered.program).fault.map (.assemble, ·)

/-- A text that fails at a stage has the failure that is found by trying the stages in order. -/
theorem Fails.failure {text : String} {stage : Stage} {fault : Fault}
    (fails : Fails text stage fault) : failure? text = some (stage, fault) := by
  cases fails with
  | parse refused => rw [failure?, refused]
  | analyze parses stopped => simp only [failure?, parses, stopped]
  | lower parses resolves refused => simp only [failure?, parses, resolves, refused]
  | assemble parses resolves lowers refused =>
    simp only [failure?, parses, resolves, lowers, refused, Option.map_some]

/-- A text fails at one stage and with one fault, since trying the stages finds only one. -/
theorem Fails.unique {text : String} {stage other : Stage} {fault otherFault : Fault}
    (fails : Fails text stage fault) (otherFails : Fails text other otherFault) :
    stage = other ∧ fault = otherFault := by
  have same := fails.failure.symm.trans otherFails.failure
  exact Prod.mk.inj (Option.some.inj same)

/-!
## Sessions that know of their text
-/

/-- An output that a stage need not make is there. -/
theorem exists_of_present {Output : Type} {output : Option Output}
    (present : output.isNone = false) : ∃ value, output = some value :=
  Option.isSome_iff_exists.mp (Option.isNone_eq_false_iff.mp present)

/-- Every output of a session is what its present text makes of it. The tree is as the
parser has made it or as resolution leaves it. -/
structure Current (session : Session) : Prop where
  coherent : session.Coherent (some session.text)
  tree : ∀ tree, session.tree = some tree → ∃ parsed,
    Parsed.ofTokens (tokensOf session.text) = .ok parsed ∧
      (tree = parsed.root ∨ tree = parsed.root.resolve.tree)

namespace Current

variable {session : Session}

/-- The tokens are those of the text. They are the only output that is made from the text itself. -/
theorem tokens (current : session.Current) {tokens : List Token}
    (present : session.tokens = some tokens) : tokens = tokensOf session.text := by
  obtain ⟨text, same, isTokens⟩ := current.coherent.tokens tokens present
  cases same
  exact isTokens

/-- The tree resolves as the parsed tree does, whatever has been stamped on it. A tree may have been
resolved before, with or without a fault. -/
theorem resolves (current : session.Current) {tree : Node} (present : session.tree = some tree) :
    ∃ parsed, Parsed.ofTokens (tokensOf session.text) = .ok parsed ∧
      tree.resolve = parsed.root.resolve := by
  obtain ⟨parsed, parses, stamped⟩ := current.tree tree present
  refine ⟨parsed, parses, ?_⟩
  rcases stamped with rfl | rfl
  · rfl
  · exact parsed.root.resolve_again

/-- The tree is the parsed tree up to stamps. -/
theorem unstamped (current : session.Current) {tree : Node} (present : session.tree = some tree) :
    ∃ parsed, Parsed.ofTokens (tokensOf session.text) = .ok parsed ∧
      tree.unstamped = parsed.root.unstamped := by
  obtain ⟨tokens, parsed, isTokens, parses, same⟩ := current.coherent.tree tree present
  rw [current.tokens isTokens] at parses
  exact ⟨parsed, parses, same⟩

/-- Scopes are there once the tree has been resolved without a fault. The tree of the session is
then the resolved one. -/
theorem scopes (current : session.Current) {table : ScopeTable}
    (present : session.scopes = some table) : ∃ parsed,
      Parsed.ofTokens (tokensOf session.text) = .ok parsed ∧
        parsed.root.resolve.fault = none ∧ session.tree = some parsed.root.resolve.tree ∧
        table = parsed.root.resolve.table := by
  obtain ⟨tokens, parsed, isTokens, parses, rest⟩ := current.coherent.scopes table present
  rw [current.tokens isTokens] at parses
  exact ⟨parsed, parses, rest⟩

/-- The program is the lowered tree, and the tree is resolved without a fault. -/
theorem program (current : session.Current) {program : Program}
    (present : session.program = some program) : ∃ parsed lowered,
      Parsed.ofTokens (tokensOf session.text) = .ok parsed ∧
        parsed.root.resolve.fault = none ∧
        Lowered.ofTree parsed.root.resolve.tree = .ok lowered ∧ program = lowered.program := by
  obtain ⟨resolved, tree, lowered, isTree, lowers, isProgram⟩ :=
    current.coherent.program program present
  obtain ⟨table, isTable⟩ := Option.isSome_iff_exists.mp resolved
  obtain ⟨parsed, parses, noFault, isResolved, -⟩ := current.scopes isTable
  rw [isTree] at isResolved
  cases isResolved
  exact ⟨parsed, lowered, parses, noFault, lowers, isProgram⟩

/-- The assembly is that of the program, which is that of the resolved tree. -/
theorem assembly (current : session.Current) {lines : List Line}
    (present : session.assembly = some lines) : ∃ parsed lowered,
      Parsed.ofTokens (tokensOf session.text) = .ok parsed ∧
        parsed.root.resolve.fault = none ∧
        Lowered.ofTree parsed.root.resolve.tree = .ok lowered ∧
        (Assembled.ofProgram lowered.program).result = .ok lines := by
  obtain ⟨program, isProgram, assembles⟩ := current.coherent.assembly lines present
  obtain ⟨parsed, lowered, parses, noFault, lowers, rfl⟩ := current.program isProgram
  exact ⟨parsed, lowered, parses, noFault, lowers, assembles⟩

/-- A new session is current, because it has no outputs. -/
theorem ofText (text : String) : (Session.ofText text).Current := by
  refine ⟨Coherent.ofText text _, ?_⟩
  intro tree absent
  cases absent

/-- A session stays current when outputs are dropped. The tree keeps its stamps if only later
outputs are dropped, which is why stamps are left out of account. -/
theorem reset (current : session.Current) (stage : Stage) : (session.reset stage).Current := by
  refine ⟨current.coherent.reset stage, ?_⟩
  intro tree present
  have kept : session.tree = some tree := by
    simp only [Session.reset] at present
    split at present
    · cases present
    · exact present
  exact current.tree tree kept

end Current

/-!
## What one stage comes to
-/

/-- Running a stage is doing its work without the outputs of that and later stages. The log is all
that a run adds. -/
theorem run_eq (session : Session) (stage : Stage) :
    (session.run stage).session = ((session.reset stage).execute stage).session ∧
      (session.run stage).diagnostic =
        ((session.reset stage).execute stage).fault.map (session.diagnose stage) := by
  simp only [Session.run]
  split
  · rename_i noFault
    simp [noFault]
  · rename_i fault isFault
    simp [isFault]

/-- The work of a stage leaves the text and the outputs of earlier stages. Resolution stamps the
tree, but the tree is there before and after. -/
theorem Executes.kept {session after : Session} {stage : Stage}
    (executes : session.Executes stage after) :
    after.text = session.text ∧ ∀ earlier : Stage, earlier.rank < stage.rank →
      after.needs earlier = session.needs earlier := by
  constructor
  · cases executes <;> rfl
  · intro earlier before
    cases executes with
    -- Resolution puts a tree in the place of a tree.
    | resolved input | stamped input =>
      cases earlier with
      | parse => simp only [needs, input, Option.isNone_some]
      | _ => first | rfl | exact absurd before (by decide)
    | _ => cases earlier <;> first | rfl | exact absurd before (by decide)

/-- Dropping outputs leaves those of earlier stages, and no others. -/
theorem needs_reset (session : Session) (stage other : Stage) :
    (session.reset stage).needs other =
      if stage.rank ≤ other.rank then true else session.needs other := by
  cases other <;> simp only [needs, Session.reset] <;> split <;> rfl

/-- Running a stage leaves the text and the outputs of earlier stages, whether the stage fails or
not. -/
theorem run_kept (session : Session) (stage : Stage) :
    (session.run stage).session.text = session.text ∧
      ∀ earlier : Stage, earlier.rank < stage.rank →
        (session.run stage).session.needs earlier = session.needs earlier := by
  obtain ⟨sameText, kept⟩ := ((session.reset stage).executes stage).kept
  rw [(session.run_eq stage).1]
  refine ⟨sameText, ?_⟩
  intro earlier before
  rw [kept earlier before, needs_reset, if_neg (Nat.not_le_of_lt before)]

/-- What running a stage comes to: it makes its output, or it fails as the text does. A
failed resolution leaves the tree that it has stamped. -/
inductive Comes (session : Session) (stage : Stage) (run : Run) : Prop
  | made (noDiagnostic : run.diagnostic = none) (output : run.session.needs stage = false)
  | failed {fault : Fault} (fails : Fails session.text stage fault)
      (diagnostic : run.diagnostic = some (session.diagnose stage fault))
      (absent : ∀ later : Stage, stage.rank ≤ later.rank → run.session.needs later = true)
      (stamped : stage = .analyze → ∃ parsed,
        Parsed.ofTokens (tokensOf session.text) = .ok parsed ∧
          run.session.tree = some parsed.root.resolve.tree)

/-- A stage other than resolution that fails leaves nothing new. The session is then as if the
outputs from this stage on had been dropped. -/
theorem Comes.of_dropped {session : Session} {stage : Stage} {fault : Fault}
    (fails : Fails session.text stage fault) (notResolution : stage ≠ .analyze)
    (diagnostic : (session.run stage).diagnostic = some (session.diagnose stage fault))
    (after : (session.run stage).session = session.reset stage) :
    session.Comes stage (session.run stage) := by
  refine .failed fails diagnostic ?_ ?_
  · intro later behind
    rw [after, needs_reset, if_pos behind]
  · intro isResolution
    exact absurd isResolution notResolution

namespace Current

variable {session : Session}

/-- Parsing the tokens of the text comes to what the text comes to. The tokens have to be there,
since a stage does not make the outputs that it needs. -/
theorem run_parse (current : session.Current) (lexed : session.needs .lex = false) :
    session.Comes .parse (session.run .parse) := by
  obtain ⟨tokens, isTokens⟩ := exists_of_present lexed
  obtain rfl := current.tokens isTokens
  obtain ⟨after, diagnostic⟩ := session.run_eq .parse
  have input : (session.reset .parse).tokens = some (tokensOf session.text) := isTokens
  simp only [execute, input] at after diagnostic
  cases parses : Parsed.ofTokens (tokensOf session.text) with
  | error fault =>
    simp only [parses] at after diagnostic
    exact .of_dropped (.parse parses) (by decide) diagnostic after
  | ok parsed =>
    simp only [parses] at after diagnostic
    exact .made diagnostic (congrArg (needs · .parse) after)

/-- Resolving the tree of the text, whatever has been stamped on it, comes to what the text comes
to. -/
theorem run_analyze (current : session.Current) (parsed : session.needs .parse = false) :
    session.Comes .analyze (session.run .analyze) := by
  obtain ⟨tree, isTree⟩ := exists_of_present parsed
  obtain ⟨parsed, parses, resolvesAlike⟩ := current.resolves isTree
  obtain ⟨after, diagnostic⟩ := session.run_eq .analyze
  have input : (session.reset .analyze).tree = some tree := isTree
  simp only [execute, input, resolvesAlike] at after diagnostic
  cases fault : parsed.root.resolve.fault with
  | some value =>
    simp only [fault] at after diagnostic
    refine .failed (.analyze parses fault) diagnostic ?_ ?_
    · intro later behind
      rw [after]
      cases later with
      | lex => exact absurd behind (by decide)
      | parse => exact absurd behind (by decide)
      | _ => rfl
    · intro _
      exact ⟨parsed, parses, congrArg Session.tree after⟩
  | none =>
    simp only [fault] at after diagnostic
    exact .made diagnostic (congrArg (needs · .analyze) after)

/-- Lowering the resolved tree of the text comes to what the text comes to. -/
theorem run_lower (current : session.Current) (resolved : session.needs .analyze = false) :
    session.Comes .lower (session.run .lower) := by
  obtain ⟨table, isTable⟩ := exists_of_present resolved
  obtain ⟨parsed, parses, noFault, isTree, -⟩ := current.scopes isTable
  obtain ⟨after, diagnostic⟩ := session.run_eq .lower
  have scopes : (session.reset .lower).scopes = some table := isTable
  have input : (session.reset .lower).tree = some parsed.root.resolve.tree := isTree
  simp only [execute, scopes, input] at after diagnostic
  cases lowers : Lowered.ofTree parsed.root.resolve.tree with
  | error fault =>
    simp only [lowers] at after diagnostic
    exact .of_dropped (.lower parses noFault lowers) (by decide) diagnostic after
  | ok lowered =>
    simp only [lowers] at after diagnostic
    exact .made diagnostic (congrArg (needs · .lower) after)

/-- Assembling the program of the text comes to what the text comes to. -/
theorem run_assemble (current : session.Current) (lowered : session.needs .lower = false) :
    session.Comes .assemble (session.run .assemble) := by
  obtain ⟨program, isProgram⟩ := exists_of_present lowered
  obtain ⟨parsed, lowered, parses, noFault, lowers, rfl⟩ := current.program isProgram
  obtain ⟨after, diagnostic⟩ := session.run_eq .assemble
  have input : (session.reset .assemble).program = some lowered.program := isProgram
  simp only [execute, input, Assembled.result] at after diagnostic
  cases fault : (Assembled.ofProgram lowered.program).fault with
  | some value =>
    simp only [fault] at after diagnostic
    refine .of_dropped (.assemble parses noFault lowers fault) (by decide) diagnostic ?_
    rw [after, ← isProgram]
    rfl
  | none =>
    simp only [fault] at after diagnostic
    exact .made diagnostic (congrArg (needs · .assemble) after)

/-- A stage makes its output or fails as the text does, if the stage before it has its
output. -/
theorem run_comes (current : session.Current) {stage : Stage}
    (ready : ∀ earlier : Stage, earlier.rank < stage.rank → session.needs earlier = false) :
    session.Comes stage (session.run stage) := by
  cases stage with
  | lex => exact .made rfl rfl
  | parse => exact current.run_parse (ready .lex (by decide))
  | analyze => exact current.run_analyze (ready .parse (by decide))
  | lower => exact current.run_lower (ready .analyze (by decide))
  | assemble => exact current.run_assemble (ready .lower (by decide))

/-- A text does not fail at a stage of which a current session has the output. -/
theorem not_fails (current : session.Current) {stage : Stage} {fault : Fault}
    (present : session.needs stage = false) : ¬ Fails session.text stage fault := by
  intro fails
  cases fails with
  | parse refused =>
    obtain ⟨tree, isTree⟩ := exists_of_present present
    obtain ⟨parsed, parses, -⟩ := current.tree tree isTree
    rw [refused] at parses
    cases parses
  | analyze parses stopped =>
    obtain ⟨table, isTable⟩ := exists_of_present present
    obtain ⟨parsed, parsesSo, noFault, -⟩ := current.scopes isTable
    rw [parses] at parsesSo
    cases parsesSo
    rw [stopped] at noFault
    cases noFault
  | lower parses resolves refused =>
    obtain ⟨program, isProgram⟩ := exists_of_present present
    obtain ⟨parsed, lowered, parsesSo, -, lowers, -⟩ := current.program isProgram
    rw [parses] at parsesSo
    cases parsesSo
    rw [refused] at lowers
    cases lowers
  | assemble parses resolves lowers refused =>
    obtain ⟨lines, isLines⟩ := exists_of_present present
    obtain ⟨parsed, lowered, parsesSo, -, lowersSo, assembles⟩ := current.assembly isLines
    rw [parses] at parsesSo
    cases parsesSo
    rw [lowers] at lowersSo
    cases lowersSo
    rw [Assembled.result, refused] at assembles
    cases assembles

/-- A session stays current when a stage is run, also if outputs that the stage needs are
missing. -/
theorem run (current : session.Current) (stage : Stage) : (session.run stage).session.Current := by
  have sameText := (session.run_kept stage).1
  have dropped := current.reset stage
  have coherent := current.coherent.run stage
  rw [ite_self] at coherent
  refine ⟨sameText ▸ coherent, ?_⟩
  intro tree present
  rw [sameText]
  rw [(session.run_eq stage).1] at present
  have executes := (session.reset stage).executes stage
  generalize ((session.reset stage).execute stage).session = after at present executes
  cases executes with
  | parsed input parses =>
    cases present
    rw [dropped.tokens input] at parses
    exact ⟨_, parses, .inl rfl⟩
  | resolved input noFault =>
    cases present
    obtain ⟨parsed, parses, resolvesAlike⟩ := dropped.resolves input
    exact ⟨parsed, parses, .inr (congrArg Resolved.tree resolvesAlike)⟩
  | stamped input =>
    cases present
    obtain ⟨parsed, parses, resolvesAlike⟩ := dropped.resolves input
    exact ⟨parsed, parses, .inr (congrArg Resolved.tree resolvesAlike)⟩
  | _ => exact dropped.tree tree present

/-- A session stays current when missing stages are run, by induction on the stages. -/
theorem runMissing (current : session.Current) (stages : List Stage) :
    (session.runMissing stages).session.Current := by
  induction stages generalizing session with
  | nil => exact current
  | cons stage later inductionHypothesis =>
    simp only [Session.runMissing]
    split
    · split
      · exact current.run stage
      · exact inductionHypothesis (current.run stage)
    · exact inductionHypothesis current

end Current

/-!
## What a run up to a stage comes to
-/

/-- Running one more stage, if it is missing, behind others that have not failed. Behind a failure
nothing is run. -/
theorem runMissing_concat (session : Session) (stages : List Stage) (stage : Stage) :
    let ran := session.runMissing stages
    let next :=
      if ran.diagnostic.isSome = true then ran
      else if ran.session.needs stage then ran.session.run stage else ran
    (session.runMissing (stages ++ [stage])).session = next.session ∧
      (session.runMissing (stages ++ [stage])).diagnostic = next.diagnostic := by
  induction stages generalizing session with
  | nil =>
    intro ran next
    by_cases missing : session.needs stage = true
    · have isNext : next = session.run stage := (if_neg Bool.false_ne_true).trans (if_pos missing)
      simp only [List.nil_append, Session.runMissing, if_pos missing, isNext]
      split
      · exact ⟨rfl, rfl⟩
      · rename_i succeeded
        exact ⟨rfl, (Option.not_isSome_iff_eq_none.mp succeeded).symm⟩
    · have isNext : next = ran := (if_neg Bool.false_ne_true).trans (if_neg missing)
      rw [isNext, List.nil_append, Session.runMissing, if_neg missing]
      exact ⟨rfl, rfl⟩
  | cons first later inductionHypothesis =>
    simp only [List.cons_append, Session.runMissing]
    by_cases missing : session.needs first = true
    · simp only [if_pos missing]
      by_cases failed : (session.run first).diagnostic.isSome = true
      · simp [failed]
      · simp only [if_neg failed]
        have rest := inductionHypothesis (session.run first).session
        simp only at rest ⊢
        rw [rest.1, rest.2]
        split
        · exact ⟨rfl, rfl⟩
        · split <;> exact ⟨rfl, rfl⟩
    · simp only [if_neg missing]
      exact inductionHypothesis session

/-- What a run of the stages below a rank comes to: all have their outputs, or it has
stopped where the text fails, without any output from there on. -/
inductive Reached (text : String) (bound : Nat) (run : Run) : Prop
  | finished (noDiagnostic : run.diagnostic = none)
      (made : ∀ stage : Stage, stage.rank < bound → run.session.needs stage = false)
  | stopped {failing : Stage} {fault : Fault} (below : failing.rank < bound)
      (fails : Fails text failing fault)
      (diagnostic : run.diagnostic = some ((Session.ofText text).diagnose failing fault))
      (made : ∀ stage : Stage, stage.rank < failing.rank → run.session.needs stage = false)
      (absent : ∀ stage : Stage, failing.rank ≤ stage.rank → run.session.needs stage = true)
      (stamped : failing = .analyze → ∃ parsed,
        Parsed.ofTokens (tokensOf text) = .ok parsed ∧
          run.session.tree = some parsed.root.resolve.tree)

/-- The log does not matter to what a run has come to, so runs may differ in it. -/
theorem Reached.congr {text : String} {bound : Nat} {run other : Run}
    (reached : Reached text bound other) (sameSession : run.session = other.session)
    (sameDiagnostic : run.diagnostic = other.diagnostic) : Reached text bound run := by
  cases reached with
  | finished noDiagnostic made =>
    rw [← sameSession] at made
    exact .finished (sameDiagnostic.trans noDiagnostic) made
  | stopped below fails diagnostic made absent stamped =>
    rw [← sameSession] at made absent stamped
    exact .stopped below fails (sameDiagnostic.trans diagnostic) made absent stamped

/-- Missing stages leave the text, since each of them does. -/
theorem runMissing_text (session : Session) (stages : List Stage) :
    (session.runMissing stages).session.text = session.text := by
  induction stages generalizing session with
  | nil => rfl
  | cons stage later inductionHypothesis =>
    simp only [Session.runMissing]
    have sameText := (session.run_kept stage).1
    split
    · split
      · exact sameText
      · exact (inductionHypothesis _).trans sameText
    · exact inductionHypothesis session

namespace Current

variable {session : Session}

/-- One more stage comes to what the text comes to, if the stages before it did. This is the step of
the induction on the stages of a run. -/
theorem reached_concat (current : session.Current) (stages : List Stage) (stage : Stage)
    (reached : Reached session.text stage.rank (session.runMissing stages)) :
    Reached session.text (stage.rank + 1) (session.runMissing (stages ++ [stage])) := by
  obtain ⟨sameSession, sameDiagnostic⟩ := session.runMissing_concat stages stage
  refine .congr ?_ sameSession sameDiagnostic
  have currentThen := current.runMissing stages
  have sameText := session.runMissing_text stages
  generalize session.runMissing stages = ran at reached currentThen sameText
  cases reached with
  | stopped below fails diagnostic made absent stamped =>
    rw [if_pos (by rw [diagnostic]; rfl)]
    exact .stopped (Nat.lt_succ_of_lt below) fails diagnostic made absent stamped
  | finished noDiagnostic made =>
    rw [if_neg (by rw [noDiagnostic]; decide)]
    by_cases missing : ran.session.needs stage = true
    · rw [if_pos missing]
      obtain ⟨-, kept⟩ := ran.session.run_kept stage
      have keptMade : ∀ earlier : Stage, earlier.rank < stage.rank →
          (ran.session.run stage).session.needs earlier = false := by
        intro earlier before
        rw [kept earlier before]
        exact made earlier before
      cases currentThen.run_comes made with
      | made noDiagnosticThen output =>
        refine .finished noDiagnosticThen ?_
        intro earlier below
        rcases Stage.rank_lt_succ below with before | rfl
        · exact keptMade earlier before
        · exact output
      | failed fails diagnostic absent stamped =>
        rw [sameText] at fails stamped
        refine .stopped (Nat.lt_succ_self _) fails ?_ keptMade absent stamped
        rw [diagnostic, ← sameText]
        rfl
    · rw [if_neg missing]
      refine .finished noDiagnostic ?_
      intro earlier below
      rcases Stage.rank_lt_succ below with before | rfl
      · exact made earlier before
      · exact Bool.eq_false_iff.mpr missing

/-- A run up to a stage comes to what the text comes to, whichever outputs were there before. -/
theorem reached (current : session.Current) (stage : Stage) :
    Reached session.text (stage.rank + 1) (session.runThrough stage) := by
  have nothing : Reached session.text 0 (session.runMissing []) :=
    .finished rfl (fun stage below => absurd below (Nat.not_lt_zero _))
  have lexed := current.reached_concat [] .lex nothing
  have parsed := current.reached_concat _ .parse lexed
  have resolved := current.reached_concat _ .analyze parsed
  have lowered := current.reached_concat _ .lower resolved
  have assembled := current.reached_concat _ .assemble lowered
  cases stage with
  | lex => exact lexed
  | parse => exact parsed
  | analyze => exact resolved
  | lower => exact lowered
  | assemble => exact assembled

end Current

/-!
## Current sessions on one text
-/

/-- Two sessions have the same output of a stage, a tree up to its stamps. -/
def SameOutput (session other : Session) : Stage → Prop
  | .lex => session.tokens = other.tokens
  | .parse => session.tree.map Node.unstamped = other.tree.map Node.unstamped
  | .analyze => session.scopes = other.scopes
  | .lower => session.program = other.program
  | .assemble => session.assembly = other.assembly

/-- An output that neither session has is the same. -/
theorem SameOutput.of_absent {session other : Session} {stage : Stage}
    (absent : session.needs stage = true) (otherAbsent : other.needs stage = true) :
    session.SameOutput other stage := by
  cases stage with
  | parse =>
    have noTree := Option.isNone_iff_eq_none.mp absent
    have noOtherTree := Option.isNone_iff_eq_none.mp otherAbsent
    rw [SameOutput, noTree, noOtherTree]
  | _ =>
    have noOutput := Option.isNone_iff_eq_none.mp absent
    have noOtherOutput := Option.isNone_iff_eq_none.mp otherAbsent
    exact noOutput.trans noOtherOutput.symm

namespace Current

variable {session other : Session}

/-- Outputs that two current sessions on one text have are the same, since both are made from the
text. -/
theorem sameOutput (current : session.Current) (otherCurrent : other.Current)
    (sameText : session.text = other.text) {stage : Stage}
    (present : session.needs stage = false) (otherPresent : other.needs stage = false) :
    session.SameOutput other stage := by
  cases stage with
  | lex =>
    obtain ⟨tokens, isTokens⟩ := exists_of_present present
    obtain ⟨otherTokens, isOtherTokens⟩ := exists_of_present otherPresent
    rw [SameOutput, isTokens, isOtherTokens, current.tokens isTokens,
      otherCurrent.tokens isOtherTokens, sameText]
  | parse =>
    obtain ⟨tree, isTree⟩ := exists_of_present present
    obtain ⟨otherTree, isOtherTree⟩ := exists_of_present otherPresent
    obtain ⟨parsed, parses, same⟩ := current.unstamped isTree
    obtain ⟨otherParsed, otherParses, otherSame⟩ := otherCurrent.unstamped isOtherTree
    rw [← sameText, parses] at otherParses
    cases otherParses
    simp only [SameOutput, isTree, isOtherTree, Option.map_some, same, otherSame]
  | analyze =>
    obtain ⟨table, isTable⟩ := exists_of_present present
    obtain ⟨otherTable, isOtherTable⟩ := exists_of_present otherPresent
    obtain ⟨parsed, parses, -, -, rfl⟩ := current.scopes isTable
    obtain ⟨otherParsed, otherParses, -, -, rfl⟩ := otherCurrent.scopes isOtherTable
    rw [← sameText, parses] at otherParses
    cases otherParses
    exact isTable.trans isOtherTable.symm
  | lower =>
    obtain ⟨program, isProgram⟩ := exists_of_present present
    obtain ⟨otherProgram, isOtherProgram⟩ := exists_of_present otherPresent
    obtain ⟨parsed, lowered, parses, -, lowers, rfl⟩ := current.program isProgram
    obtain ⟨otherParsed, otherLowered, otherParses, -, otherLowers, rfl⟩ :=
      otherCurrent.program isOtherProgram
    rw [← sameText, parses] at otherParses
    cases otherParses
    rw [lowers] at otherLowers
    cases otherLowers
    exact isProgram.trans isOtherProgram.symm
  | assemble =>
    obtain ⟨lines, isLines⟩ := exists_of_present present
    obtain ⟨otherLines, isOtherLines⟩ := exists_of_present otherPresent
    obtain ⟨parsed, lowered, parses, -, lowers, assembles⟩ := current.assembly isLines
    obtain ⟨otherParsed, otherLowered, otherParses, -, otherLowers, otherAssembles⟩ :=
      otherCurrent.assembly isOtherLines
    rw [← sameText, parses] at otherParses
    cases otherParses
    rw [lowers] at otherLowers
    cases otherLowers
    rw [assembles] at otherAssembles
    cases otherAssembles
    exact isLines.trans isOtherLines.symm

/-- Behind resolution the tree is the resolved tree of the text, if the text has one. This holds of
a resolution with a fault too, whose stamps are kept. -/
theorem tree_of_reached {text : String} {bound : Nat} {run : Run}
    (current : run.session.Current) (sameText : run.session.text = text)
    (reached : Reached text bound run) (resolution : Stage.analyze.rank < bound) :
    run.session.tree =
      (Parsed.ofTokens (tokensOf text)).toOption.map (fun parsed => parsed.root.resolve.tree) := by
  have withScopes : run.session.needs .analyze = false → run.session.tree =
      (Parsed.ofTokens (tokensOf text)).toOption.map
        (fun parsed => parsed.root.resolve.tree) := by
    intro present
    obtain ⟨table, isTable⟩ := exists_of_present present
    obtain ⟨parsed, parses, -, isTree, -⟩ := current.scopes isTable
    rw [← sameText, parses]
    exact isTree
  cases reached with
  | finished noDiagnostic made => exact withScopes (made .analyze resolution)
  | stopped below fails diagnostic made absent stamped =>
    cases fails with
    | parse refused =>
      have noTree : run.session.tree = none :=
        Option.isNone_iff_eq_none.mp (absent .parse (Nat.le_refl _))
      rw [noTree, refused]
      rfl
    | analyze parses stopped =>
      obtain ⟨parsed, parsesSo, isTree⟩ := stamped rfl
      rw [isTree, parsesSo]
      rfl
    | lower => exact withScopes (made .analyze (by decide))
    | assemble => exact withScopes (made .analyze (by decide))

/-- Two current sessions on one text come to the same, when they are run up to a stage: the same
diagnostic, the same outputs up to there, and from resolution on the same stamps. -/
theorem runThrough_alike (current : session.Current) (otherCurrent : other.Current)
    (sameText : session.text = other.text) (stage : Stage) :
    (session.runThrough stage).diagnostic = (other.runThrough stage).diagnostic ∧
      (∀ made : Stage, made.rank ≤ stage.rank →
        (session.runThrough stage).session.SameOutput (other.runThrough stage).session made) ∧
      (Stage.analyze.rank ≤ stage.rank →
        (session.runThrough stage).session.tree = (other.runThrough stage).session.tree) := by
  have reached := current.reached stage
  have otherReached := otherCurrent.reached stage
  have ranText := session.runMissing_text stage.through
  have otherRanText := other.runMissing_text stage.through
  have ranCurrent : (session.runThrough stage).session.Current := current.runMissing _
  have otherRanCurrent : (other.runThrough stage).session.Current := otherCurrent.runMissing _
  change (session.runThrough stage).session.text = session.text at ranText
  change (other.runThrough stage).session.text = other.text at otherRanText
  rw [← sameText] at otherReached otherRanText
  generalize session.runThrough stage = ran at *
  generalize other.runThrough stage = otherRan at *
  have sameRanText : ran.session.text = otherRan.session.text := ranText.trans otherRanText.symm
  have trees (resolution : Stage.analyze.rank ≤ stage.rank) :
      ran.session.tree = otherRan.session.tree :=
    (tree_of_reached ranCurrent ranText reached (Nat.lt_succ_of_le resolution)).trans
      (tree_of_reached otherRanCurrent otherRanText otherReached
        (Nat.lt_succ_of_le resolution)).symm
  cases reached with
  | finished noDiagnostic made =>
    cases otherReached with
    | finished otherNoDiagnostic otherMade =>
      refine ⟨noDiagnostic.trans otherNoDiagnostic.symm, ?_, trees⟩
      intro earlier upTo
      have below : earlier.rank < stage.rank + 1 := Nat.lt_succ_of_le upTo
      exact ranCurrent.sameOutput otherRanCurrent sameRanText (made earlier below)
        (otherMade earlier below)
    | stopped below fails =>
      exact absurd (ranText.symm ▸ fails) (ranCurrent.not_fails (made _ below))
  | @stopped failing fault below fails diagnostic made absent =>
    cases otherReached with
    | finished otherNoDiagnostic otherMade =>
      exact absurd (otherRanText.symm ▸ fails) (otherRanCurrent.not_fails (otherMade _ below))
    | stopped otherBelow otherFails otherDiagnostic otherMade otherAbsent =>
      obtain ⟨rfl, rfl⟩ := fails.unique otherFails
      refine ⟨diagnostic.trans otherDiagnostic.symm, ?_, trees⟩
      intro earlier upTo
      by_cases before : earlier.rank < failing.rank
      · exact ranCurrent.sameOutput otherRanCurrent sameRanText (made earlier before)
          (otherMade earlier before)
      · exact .of_absent (absent earlier (Nat.le_of_not_lt before))
          (otherAbsent earlier (Nat.le_of_not_lt before))

end Current

/-!
## Operations that announce the text
-/

/-- Whether a session knows of its text behind an operation, if it did or did not before. A
text that is set says nothing to the session. -/
def Operation.known (before : Bool) : Operation → Bool
  | .setText _ => false
  | .sourceChanged => true
  | _ => before

/-- A session that knows of its text behind an operation is current there. When it is told
that the source has changed, it may have been anything before. -/
theorem Current.perform {session : Session} {known : Bool}
    (current : known = true → session.Current) (operation : Operation)
    (told : operation.known known = true) : (session.perform operation).Current := by
  cases operation with
  | run stage => exact (current told).run stage
  | runThrough stage => exact (current told).runMissing _
  | runAll => exact (current told).runMissing _
  | reset stage => exact (current told).reset stage
  | sourceChanged => exact Current.ofText session.text
  | setText text => cases told

/-- A session that knows of its text behind some operations is current there. It may have had a text
that it did not know of in between. -/
theorem Current.performAll {session : Session} {known : Bool} (operations : List Operation)
    (current : known = true → session.Current)
    (told : operations.foldl Operation.known known = true) :
    (operations.foldl Session.perform session).Current := by
  induction operations generalizing session known with
  | nil => exact current told
  | cons operation later inductionHypothesis =>
    exact inductionHypothesis (Current.perform current operation) told

/-- **Running the missing stages is running all of them.**

Take a session on any text, perform any operations, whether their stages fail or not, and
run up to a stage. If the last text that was set has been announced by then, the diagnostic
is that of a new session on this text: none, or the same stage, fault and line. The outputs
of all stages up to the one that was asked for are the same too, and those behind a failure
are missing in both. The tree is the same up to its stamps, and with its stamps if
resolution was asked for.

What was run between a text and its announcement does not matter: the announcement drops
it. -/
theorem runThrough_as_new (text : String) (operations : List Operation) (stage : Stage)
    (told : operations.foldl Operation.known true = true) :
    let session := operations.foldl perform (Session.ofText text)
    let ran := session.runThrough stage
    let new := (Session.ofText session.text).runThrough stage
    ran.diagnostic = new.diagnostic ∧
      (∀ made : Stage, made.rank ≤ stage.rank → ran.session.SameOutput new.session made) ∧
      (Stage.analyze.rank ≤ stage.rank → ran.session.tree = new.session.tree) := by
  have current := Current.performAll operations (fun _ => Current.ofText text) told
  exact current.runThrough_alike (Current.ofText _) rfl stage

/-- A session that has failed, has got another text, and has then been run and reset. -/
def editedSession : List Operation :=
  [.runAll,
    .setText ("int main() \x7b int a = 2; while (a < 9) \x7b int b = a; a += b; \x7d " ++
      "return a; \x7d"),
    .reset .parse, .sourceChanged, .runThrough .lower, .run .analyze, .run .assemble,
    .reset .lower]

/-- The session above has failed and has got another text, and still it runs as a new session on
that text does. -/
theorem runThrough_as_new_edited :
    let session := editedSession.foldl perform (Session.ofText "int main() \x7b b = 1; \x7d")
    let ran := session.runThrough .assemble
    let new := (Session.ofText session.text).runThrough .assemble
    editedSession.foldl Operation.known true = true ∧
      ran.diagnostic = new.diagnostic ∧ ran.session.tree = new.session.tree := by
  obtain ⟨sameDiagnostic, -, sameTree⟩ :=
    runThrough_as_new "int main() \x7b b = 1; \x7d" editedSession .assemble rfl
  exact ⟨rfl, sameDiagnostic, sameTree (by decide)⟩

end Session

end IntMain
