import IntMain.CommandLine.Perform
import IntMain.Proofs.RunningAgain
import IntMain.Proofs.TreeShape

/-!
# The entry points of the command line agree

A file can be compiled by naming it, with or without an output path, by `build`, and it can
be checked. Naming it runs the stages that are missing, and `build` runs them one after the
other; on a session in which nothing has run, both do the same. A check stops before
lowering, so it fails exactly if the others fail by then, and with the same diagnostic.

All of this holds on any host: however arguments are understood, and whatever reading and
writing do, as long as the four command lines are understood as they are meant, the file can
be read and the path can be written. `Invocation.ofArguments?` understands them so if the
two paths do not look like options or subcommands.
-/

namespace IntMain

/-!
## Arguments
-/

/-- An argument that is read as a path: it is not empty, and it does not start with a hyphen
unless it is one. -/
def IsPathArgument (argument : String) : Prop :=
  argument ≠ "" ∧ (argument.toList.head? = some '-' → argument = "-")

/-- Whether an argument is a path can be evaluated, as both conditions look at its characters
only. -/
instance (argument : String) : Decidable (IsPathArgument argument) :=
  inferInstanceAs (Decidable (_ ∧ _))

/-- A path is no option, so the reader of arguments takes it for a value wherever one may stand. A
single dash would be taken for a value too, and it is a path here. -/
theorem IsPathArgument.noOption {argument : String} (isPath : IsPathArgument argument)
    (letter : Char) (later : List Char) : argument.toList ≠ '-' :: letter :: later := by
  intro spelled
  have alone : argument = "-" := isPath.2 (by rw [spelled, List.head?_cons])
  rw [alone, show "-".toList = ['-'] by decide] at spelled
  cases spelled

/-- A path fills a place that is free. An empty argument would not, and a place that is filled
already would be refused, which is why both are ruled out. -/
theorem IsPathArgument.fill {argument : String} (isPath : IsPathArgument argument) :
    Given.fill none (Given.path? argument) = some (some argument) := by
  have nonempty : argument.isEmpty = false := by
    simpa [String.isEmpty_iff] using isPath.1
  rw [Given.path?, nonempty]
  rfl

namespace Level

variable {level : Level} {outer given : Given} {argument : String} {later : List String}

/-- A path is the input file, unless it names a subcommand. Below a subcommand no further one is
looked for, so the names of subcommands may be used there. -/
theorem read_input (isPath : IsPathArgument argument)
    (noCommand : level ≠ .top ∨ argument ∉ ["build", "check", "help"])
    (free : given.input = none) :
    level.read outer given .anything (argument :: later) =
      level.read outer { given with input := some argument } .anything later := by
  have filled : given.withInput argument = some { given with input := some argument } := by
    rw [Given.withInput, free, isPath.fill]
    rfl
  rw [Level.read.eq_def]
  dsimp only
  -- A path does not have two characters of which the first is a hyphen.
  split
  case h_1 same => cases same
  case h_2 same _ => cases same
  case h_3 same _ => cases same
  case h_4 spelled => exact absurd spelled (isPath.noOption _ _)
  case h_5 spelled => exact absurd spelled (isPath.noOption _ _)
  case h_6 spelled => exact absurd spelled (isPath.noOption _ _)
  case h_7 =>
    rw [filled]
    cases level with
    | top =>
      obtain ⟨noBuild, noCheck, noHelp⟩ :
          argument ≠ "build" ∧ argument ≠ "check" ∧ argument ≠ "help" := by
        simpa using noCommand
      have noLevel : Level.ofName? argument = none := by
        simp only [Level.ofName?, List.lookup_cons, beq_eq_false_iff_ne.mpr noBuild,
          beq_eq_false_iff_ne.mpr noCheck, List.lookup_nil]
      rw [noLevel, if_neg noHelp]
      rfl
    | build => rfl
    | check => rfl

/-- The path behind the output option is the output path. The level has to know the option, since
the check of a file has no output. -/
theorem read_output (isPath : IsPathArgument argument) (known : level.knows .output = true)
    (free : given.output = none) :
    level.read outer given .anything ("-o" :: argument :: later) =
      level.read outer { given with output := some argument } .anything later := by
  have letters : Reading.ofLetters level given ['o'] = some (.valueOf given .output) := by
    simp [Reading.ofLetters, Switch.ofLetter?, Reading.ofSwitch, known, Switch.takesValue]
  have filled : given.withValue .output argument = some { given with output := some argument } := by
    rw [Given.withValue, free, isPath.fill]
    rfl
  calc level.read outer given .anything ("-o" :: argument :: later)
    _ = level.read outer given (.value .output) (argument :: later) := by
      have spelled : "-o".toList = ['-', 'o'] := by decide
      rw [Level.read.eq_def]
      dsimp only
      rw [spelled]
      split
      case h_1 same => cases same
      case h_2 same _ => cases same
      case h_3 same _ => cases same
      case h_4 others => exact absurd others (by decide)
      case h_5 others => exact absurd others (by simp)
      case h_6 same =>
        cases same
        rw [letters]
        rfl
      case h_7 noLetters => exact absurd rfl (noLetters 'o' [])
    _ = level.read outer { given with output := some argument } .anything later := by
      rw [Level.read.eq_def]
      dsimp only
      split
      case h_1 same => cases same
      case h_2 spelled => exact absurd spelled (isPath.noOption _ _)
      case h_3 same _ =>
        cases same
        rw [filled]
        rfl
      case h_4 same _ => cases same
      case h_5 same _ => cases same
      case h_6 same _ => cases same
      case h_7 same _ _ _ => cases same

end Level

namespace Invocation

variable {input path : String}

/-- A file without an output path asks for assembly on the standard output. A file that is called
like a subcommand would be taken for it. -/
theorem ofArguments?_emit (inputPath : IsPathArgument input)
    (noCommand : input ∉ ["build", "check", "help"]) :
    ofArguments? [input] = some { request := .emit input none .assembly .text } := by
  rw [ofArguments?, Level.read_input inputPath (.inr noCommand) rfl]
  rfl

/-- A file with an output path asks for assembly that is written to that path. The output path may
be called like a subcommand, the file may not. -/
theorem ofArguments?_emitTo (inputPath : IsPathArgument input)
    (noCommand : input ∉ ["build", "check", "help"]) (outputPath : IsPathArgument path) :
    ofArguments? [input, "-o", path] =
      some { request := .emit input (some path) .assembly .text } := by
  rw [ofArguments?, Level.read_input inputPath (.inr noCommand) rfl,
    Level.read_output outputPath rfl rfl]
  rfl

/-- A build of a file with an output path. Behind the name of the subcommand the file may be called
like one. -/
theorem ofArguments?_build (inputPath : IsPathArgument input) (outputPath : IsPathArgument path) :
    ofArguments? ["build", input, "-o", path] =
      some { request := .build input (some path) .text } := by
  change Level.build.read {} {} .anything [input, "-o", path] = _
  rw [Level.read_input inputPath (.inl (by decide)) rfl, Level.read_output outputPath rfl rfl]
  rfl

/-- A check of a file has no output path, and asks for a report only. -/
theorem ofArguments?_check (inputPath : IsPathArgument input) :
    ofArguments? ["check", input] = some { request := .check input .text } := by
  change Level.check.read {} {} .anything [input] = _
  rw [Level.read_input inputPath (.inl (by decide)) rfl]
  rfl

end Invocation

/-!
## Running all stages
-/

namespace Session

/-- The work of a stage makes no output of a later one. An output that is missing before is missing
afterwards, whether the stage succeeds, fails or has no input. -/
theorem Executes.absent {session after : Session} {stage later : Stage}
    (executes : session.Executes stage after) (behind : stage.rank < later.rank)
    (missing : session.needs later = true) : after.needs later = true := by
  cases executes with
  | _ => cases later <;> first | exact missing | exact absurd behind (by decide)

/-- A stage that is run leaves no output of a later one, since a run drops the later outputs before
it starts. So the later stages are missing, whatever the session had. -/
theorem run_absent (session : Session) {stage later : Stage} (behind : stage.rank < later.rank) :
    (session.run stage).session.needs later = true := by
  rw [(session.run_eq stage).1]
  apply ((session.reset stage).executes stage).absent behind
  rw [needs_reset, if_pos (Nat.le_of_lt behind)]

/-- Where nothing has run, running stages in their order is running the missing ones. Each stage is
missing when its turn comes, because the stages before it make no output of it. -/
theorem runEach_eq (session : Session) {stages : List Stage}
    (ordered : stages.Pairwise (fun earlier later => earlier.rank < later.rank))
    (missing : ∀ stage ∈ stages, session.needs stage = true) :
    (session.runEach stages).2 = session.runMissing stages := by
  induction stages generalizing session with
  | nil => rfl
  | cons stage later inductionHypothesis =>
    obtain ⟨behind, laterOrdered⟩ := List.pairwise_cons.mp ordered
    -- A run drops the outputs of the later stages, so they are missing behind it too.
    have rest := inductionHypothesis (session.run stage).session laterOrdered
      (fun other member => session.run_absent (behind other member))
    rw [runEach, runMissing, if_pos (missing stage List.mem_cons_self)]
    dsimp only
    split
    · rfl
    · rw [rest]

/-- Running every stage of a text is running all that are missing. One entry point does the first
and the other the second. -/
theorem runEach_all (text : String) :
    ((Session.ofText text).runEach Stage.all).2 = (Session.ofText text).runAll := by
  apply (Session.ofText text).runEach_eq
  · decide
  · intro stage _
    cases stage <;> rfl

/-- Stages behind a failure are not run, and the failure is what all of them come to. It does not
matter which stages they are. -/
theorem runMissing_append_of_failed {session : Session} {first : List Stage} (second : List Stage)
    (failed : (session.runMissing first).diagnostic.isSome = true) :
    session.runMissing (first ++ second) = session.runMissing first := by
  induction first generalizing session with
  | nil => cases failed
  | cons stage later inductionHypothesis =>
    rw [List.cons_append]
    simp only [runMissing] at failed ⊢
    split
    · rename_i missing
      rw [if_pos missing] at failed
      split
      · rfl
      · rename_i passed
        rw [if_neg passed] at failed
        rw [inductionHypothesis failed]
    · rename_i present
      rw [if_neg present] at failed
      exact inductionHypothesis failed

/-- All stages of a text come to its assembly or to a diagnostic, and never to both. So a command
that compiles has nothing else to answer. -/
theorem runAll_cases (text : String) :
    (∃ listing, (Session.ofText text).runAll.diagnostic = none ∧
      (Session.ofText text).runAll.session.show? .text .assembly = some listing) ∨
    ∃ diagnostic, (Session.ofText text).runAll.diagnostic = some diagnostic := by
  have reached := (Current.ofText text).reached .assemble
  cases reached with
  | finished noDiagnostic made =>
    obtain ⟨lines, isAssembly⟩ := exists_of_present (made .assemble (by decide))
    refine .inl ⟨Line.listing lines, noDiagnostic, ?_⟩
    exact congrArg (Option.map Line.listing) isAssembly
  | stopped below fails diagnostic made absent stamped => exact .inr ⟨_, diagnostic⟩

/-- A text passes the first three stages if it parses and its names resolve, and only then. This
says without a session what a check of the text finds out. -/
theorem passes_analysis_iff (text : String) :
    ((Session.ofText text).runThrough .analyze).diagnostic = none ↔
      ∃ parsed, Parsed.ofTokens (tokensOf text) = .ok parsed ∧
        parsed.root.resolve.fault = none := by
  have reached : Reached text _ ((Session.ofText text).runThrough .analyze) :=
    (Current.ofText text).reached .analyze
  constructor
  · intro noDiagnostic
    cases reached with
    | finished _ made =>
      have current := (Current.ofText text).runMissing Stage.analyze.through
      have sameText := (Session.ofText text).runMissing_text Stage.analyze.through
      obtain ⟨table, isTable⟩ := exists_of_present (made .analyze (by decide))
      obtain ⟨parsed, parses, noFault, -⟩ := current.scopes isTable
      rw [sameText] at parses
      exact ⟨parsed, parses, noFault⟩
    | stopped below fails diagnostic made absent stamped =>
      rw [noDiagnostic] at diagnostic
      cases diagnostic
  · rintro ⟨parsed, parses, noFault⟩
    cases reached with
    | finished noDiagnostic made => exact noDiagnostic
    | stopped below fails diagnostic made absent stamped =>
      cases fails with
      | parse refused =>
        rw [parses] at refused
        cases refused
      | analyze otherParses stopped =>
        rw [parses] at otherParses
        cases otherParses
        rw [noFault] at stopped
        cases stopped
      | lower _ _ _ => exact absurd below (by decide)
      | assemble _ _ _ _ => exact absurd below (by decide)

/-- A text that fails by the third stage fails all stages with the same diagnostic, the same log and
the same outputs. So a check and a compilation report it alike. -/
theorem runAll_of_failed_analysis {text : String} {diagnostic : Diagnostic}
    (failed : ((Session.ofText text).runThrough .analyze).diagnostic = some diagnostic) :
    (Session.ofText text).runAll = (Session.ofText text).runThrough .analyze :=
  runMissing_append_of_failed [.lower, .assemble] (Option.isSome_of_mem failed)

end Session

/-!
## What requests come to
-/

namespace Request

section Prepared

variable (input : String) {source listing : String} {diagnostic : Diagnostic}

/-- Naming a file that fails comes to its diagnostic, whether the output goes to a path or not.
Nothing is printed in front of it. -/
theorem prepareEmit_failed (destination : Option String)
    (failed : (Session.ofText source).runAll.diagnostic = some diagnostic) :
    prepareEmit destination .assembly .text source =
      .ofDiagnostic "" .text diagnostic (Session.ofText source).runAll.log := by
  change ((Session.ofText source).runThrough Output.assembly.stage).diagnostic = _ at failed
  simp only [prepareEmit, failed]
  rfl

/-- Naming a file that is assembled prints the listing, or orders it to be written if a path is
given. Then nothing is printed. -/
theorem prepareEmit_finished (destination : Option String)
    (passed : (Session.ofText source).runAll.diagnostic = none)
    (shown : (Session.ofText source).runAll.session.show? .text .assembly = some listing) :
    prepareEmit destination .assembly .text source =
      match destination with
      | none =>
        { outcome := { code := 0, stdout := listing }, log := (Session.ofText source).runAll.log }
      | some path =>
        { outcome := { code := 0 }, order := some ⟨path, listing, ""⟩
          log := (Session.ofText source).runAll.log } := by
  change ((Session.ofText source).runThrough Output.assembly.stage).diagnostic = _ at passed
  change ((Session.ofText source).runThrough Output.assembly.stage).session.show? _ _ = _ at shown
  simp only [prepareEmit, passed, shown]
  rfl

/-- Building a file that fails comes to the same diagnostic and the same log as naming it. What is
printed in front of the diagnostic is left open. -/
theorem prepareBuild_failed (destination : Option String)
    (failed : (Session.ofText source).runAll.diagnostic = some diagnostic) :
    ∃ stdout, prepareBuild input destination .text source =
      .ofDiagnostic stdout .text diagnostic (Session.ofText source).runAll.log := by
  rw [← Session.runEach_all] at failed ⊢
  simp only [prepareBuild, failed]
  exact ⟨_, rfl⟩

/-- Building a file that is assembled orders the same listing to be written to the path. The texts
that a build prints in front of and behind it are left open. -/
theorem prepareBuild_finished (path : String)
    (passed : (Session.ofText source).runAll.diagnostic = none)
    (shown : (Session.ofText source).runAll.session.show? .text .assembly = some listing) :
    ∃ stdout report, prepareBuild input (some path) .text source =
      { outcome := { code := 0, stdout }, order := some ⟨path, listing, report⟩
        log := (Session.ofText source).runAll.log } := by
  rw [← Session.runEach_all] at passed shown ⊢
  simp only [prepareBuild, passed, shown]
  exact ⟨_, _, rfl⟩

/-- Checking a file that passes exits with 0 and orders nothing to be written. -/
theorem prepareCheck_passed
    (passed : ((Session.ofText source).runThrough .analyze).diagnostic = none) :
    (prepareCheck input .text source).outcome.code = 0 ∧
      (prepareCheck input .text source).order = none := by
  simp only [prepareCheck, passed, and_self]

/-- Checking a file that fails comes to the diagnostic of its first three stages, behind the line
that says what is checked. -/
theorem prepareCheck_failed
    (failed : ((Session.ofText source).runThrough .analyze).diagnostic = some diagnostic) :
    prepareCheck input .text source = .ofDiagnostic (checkBanner input) .text diagnostic
      ((Session.ofText source).runThrough .analyze).log := by
  simp only [prepareCheck, failed]

/-- Naming a file and building it come to the same log, whether or not they succeed. -/
theorem prepare_log (path : String) :
    (prepareEmit (some path) .assembly .text source).log =
      (prepareBuild input (some path) .text source).log := by
  rcases Session.runAll_cases source with ⟨listing, passed, shown⟩ | ⟨diagnostic, failed⟩
  · obtain ⟨stdout, report, built⟩ := prepareBuild_finished input path passed shown
    rw [prepareEmit_finished _ passed shown, built]
  · obtain ⟨stdout, built⟩ := prepareBuild_failed input (some path) failed
    rw [prepareEmit_failed _ failed, built]
    rfl

/-- A check orders nothing to be written, whether or not the file passes. -/
theorem prepareCheck_unordered : (prepareCheck input .text source).order = none := by
  cases result : ((Session.ofText source).runThrough .analyze).diagnostic with
  | none => exact (prepareCheck_passed input result).2
  | some diagnostic =>
    rw [prepareCheck_failed input result]
    rfl

end Prepared

end Request

/-!
## Command lines on a host
-/

section Hosts

variable {World : Type} (host : Host (StateM World)) (world : World)

/-- A command line succeeds. Nothing is printed on the error output, and the world becomes what
it becomes when the text is written to the path. -/
structure Host.Writes (arguments : List String) (path text : String) : Prop where
  code : ((host.run arguments).run world).1.outcome.code = 0
  stderr : ((host.run arguments).run world).1.outcome.stderr = ""
  after : ((host.run arguments).run world).2 = ((host.write path text).run world).2

/-- A command line succeeds and prints a text and nothing else. The world stays as it was. -/
structure Host.Prints (arguments : List String) (text : String) : Prop where
  outcome : ((host.run arguments).run world).1.outcome = { code := 0, stdout := text }
  after : ((host.run arguments).run world).2 = world

/-- A command line fails with a diagnostic. The world stays as it was. -/
structure Host.Reports (arguments : List String) (diagnostic : Diagnostic) : Prop where
  code : ((host.run arguments).run world).1.outcome.code = 1
  stderr : ((host.run arguments).run world).1.outcome.stderr = diagnostic.text ++ "\n"
  after : ((host.run arguments).run world).2 = world

variable {host world} {arguments : List String} {request : Request} {input source : String}
  {draft : Draft}

section Drafted

variable (understood : host.understand arguments = some { request })
  (reads : request.input? = some input)
  (readable : (host.read input).run world = (.ok source, world))
  (prepared : request.prepare (fun _ => .ok source) = draft)
include understood reads readable prepared

/-- A command line completes the draft of the text that the host reads. The host reads once, and
what it reads is all that the draft depends on. -/
theorem Host.run_draft :
    (host.run arguments).run world = (draft.complete host false).run world := by
  have isRead : (host.read input).run world = pure (.ok source, world) := readable
  simp only [Host.run, understood, Invocation.execute, reads, StateT.run_bind]
  rw [isRead, pure_bind, prepared]

/-- A command line whose draft orders nothing prints what the draft says and changes
nothing. -/
theorem Host.run_unordered (unordered : draft.order = none) :
    (host.run arguments).run world =
      ({ outcome := draft.outcome, log := draft.log.filter (shown false) }, world) := by
  rw [Host.run_draft understood reads readable prepared, Draft.complete, unordered]
  rfl

/-- A command line whose draft orders a text has the host write it, and changes nothing else.
What it prints depends on whether the text could be written. -/
theorem Host.run_ordered {order : WriteOrder} (ordered : draft.order = some order) :
    (host.run arguments).run world =
      ({ outcome := draft.finish ((host.write order.path order.text).run world).1
         log := draft.log.filter (shown false) },
        ((host.write order.path order.text).run world).2) := by
  rw [Host.run_draft understood reads readable prepared, Draft.complete, ordered]
  rfl

/-- The log that is shown is that of the draft, whether or not something is ordered and whether or
not it can be written. -/
theorem Host.run_log :
    ((host.run arguments).run world).1.log = draft.log.filter (shown false) := by
  cases isOrder : draft.order with
  | none => rw [Host.run_unordered understood reads readable prepared isOrder]
  | some order => rw [Host.run_ordered understood reads readable prepared isOrder]

/-- What is ordered is written, if the path can be written. The premise on the path is about the
world in which the text was read, since nothing has changed it in between. -/
theorem Host.Writes.of_draft {path text report : String} (succeeds : draft.outcome.code = 0)
    (silent : draft.outcome.stderr = "") (ordered : draft.order = some ⟨path, text, report⟩)
    (writable : ((host.write path text).run world).1 = .ok ()) :
    host.Writes world arguments path text := by
  have ran := Host.run_ordered understood reads readable prepared ordered
  have finished : draft.finish (.ok ()) =
      { draft.outcome with stdout := draft.outcome.stdout ++ report } := by
    simp only [Draft.finish, ordered]
  rw [writable, finished] at ran
  constructor
  · rw [ran]
    exact succeeds
  · rw [ran]
    exact silent
  · rw [ran]

/-- A diagnostic is reported, and nothing is written. The world stays as it was because a draft that
fails orders nothing. -/
theorem Host.Reports.of_draft {stdout : String} {diagnostic : Diagnostic} {log : List LogRecord}
    (failed : draft = .ofDiagnostic stdout .text diagnostic log) :
    host.Reports world arguments diagnostic := by
  subst failed
  have ran := Host.run_unordered understood reads readable prepared rfl
  constructor
  · rw [ran]
    rfl
  · rw [ran]
    rfl
  · rw [ran]

end Drafted

section Compiling

variable (readable : (host.read input).run world = (.ok source, world))
include readable

/-- A file that fails is reported by every command line that compiles it, and with the same
diagnostic. -/
theorem Host.compiling_reports {diagnostic : Diagnostic}
    (failed : (Session.ofText source).runAll.diagnostic = some diagnostic) :
    (∀ destination, host.understand arguments =
        some { request := .emit input destination .assembly .text } →
      host.Reports world arguments diagnostic) ∧
    ∀ destination, host.understand arguments = some { request := .build input destination .text } →
      host.Reports world arguments diagnostic := by
  constructor
  · intro destination understood
    exact .of_draft understood rfl readable rfl (Request.prepareEmit_failed destination failed)
  · intro destination understood
    obtain ⟨stdout, built⟩ := Request.prepareBuild_failed input destination failed
    exact .of_draft understood rfl readable rfl built

/-- A check that fails is reported with the diagnostic of the first three stages. It is the only way
in which a check can fail, if the file can be read. -/
theorem Host.check_reports {diagnostic : Diagnostic}
    (understood : host.understand arguments = some { request := .check input .text })
    (failed : ((Session.ofText source).runThrough .analyze).diagnostic = some diagnostic) :
    host.Reports world arguments diagnostic :=
  .of_draft understood rfl readable rfl (Request.prepareCheck_failed input failed)

/-- A check exits with 0 if and only if the first three stages pass. A check does not look at the
later stages, so it says nothing about what the assembler supports. -/
theorem Host.check_code_iff
    (understood : host.understand arguments = some { request := .check input .text }) :
    ((host.run arguments).run world).1.outcome.code = 0 ↔
      ((Session.ofText source).runThrough .analyze).diagnostic = none := by
  cases result : ((Session.ofText source).runThrough .analyze).diagnostic with
  | none =>
    obtain ⟨succeeds, unordered⟩ := Request.prepareCheck_passed input result
    rw [Host.run_unordered understood rfl readable rfl unordered]
    exact iff_of_true succeeds rfl
  | some diagnostic =>
    rw [(Host.check_reports readable understood result).code]
    exact iff_of_false Nat.one_ne_zero (Option.some_ne_none diagnostic)

end Compiling

end Hosts

/-!
## Files as data
-/

/-- Files that are given as data, as a host. It keeps what has been written to a file. -/
def Files.host (files : Files) : Host (StateM (Option (FilePath × String))) where
  understand := Invocation.ofArguments?
  read path := pure ((files.read path).mapError FileFault.message)
  write path text :=
    match files.writable path with
    | .error fault => pure (.error fault.message)
    | .ok (.file target) => do
      set (some (target, text))
      return .ok ()
    | .ok _ => return .ok ()

namespace Request

/-- To perform a request on files that are given as data is to carry it out on their host. An
order for a device is excepted: what goes there is part of what is printed. -/
theorem perform_eq_execute (request : Request) (verbose : Bool) (files : Files)
    (noDevice : ∀ order kind,
      (request.prepare (fun path => (files.read path).mapError FileFault.message)).order =
        some order → files.writable order.path ≠ .ok (.device kind)) :
    let ran := ((Invocation.mk request verbose).execute files.host).run none
    ran.1.outcome = (request.perform files).outcome ∧ ran.2 = (request.perform files).written := by
  intro ran
  let draft := request.prepare (fun path => (files.read path).mapError FileFault.message)
  have isDraft : ran = (draft.complete files.host verbose).run none := by
    cases request with
    | _ => rfl
  rw [isDraft, Draft.complete, perform]
  cases isOrder : draft.order with
  | none => exact ⟨rfl, rfl⟩
  | some order =>
    dsimp only [Files.host]
    cases isTarget : files.writable order.path with
    | error fault => exact ⟨rfl, rfl⟩
    | ok destination =>
      cases destination with
      | file target => exact ⟨rfl, rfl⟩
      | device kind => exact absurd isTarget (noDevice order kind isOrder)
      | elsewhere => exact ⟨rfl, rfl⟩

end Request

/-- **The entry points agree.** Take any host, a file that it can read and a path that it can
write, and let it understand the four command lines as they are meant. Naming the file with
the output path and building it there both exit with 0 and leave the world in which the same
text has been written to the path, and naming the file alone prints that text and changes
nothing; or all three exit with 1, print the same diagnostic and change nothing. The first
two show the same log. Checking the file changes nothing; it exits with 0 if and only if the
file parses and its names resolve, and reports the diagnostic of the others otherwise. -/
theorem entry_points_agree {World : Type} (host : Host (StateM World)) (world : World)
    (input path source : String)
    (emitUnderstood : host.understand [input, "-o", path] =
      some { request := .emit input (some path) .assembly .text })
    (buildUnderstood : host.understand ["build", input, "-o", path] =
      some { request := .build input (some path) .text })
    (printUnderstood : host.understand [input] =
      some { request := .emit input none .assembly .text })
    (checkUnderstood : host.understand ["check", input] =
      some { request := .check input .text })
    (readable : (host.read input).run world = (.ok source, world))
    (writable : ∀ text, ((host.write path text).run world).1 = .ok ()) :
    ((∃ text, host.Writes world [input, "-o", path] path text ∧
        host.Writes world ["build", input, "-o", path] path text ∧
        host.Prints world [input] text) ∨
      ∃ diagnostic, host.Reports world [input, "-o", path] diagnostic ∧
        host.Reports world ["build", input, "-o", path] diagnostic ∧
        host.Reports world [input] diagnostic) ∧
    ((host.run [input, "-o", path]).run world).1.log =
      ((host.run ["build", input, "-o", path]).run world).1.log ∧
    (((host.run ["check", input]).run world).1.outcome.code = 0 ↔
      ∃ parsed, Parsed.ofTokens (Session.tokensOf source) = .ok parsed ∧
        parsed.root.resolve.fault = none) ∧
    ((host.run ["check", input]).run world).2 = world ∧
    (((host.run ["check", input]).run world).1.outcome.code ≠ 0 →
      ∃ diagnostic, host.Reports world ["check", input] diagnostic ∧
        host.Reports world [input, "-o", path] diagnostic ∧
        host.Reports world ["build", input, "-o", path] diagnostic ∧
        host.Reports world [input] diagnostic) := by
  have allReport : ∀ diagnostic, (Session.ofText source).runAll.diagnostic = some diagnostic →
      host.Reports world [input, "-o", path] diagnostic ∧
        host.Reports world ["build", input, "-o", path] diagnostic ∧
        host.Reports world [input] diagnostic := by
    intro diagnostic failed
    exact ⟨(Host.compiling_reports readable failed).1 _ emitUnderstood,
      (Host.compiling_reports readable failed).2 _ buildUnderstood,
      (Host.compiling_reports readable failed).1 _ printUnderstood⟩
  refine ⟨?_, ?_, ?_, ?_, ?_⟩
  · rcases Session.runAll_cases source with ⟨listing, passed, shown⟩ | ⟨diagnostic, failed⟩
    · obtain ⟨stdout, report, built⟩ := Request.prepareBuild_finished input path passed shown
      have printed := Host.run_unordered printUnderstood rfl readable
        (Request.prepareEmit_finished none passed shown) rfl
      refine .inl ⟨listing, ?_, ?_, ⟨?_, ?_⟩⟩
      · exact .of_draft emitUnderstood rfl readable
          (Request.prepareEmit_finished (some path) passed shown) rfl rfl rfl (writable listing)
      · exact .of_draft buildUnderstood rfl readable built rfl rfl rfl (writable listing)
      · rw [printed]
      · rw [printed]
    · exact .inr ⟨diagnostic, allReport diagnostic failed⟩
  · rw [Host.run_log emitUnderstood rfl readable rfl, Host.run_log buildUnderstood rfl readable rfl]
    exact congrArg _ (Request.prepare_log input path)
  · rw [Host.check_code_iff readable checkUnderstood, Session.passes_analysis_iff]
  · rw [Host.run_unordered checkUnderstood rfl readable rfl (Request.prepareCheck_unordered input)]
  · intro fails
    rw [ne_eq, Host.check_code_iff readable checkUnderstood] at fails
    obtain ⟨diagnostic, failed⟩ := Option.ne_none_iff_exists'.mp fails
    have allFailed : (Session.ofText source).runAll.diagnostic = some diagnostic := by
      rw [Session.runAll_of_failed_analysis failed, failed]
    exact ⟨diagnostic, Host.check_reports readable checkUnderstood failed,
      allReport diagnostic allFailed⟩

/-- A host whose files are a function from paths to texts. Every path can be written, and a
path that has no text cannot be read. -/
def pathHost : Host (StateM (String → Option String)) where
  understand := Invocation.ofArguments?
  read path := fun files => ((files path).elim (.error "no such file") .ok, files)
  write path text := fun files => (.ok (), Function.update files path (some text))

/-- The text of a small program. -/
def smallSum : String := "int main() \x7b int a = 2; return a + 40; \x7d"

/-- The theorem on a small program, with paths that start at the root. All of it is assembled,
so the same text is in the output file after either command line, and nothing else has
changed. -/
theorem entry_points_agree_smallSum :
    let files : String → Option String := Function.update (fun _ => none) "/tmp/f.c" (some smallSum)
    ∃ text, ((pathHost.run ["/tmp/f.c", "-o", "/tmp/f.asm"]).run files).2 =
        Function.update files "/tmp/f.asm" (some text) ∧
      ((pathHost.run ["build", "/tmp/f.c", "-o", "/tmp/f.asm"]).run files).2 =
        Function.update files "/tmp/f.asm" (some text) ∧
      ((pathHost.run ["/tmp/f.c"]).run files).1.outcome = { code := 0, stdout := text } ∧
      ((pathHost.run ["check", "/tmp/f.c"]).run files).1.outcome.code = 0 := by
  intro files
  have readable : (pathHost.read "/tmp/f.c").run files = (.ok smallSum, files) := rfl
  have inputPath : IsPathArgument "/tmp/f.c" := by decide
  have noCommand : "/tmp/f.c" ∉ ["build", "check", "help"] := by decide
  have outputPath : IsPathArgument "/tmp/f.asm" := by decide
  have printUnderstood : pathHost.understand ["/tmp/f.c"] =
      some { request := .emit "/tmp/f.c" none .assembly .text } :=
    Invocation.ofArguments?_emit inputPath noCommand
  obtain ⟨result, -, checked, -, -⟩ :=
    entry_points_agree pathHost files "/tmp/f.c" "/tmp/f.asm" smallSum
      (Invocation.ofArguments?_emitTo inputPath noCommand outputPath :)
      (Invocation.ofArguments?_build inputPath outputPath :) printUnderstood
      (Invocation.ofArguments?_check inputPath :) readable (fun _ => rfl)
  have evaluated : (Parsed.ofTokens (Session.tokensOf smallSum)).toOption.any (fun parsed =>
      parsed.root.resolve.fault.isNone) = true := by
    decide +kernel
  obtain ⟨parsed, parses, resolves⟩ := exists_ok_of_any evaluated
  have checkCode := checked.mpr ⟨parsed, parses, Option.isNone_iff_eq_none.mp resolves⟩
  rcases result with ⟨text, emits, builds, prints⟩ | ⟨diagnostic, -, -, reports⟩
  · exact ⟨text, emits.after, builds.after, prints.outcome, checkCode⟩
  · -- The program is assembled, so it is not reported.
    have printed : (Request.prepareEmit none .assembly .text smallSum).order = none ∧
        (Request.prepareEmit none .assembly .text smallSum).outcome.code = 0 := by
      decide +kernel
    have code := reports.code
    rw [Host.run_unordered printUnderstood rfl readable rfl printed.1] at code
    cases printed.2.symm.trans code

end IntMain
