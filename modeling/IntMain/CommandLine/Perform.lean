import IntMain.CommandLine.Files
import IntMain.CommandLine.Request

/-!
# Carrying out a request

A request reads at most one file and writes at most one, the writing last. So the
effects of a request are data: `Request.prepare` says what is printed and which file is
to be written, given the text of the input file, and `Draft.finish` completes that once
the writing has been tried.

How arguments are understood and how files are read and written is up to a host. The
program runs a command line on the host of the operating system; `Request.perform` does
the same on files that are given as data.
-/

namespace IntMain

/-- A file to be written, and what is printed once it has been. -/
structure WriteOrder where
  path : String
  text : String
  report : String
  deriving DecidableEq, Repr

/-- What a command line prints, and its exit code. -/
structure Outcome where
  code : Nat
  stdout : String := ""
  stderr : String := ""
  deriving DecidableEq, Repr

/-- What a request comes to before its file is written. -/
structure Draft where
  outcome : Outcome
  order : Option WriteOrder := none
  log : List LogRecord := []
  deriving DecidableEq, Repr

/-- The name of the program. -/
def programName : String := "minicc"

/-- The version of the program. -/
def programVersion : String := "0.1.0"

/-- A failure that is not a fault of the source text. -/
def Outcome.failure (stdout message : String) : Outcome :=
  { code := 1, stdout, stderr := "Error: " ++ message ++ "\n" }

/-- The failure to read the input file. -/
def Draft.unreadable (stdout path message : String) : Draft :=
  { outcome := .failure stdout ("could not read " ++ path ++ ": " ++ message) }

/-- The failure of a stage, reported in a format. -/
def Draft.ofDiagnostic (stdout : String) (format : Format) (diagnostic : Diagnostic)
    (log : List LogRecord) : Draft :=
  let report :=
    match format with
    | .text => diagnostic.text
    | .json => diagnostic.json.text
  { outcome := { code := 1, stdout, stderr := report ++ "\n" }, log }

/-- The draft once its file has been written, or not been. -/
def Draft.finish (draft : Draft) (written : Except String Unit) : Outcome :=
  match draft.order, written with
  | none, _ => draft.outcome
  | some order, .ok () => { draft.outcome with stdout := draft.outcome.stdout ++ order.report }
  | some order, .error message =>
    .failure draft.outcome.stdout ("could not write " ++ order.path ++ ": " ++ message)

/-- The draft with the text that its file has taken, where that is a device. -/
def Draft.showing (draft : Draft) (kind : Device) (text : String) : Draft :=
  match kind with
  | .null => draft
  | .standardOutput =>
    { draft with outcome := { draft.outcome with stdout := draft.outcome.stdout ++ text } }
  | .standardError =>
    { draft with outcome := { draft.outcome with stderr := draft.outcome.stderr ++ text } }

/-- Run stages one after the other; also the stages that succeeded. -/
def Session.runEach (session : Session) : List Stage → List Stage × Run
  | [] => ([], { session })
  | stage :: later =>
    let ran := session.run stage
    if ran.diagnostic.isSome then ([], ran)
    else
      let (done, rest) := ran.session.runEach later
      (stage :: done, { rest with log := ran.log ++ rest.log })

namespace Request

/-- Emit the output of one stage. -/
def prepareEmit (destination : Option String) (output : Output) (format : Format)
    (source : String) : Draft :=
  let ran := (Session.ofText source).runThrough output.stage
  match ran.diagnostic, ran.session.show? format output with
  | some diagnostic, _ => .ofDiagnostic "" format diagnostic ran.log
  | none, none =>
    { outcome := .failure "" ("stage " ++ output.stage.name ++ " produced no output")
      log := ran.log }
  | none, some text =>
    match destination with
    | none => { outcome := { code := 0, stdout := text }, log := ran.log }
    | some path => { outcome := { code := 0 }, order := some ⟨path, text, ""⟩, log := ran.log }

/-- The head of what a build prints. -/
def buildBanner (input : String) : String :=
  programName ++ " v" ++ programVersion ++ "\nCompiling: " ++ input ++ "\n"

/-- Write an assembly file. -/
def prepareBuild (input : String) (destination : Option String) (format : Format)
    (source : String) : Draft :=
  let (done, ran) := (Session.ofText source).runEach Stage.all
  let stdout := buildBanner input ++ Text.finished (done.map (fun stage => "  [ok] " ++ stage.name))
  match ran.diagnostic with
  | some diagnostic => .ofDiagnostic stdout format diagnostic ran.log
  | none =>
    let path := destination.getD (withExtension input "asm")
    let text := (ran.session.show? .text .assembly).getD ""
    { outcome := { code := 0, stdout }
      order := some ⟨path, text, "Output: " ++ path ++ "\n"⟩
      log := ran.log }

/-- The head of what a check prints. -/
def checkBanner (input : String) : String := "Checking: " ++ input ++ "\n"

/-- Look for faults. -/
def prepareCheck (input : String) (format : Format) (source : String) : Draft :=
  let ran := (Session.ofText source).runThrough .analyze
  match ran.diagnostic with
  | some diagnostic => .ofDiagnostic (checkBanner input) format diagnostic ran.log
  | none =>
    { outcome := { code := 0, stdout := checkBanner input ++ "No errors found\n" }
      log := ran.log }

/-- How the program is called. -/
def usage : String :=
  "Usage: " ++ programName ++ " <FILE> or " ++ programName ++ " build <FILE>\n"

/-- The file that a request reads. -/
def input? : Request → Option String
  | .emit input _ _ _ => some input
  | .build input _ _ => some input
  | .check input _ => some input
  | _ => none

/-- What a request comes to, where `read` gives the text of a file or says why there is
none. -/
def prepare (read : String → Except String String) : Request → Draft
  | .emit input destination output format =>
    match read input with
    | .error message => .unreadable "" input message
    | .ok source => prepareEmit destination output format source
  | .build input destination format =>
    match read input with
    | .error message => .unreadable (buildBanner input) input message
    | .ok source => prepareBuild input destination format source
  | .check input format =>
    match read input with
    | .error message => .unreadable (checkBanner input) input message
    | .ok source => prepareCheck input format source
  | .missingInput =>
    { outcome := { code := 2, stderr := "Error: No input file specified\n" ++ usage } }
  | .version => { outcome := { code := 0, stdout := programName ++ " " ++ programVersion ++ "\n" } }
  | .help => { outcome := { code := 0, stdout := usage } }

end Request

/-- The outcome of arguments that are not understood. -/
def Outcome.misused : Outcome :=
  { code := 2, stderr := "error: unexpected arguments\n" ++ Request.usage }

/-- What a command line needs of the system that it runs on. -/
structure Host (m : Type → Type) where
  /-- What arguments ask for, or nothing if they are not understood. -/
  understand : List String → Option Invocation
  /-- The text of the file at a path, or the words for why there is none. -/
  read : String → m (Except String String)
  /-- Write a text to a path, or give the words for why that fails. -/
  write : String → String → m (Except String Unit)

/-- What a command line comes to: what it prints, and the log records that it shows. -/
structure Response where
  outcome : Outcome
  log : List LogRecord := []
  deriving DecidableEq, Repr

/-- Whether a log record is shown. -/
def shown (verbose : Bool) (record : LogRecord) : Bool :=
  verbose || record.level == .error || record.level == .warning

/-- Complete a draft on a host: write what is ordered, if anything is. -/
def Draft.complete {m : Type → Type} [Monad m] (host : Host m) (verbose : Bool) (draft : Draft) :
    m Response := do
  let log := draft.log.filter (shown verbose)
  match draft.order with
  | none => return { outcome := draft.outcome, log }
  | some order => return { outcome := draft.finish (← host.write order.path order.text), log }

/-- Carry out an invocation on a host. -/
def Invocation.execute {m : Type → Type} [Monad m] (host : Host m) (invocation : Invocation) :
    m Response :=
  let request := invocation.request
  match request.input? with
  | none => (request.prepare (fun _ => .error "")).complete host invocation.verbose
  | some path => do
    let source ← host.read path
    (request.prepare (fun _ => source)).complete host invocation.verbose

/-- Carry out a command line on a host. -/
def Host.run {m : Type → Type} [Monad m] (host : Host m) (arguments : List String) :
    m Response :=
  match host.understand arguments with
  | some invocation => invocation.execute host
  | none => return { outcome := .misused }

/-- The result of a command line on some files: what it prints, and the file it writes. -/
structure Performed where
  outcome : Outcome
  written : Option (FilePath × String) := none
  deriving DecidableEq, Repr

/-- Carry out a request on files. -/
def Request.perform (request : Request) (files : Files) : Performed :=
  let draft := request.prepare (fun path => (files.read path).mapError FileFault.message)
  match draft.order with
  | none => { outcome := draft.outcome }
  | some order =>
    match files.writable order.path with
    | .error fault => { outcome := draft.finish (.error fault.message) }
    | .ok (.file path) => { outcome := draft.finish (.ok ()), written := some (path, order.text) }
    | .ok (.device kind) => { outcome := (draft.showing kind order.text).finish (.ok ()) }
    | .ok .elsewhere => { outcome := draft.finish (.ok ()) }

/-- The files that a command line has changed: a file that is written as it was is not
among them. -/
def Performed.changes (performed : Performed) (files : Files) : List (FilePath × String) :=
  performed.written.toList.filter (fun file => files.get? file.1 ≠ some (some file.2))

end IntMain
