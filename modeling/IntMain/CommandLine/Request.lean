import IntMain.Session.Output

/-!
# Arguments

What a user asks for on the command line. Without a subcommand the output of one stage
is emitted; `build` writes an assembly file, and `check` only looks for faults.

Options may stand before or behind the file. A long option takes its value behind an
equals sign or from the next argument, a short one also directly behind its letter, and
`--` ends the options. A value from the next argument does not start with a hyphen,
unless it is a hyphen alone. Nothing may be given twice, and no path may be empty.
-/

namespace IntMain

/-- What the command line asks for. -/
inductive Request
  | emit (input : String) (destination : Option String) (output : Output) (format : Format)
  | build (input : String) (destination : Option String) (format : Format)
  | check (input : String) (format : Format)
  /-- Nothing is asked for, since there is no input file. -/
  | missingInput
  | version
  | help
  deriving DecidableEq, Repr

/-- A request, and whether every log record is wanted. -/
structure Invocation where
  request : Request
  verbose : Bool := false
  deriving DecidableEq, Repr

/-- The output with a given name. -/
def Output.ofName? (name : String) : Option Output :=
  [("tokens", Output.tokens), ("ast", .tree), ("scopes", .scopes), ("tac", .program),
   ("asm", .assembly)].lookup name

/-- The format with a given name. -/
def Format.ofName? (name : String) : Option Format :=
  [("text", Format.text), ("json", .json)].lookup name

/-- An option. -/
inductive Switch
  | output
  | emit
  | format
  | verbose
  | help
  | version
  deriving DecidableEq, Repr

namespace Switch

/-- Whether an option takes a value. -/
def takesValue : Switch → Bool
  | .output => true
  | .emit => true
  | .format => true
  | .verbose => false
  | .help => false
  | .version => false

/-- The option with a given long name. -/
def ofLong? (name : String) : Option Switch :=
  [("output", Switch.output), ("emit", .emit), ("format", .format), ("verbose", .verbose),
   ("help", .help), ("version", .version)].lookup name

/-- The option with a given letter. -/
def ofLetter? (letter : Char) : Option Switch :=
  [('o', Switch.output), ('v', .verbose), ('h', .help), ('V', .version)].lookup letter

end Switch

/-- Where in the command line an argument stands: at the top or behind a subcommand. -/
inductive Level
  | top
  | build
  | check
  deriving DecidableEq, Repr

namespace Level

/-- Whether an option is known at a level. -/
def knows : Level → Switch → Bool
  | .top, _ => true
  | .build, switch => switch == .output || switch == .help
  | .check, switch => switch == .help

/-- The subcommand with a given name. -/
def ofName? (name : String) : Option Level :=
  [("build", Level.build), ("check", .check)].lookup name

end Level

/-- The values given at one level so far. -/
structure Given where
  input : Option String := none
  output : Option String := none
  emit : Option Output := none
  format : Option Format := none
  verbose : Bool := false
  deriving DecidableEq, Repr

namespace Given

/-- Put a value into a place that has to be free. -/
def fill {α : Type} (place : Option α) (value : Option α) : Option (Option α) :=
  match place, value with
  | none, some value => some (some value)
  | _, _ => none

/-- A path, which is not empty. -/
def path? (text : String) : Option String := if text.isEmpty then none else some text

/-- The values with the input file. -/
def withInput (given : Given) (text : String) : Option Given := do
  return { given with input := ← fill given.input (path? text) }

/-- The values with that of an option which takes one. -/
def withValue (given : Given) (switch : Switch) (text : String) : Option Given := do
  match switch with
  | .output => return { given with output := ← fill given.output (path? text) }
  | .emit => return { given with emit := ← fill given.emit (Output.ofName? text) }
  | .format => return { given with format := ← fill given.format (Format.ofName? text) }
  | _ => none

/-- The values with an option that takes none. -/
def withFlag (given : Given) (switch : Switch) : Option Given :=
  match switch with
  | .verbose => if given.verbose then none else some { given with verbose := true }
  | _ => none

end Given

/-- What one argument does. -/
inductive Reading
  /-- Its values are given. -/
  | given (given : Given)
  /-- The next argument is the value of an option. -/
  | valueOf (given : Given) (switch : Switch)
  /-- The request is answered whatever follows. -/
  | immediate (request : Request)
  deriving DecidableEq, Repr

namespace Reading

/-- Read an option without an attached value. -/
def ofSwitch (level : Level) (given : Given) (switch : Switch) : Option Reading :=
  if !level.knows switch then none
  else
    match switch with
    | .help => some (.immediate .help)
    | .version => some (.immediate .version)
    | _ =>
      if switch.takesValue then some (.valueOf given switch)
      else (given.withFlag switch).map .given

/-- Read letters behind one hyphen. -/
def ofLetters (level : Level) (given : Given) : List Char → Option Reading
  | [] => some (.given given)
  | letter :: rest => do
    let switch ← Switch.ofLetter? letter
    match ← ofSwitch level given switch with
    | .given given => ofLetters level given rest
    | .immediate request => return .immediate request
    | .valueOf given switch =>
      match rest with
      | [] => return .valueOf given switch
      | '=' :: value => return .given (← given.withValue switch (String.ofList value))
      | value => return .given (← given.withValue switch (String.ofList value))

/-- Read what follows two hyphens. -/
def ofLongName (level : Level) (given : Given) (characters : List Char) : Option Reading := do
  let name := characters.takeWhile (· != '=')
  let switch ← Switch.ofLong? (String.ofList name)
  match characters.drop name.length with
  | [] => ofSwitch level given switch
  | _ :: value =>
    if level.knows switch && switch.takesValue then
      return .given (← given.withValue switch (String.ofList value))
    else none

end Reading

/-- The request behind a subcommand. -/
def Level.request? (level : Level) (given : Given) (format : Format) : Option Request :=
  match level with
  | .top => none
  | .build => given.input.map (fun input => .build input given.output format)
  | .check => given.input.map (fun input => .check input format)

/-- The request of a command line without a subcommand. -/
def Given.request (given : Given) : Request :=
  match given.input with
  | none => .missingInput
  | some input =>
    .emit input given.output (given.emit.getD .assembly) (given.format.getD .text)

/-- How the reader takes the next argument. -/
inductive Expecting
  | anything
  /-- The value of an option. -/
  | value (switch : Switch)
  /-- Only files, since the options have ended. -/
  | files
  deriving DecidableEq, Repr

/-- The request for help, on one subcommand at most. -/
def helpOn? (subcommands : List String) : Option Invocation :=
  let known := subcommands.all (["build", "check", "help"].contains ·)
  if known && subcommands.length ≤ 1 then some { request := .help } else none

/-- Read the arguments at a level. `outer` holds the values given before a subcommand. -/
def Level.read (level : Level) (outer given : Given) (expecting : Expecting) :
    List String → Option Invocation
  | [] =>
    match level, expecting with
    | _, .value _ => none
    | .top, _ => some { request := given.request, verbose := given.verbose }
    | level, _ => do
      let request ← level.request? given (outer.format.getD .text)
      return { request, verbose := outer.verbose }
  | argument :: later =>
    match expecting, argument.toList with
    | .files, _ => do level.read outer (← given.withInput argument) .files later
    | .value _, '-' :: _ :: _ => none
    | .value switch, _ => do level.read outer (← given.withValue switch argument) .anything later
    | .anything, ['-', '-'] => level.read outer given .files later
    | .anything, '-' :: '-' :: name => do
      match ← Reading.ofLongName level given name with
      | .given given => level.read outer given .anything later
      | .valueOf given switch => level.read outer given (.value switch) later
      | .immediate request => return { request }
    | .anything, '-' :: letter :: letters => do
      match ← Reading.ofLetters level given (letter :: letters) with
      | .given given => level.read outer given .anything later
      | .valueOf given switch => level.read outer given (.value switch) later
      | .immediate request => return { request }
    | .anything, _ =>
      match level, Level.ofName? argument with
      | .top, some subcommand => subcommand.read given {} .anything later
      | .top, none =>
        if argument = "help" then helpOn? later
        else do level.read outer (← given.withInput argument) .anything later
      | _, _ => do level.read outer (← given.withInput argument) .anything later

/-- The request of a command line, or nothing if the arguments are not understood. -/
def Invocation.ofArguments? (arguments : List String) : Option Invocation :=
  Level.top.read {} {} .anything arguments

end IntMain
