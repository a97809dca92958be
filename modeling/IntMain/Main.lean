import IntMain.CommandLine.Perform

/-!
# The command line

Carries out a command line on the operating system and prints what it comes to. Log records
go to the standard error output: warnings and errors, or all of them if the user asks for
more.
-/

namespace IntMain

/-- The fault that one of the operating system's codes stands for. The code may have either
sign. -/
def faultOfCode? (code : UInt32) : Option FileFault :=
  [(2, FileFault.notFound), (20, .notDirectory), (21, .isDirectory), (36, .nameTooLong)].lookup
    code.toInt32.toInt.natAbs

/-- The words for a failed file operation. -/
def fileMessage (fault : IO.Error) : String :=
  let code :=
    match fault with
    | .noFileOrDirectory _ code _ => some code
    | .inappropriateType _ code _ => some code
    | .invalidArgument _ code _ => some code
    | _ => none
  ((code.bind faultOfCode?).map FileFault.message).getD (toString fault)

/-- Read a file as text. -/
def readText (path : String) : IO (Except String String) := do
  try
    let bytes ← IO.FS.readBinFile path
    match String.fromUTF8? bytes with
    | some text => return .ok text
    | none => return .error FileFault.notText.message
  catch fault => return .error (fileMessage fault)

/-- Write a file. -/
def writeText (path text : String) : IO (Except String Unit) := do
  try
    IO.FS.writeFile path text
    return .ok ()
  catch fault => return .error (fileMessage fault)

/-- The operating system. -/
def systemHost : Host IO :=
  { understand := Invocation.ofArguments?, read := readText, write := writeText }

end IntMain

/-- Run the compiler on command-line arguments. -/
def main (arguments : List String) : IO UInt32 := do
  let response ← IntMain.systemHost.run arguments
  for record in response.log do
    IO.eprintln ("[" ++ record.level.name ++ "] " ++ record.message)
  IO.print response.outcome.stdout
  IO.eprint response.outcome.stderr
  return response.outcome.code.toUInt32
