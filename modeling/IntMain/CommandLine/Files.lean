import IntMain.CommandLine.Path

/-!
# Files

The files that a command line works on: paths below the working directory with their
contents. A directory exists if a file lies below it. A path is followed name by name, as
the operating system does, and so fails in the same ways.

Of what lies outside the working directory only the directories and devices are known
that every system has. What is written elsewhere outside leaves no trace here.
-/

namespace IntMain

/-- Why a file cannot be read or written. -/
inductive FileFault
  | notFound
  | notDirectory
  | isDirectory
  | nameTooLong
  | notText
  deriving DecidableEq, Repr

/-- The operating system's words for a fault. -/
def FileFault.message : FileFault → String
  | .notFound => "No such file or directory (os error 2)"
  | .notDirectory => "Not a directory (os error 20)"
  | .isDirectory => "Is a directory (os error 21)"
  | .nameTooLong => "File name too long (os error 36)"
  | .notText => "stream did not contain valid UTF-8"

/-- A device that takes what is written to it. -/
inductive Device
  /-- Empty, whatever is written to it. -/
  | null
  | standardOutput
  | standardError
  deriving DecidableEq, Repr

/-- The directories that lie in the root of every system, and the root itself. -/
def systemDirectories : List FilePath :=
  [] :: ["bin", "boot", "dev", "etc", "home", "lib", "media", "mnt", "opt", "proc", "root", "run",
    "sbin", "srv", "sys", "tmp", "usr", "var"].map (fun name => [name])

/-- The devices of every system. The standard input of a command line is empty. -/
def systemDevices : List (FilePath × Device) :=
  [(["dev", "null"], .null), (["dev", "stdin"], .null), (["dev", "stdout"], .standardOutput),
   (["dev", "stderr"], .standardError)]

/-- Where the names of a location start. -/
inductive Origin
  /-- The working directory. -/
  | here
  /-- Some directory around the working directory. -/
  | above
  /-- The root of the file system. -/
  | root
  deriving DecidableEq, Repr

/-- A place in the file system, whether or not something is there. -/
structure Location where
  origin : Origin
  path : FilePath
  deriving DecidableEq, Repr

namespace Location

/-- The location of a name in a directory. -/
def child (directory : Location) (name : String) : Location :=
  { directory with path := directory.path ++ [name] }

/-- The directory around a directory; the root lies in itself. -/
def parent (directory : Location) : Location :=
  if directory.path.isEmpty then
    match directory.origin with
    | .here => ⟨.above, []⟩
    | .above => ⟨.above, []⟩
    | .root => ⟨.root, []⟩
  else { directory with path := directory.path.dropLast }

/-- Where the text of a path starts. -/
def start (text : String) : Location :=
  if FilePath.fromRoot text then ⟨.root, []⟩ else ⟨.here, []⟩

end Location

/-- The contents of a file, or nothing if they are not text. -/
abbrev Contents := Option String

/-- What can be at a location. -/
inductive Item
  | directory
  | file (contents : Contents)
  | device (kind : Device)
  | absent
  deriving DecidableEq, Repr

/-- Where a path leads. -/
inductive Target
  /-- A directory that the path names as one, by `.`, `..` or the root. -/
  | directory
  /-- A name in a directory, and whether a slash follows it. -/
  | entry (location : Location) (slashed : Bool)
  deriving DecidableEq, Repr

/-- What is written to. -/
inductive Destination
  | file (path : FilePath)
  | device (kind : Device)
  /-- A file that is none of those the command line works on. -/
  | elsewhere
  deriving DecidableEq, Repr

/-- Files by their paths, in any order. -/
abbrev Files := List (FilePath × Contents)

namespace Files

/-- Whether a path leads to a directory. -/
def isDirectory (files : Files) (path : FilePath) : Bool :=
  path.isEmpty || files.any (fun file => path.isPrefixOf file.1 && path.length < file.1.length)

/-- The contents of a file. -/
def get? (files : Files) (path : FilePath) : Option Contents := files.lookup path

/-- What is at a location. -/
def item (files : Files) (location : Location) : Item :=
  match location.origin with
  | .here =>
    if files.isDirectory location.path then .directory
    else ((files.get? location.path).map Item.file).getD .absent
  | .above => if location.path.isEmpty then .directory else .absent
  | .root =>
    if systemDirectories.contains location.path then .directory
    else ((systemDevices.lookup location.path).map Item.device).getD .absent

/-- What is at a location whose last name may be too long. -/
def lookUp (files : Files) (location : Location) : Except FileFault Item :=
  if location.path.getLast?.any FilePath.nameTooLong then .error .nameTooLong
  else .ok (files.item location)

/-- Follow the names of a path from a directory. Empty names and `.` stay there, and `..`
goes back. The last name is not looked up; any other has to be a directory. -/
def follow (files : Files) (directory : Location) : List String → Except FileFault Target
  | [] => .ok .directory
  | name :: later =>
    if name = "" ∨ name = "." then follow files directory later
    else if name = ".." then follow files directory.parent later
    else
      let location := directory.child name
      if later.all (· = "") then .ok (.entry location !later.isEmpty)
      else
        match files.lookUp location with
        | .error fault => .error fault
        | .ok .directory => follow files location later
        | .ok .absent => .error .notFound
        | .ok _ => .error .notDirectory

/-- Where the text of a path leads. -/
def locate (files : Files) (text : String) : Except FileFault Target :=
  if FilePath.textTooLong text then .error .nameTooLong
  else files.follow (Location.start text) (FilePath.names text)

/-- The text of what is read at a location; only a directory may have a slash behind its
name. -/
def readItem (slashed : Bool) : Item → Except FileFault String
  | .directory => .error .isDirectory
  | .absent => .error .notFound
  | .device _ => if slashed then .error .notDirectory else .ok ""
  | .file contents =>
    match slashed, contents with
    | true, _ => .error .notDirectory
    | false, none => .error .notText
    | false, some text => .ok text

/-- Read a file. -/
def read (files : Files) (text : String) : Except FileFault String := do
  match ← files.locate text with
  | .directory => .error .isDirectory
  | .entry location slashed => readItem slashed (← files.lookUp location)

/-- What a write to a location that is no directory reaches. -/
def destination (location : Location) : Item → Destination
  | .device kind => .device kind
  | _ => if location.origin = .here then .file location.path else .elsewhere

/-- What is written to by a path. A slash behind the last name is refused before that name
is looked up. -/
def writable (files : Files) (text : String) : Except FileFault Destination := do
  match ← files.locate text with
  | .directory => .error .isDirectory
  | .entry _ true => .error .isDirectory
  | .entry location false =>
    match ← files.lookUp location with
    | .directory => .error .isDirectory
    | item => return destination location item

end Files

end IntMain
