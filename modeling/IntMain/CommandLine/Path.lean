/-!
# Paths

The text of a path and the names it consists of. A slash parts two names; a path that
starts with one leads from the root of the file system, any other from the working
directory. The operating system limits the bytes of a name and of a whole path.
-/

namespace IntMain

/-- The names on the way to a file. -/
abbrev FilePath := List String

namespace FilePath

/-- The most bytes that a name may have. -/
def nameLimit : Nat := 255

/-- The most bytes that the text of a path may have. -/
def textLimit : Nat := 4095

/-- Split the text of a path at its slashes. -/
def names (text : String) : List String := text.splitOn "/"

/-- Whether the text of a path leads from the root. -/
def fromRoot (text : String) : Bool := text.startsWith "/"

/-- Whether a name is longer than the operating system allows. -/
def nameTooLong (name : String) : Bool := decide (nameLimit < name.utf8ByteSize)

/-- Whether the text of a path is longer than the operating system allows. -/
def textTooLong (text : String) : Bool := decide (textLimit < text.utf8ByteSize)

end FilePath

/-- A path with another extension in place of its own, which is what follows the last dot
of the last name. A name that starts with its only dot has none. The old extension is
taken off first: what that leaves of a name such as `..c` is the directory above, which
has no extension. -/
def withExtension (path extension : String) : String :=
  let characters := path.toList
  let name := (characters.reverse.takeWhile (· != '/')).reverse
  let directory := characters.take (characters.length - name.length)
  let afterDot := (name.reverse.takeWhile (· != '.')).reverse
  let stemLength := name.length - afterDot.length - 1
  let stem :=
    if name.contains '.' && 0 < stemLength then name.take stemLength else name
  if stem = ['.'] then String.ofList directory ++ ".."
  else String.ofList (directory ++ stem) ++ "." ++ extension

end IntMain
