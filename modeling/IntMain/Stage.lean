/-!
# Stages

The five stages of a compilation in the order in which they run. Each takes the
output of the one before it.
-/

namespace IntMain

/-- A stage of the compilation. -/
inductive Stage
  | lex
  | parse
  | analyze
  | lower
  | assemble
  deriving DecidableEq, Repr

namespace Stage

/-- All stages, first to last. -/
def all : List Stage := [.lex, .parse, .analyze, .lower, .assemble]

/-- A stage's place in the order. -/
def rank : Stage → Nat
  | .lex => 0
  | .parse => 1
  | .analyze => 2
  | .lower => 3
  | .assemble => 4

/-- The name a stage has in messages. -/
def name : Stage → String
  | .lex => "lex"
  | .parse => "parse"
  | .analyze => "semantic"
  | .lower => "lowering"
  | .assemble => "assembly"

/-- The name a stage has in structured reports. -/
def key : Stage → String
  | .lex => "Lex"
  | .parse => "Parse"
  | .analyze => "Analyze"
  | .lower => "Lower"
  | .assemble => "Assemble"

/-- The stage with a given report name. -/
def ofKey? (key : String) : Option Stage :=
  all.find? (fun stage => stage.key == key)

/-- The stages up to and including `stage`, first to last. -/
def through (stage : Stage) : List Stage :=
  all.filter (fun earlier => earlier.rank ≤ stage.rank)

end Stage

end IntMain
