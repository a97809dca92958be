import IntMain.Stage
import IntMain.Token.Basic

/-!
# Faults

Why a stage can fail. A fault is a cause; `Fault.message` is the only place that
words it.
-/

namespace IntMain

/-- The cause of a failure. -/
inductive Fault
  /-- A token that cannot stand where it does. -/
  | unexpectedToken (expected found : String) (kind : TokenKind) (position : Position)
  /-- An integer literal without a value that fits a word. -/
  | invalidLiteral (lexeme : String) (position : Position)
  /-- A name that no enclosing scope declares as a variable. -/
  | undeclared (name : String) (position : Position)
  /-- A second declaration of a name in one scope. -/
  | redefinition (name : String) (position : Position)
  /-- Input that a stage has no rule for. -/
  | unsupported (stage : Stage) (detail : String)
  /-- A stage that was run before the stage it builds on. -/
  | noInput (stage : Stage)
  deriving DecidableEq, Repr

/-- What part of the work a fault belongs to. -/
inductive FaultCategory
  | parse
  | semantic
  | internal
  | pipeline
  deriving DecidableEq, Repr

/-- The name of a category in reports. -/
def FaultCategory.name : FaultCategory → String
  | .parse => "Parse"
  | .semantic => "Semantic"
  | .internal => "Internal"
  | .pipeline => "Pipeline"

namespace Fault

/-- The fault of a token that stands where something else was expected. -/
def unexpected (expected : String) (token : Token) : Fault :=
  .unexpectedToken expected token.lexeme token.kind token.position

/-- Where in the source text a fault arose, if it is tied to a place. -/
def position? : Fault → Option Position
  | .unexpectedToken _ _ _ position => some position
  | .invalidLiteral _ position => some position
  | .undeclared _ position => some position
  | .redefinition _ position => some position
  | .unsupported _ _ => none
  | .noInput _ => none

/-- The category of a fault. -/
def category : Fault → FaultCategory
  | .unexpectedToken _ _ _ _ => .parse
  | .invalidLiteral _ _ => .parse
  | .undeclared _ _ => .semantic
  | .redefinition _ _ => .semantic
  | .unsupported _ _ => .internal
  | .noInput _ => .pipeline

/-- The wording of a fault. -/
def message : Fault → String
  | .unexpectedToken expected found kind _ =>
    "Unexpected token: expected " ++ expected ++ ", got '" ++ found ++ "' (" ++ kind.name ++ ")"
  | .invalidLiteral lexeme _ => "Invalid integer literal: " ++ lexeme
  | .undeclared name _ => "Undeclared identifier: " ++ name
  | .redefinition name _ => "Redefinition of '" ++ name ++ "' in the same scope"
  | .unsupported stage detail => "Unsupported operation in " ++ stage.name ++ ": " ++ detail
  | .noInput stage =>
    "No input for " ++ stage.name ++ ": an earlier stage has not completed"

end Fault

end IntMain
