/-!
# Log records

What a stage has to say besides its result. A stage returns its records in the
order in which they arose.
-/

namespace IntMain

/-- How much a log record matters. -/
inductive LogLevel
  | error
  | warning
  | info
  | debug
  deriving DecidableEq, Repr

/-- The name a level is written with. -/
def LogLevel.name : LogLevel → String
  | .error => "ERROR"
  | .warning => "WARN"
  | .info => "INFO"
  | .debug => "DEBUG"

/-- A message and its level. -/
structure LogRecord where
  level : LogLevel
  message : String
  deriving DecidableEq, Repr

/-- A record that reports something odd in the input. -/
def LogRecord.warning (message : String) : LogRecord := ⟨.warning, message⟩

/-- A record that reports what a stage has finished. -/
def LogRecord.info (message : String) : LogRecord := ⟨.info, message⟩

/-- A record about a stage's inner steps. -/
def LogRecord.debug (message : String) : LogRecord := ⟨.debug, message⟩

end IntMain
