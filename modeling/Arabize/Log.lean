import Arabize.Text.Basic

/-! # The log of a run -/

namespace Arabize

inductive LogLevel
  | info
  | warning
  | error
  deriving DecidableEq, Repr

def LogLevel.name : LogLevel → Text
  | .info => "INFO"
  | .warning => "WARNING"
  | .error => "ERROR"

structure LogEntry where
  level : LogLevel
  text : Text
  deriving DecidableEq, Repr

/-- The entries of a log in the order in which they were made. -/
abbrev Log := List LogEntry

end Arabize
