/-
Levels of the log. Their names are read in any case.
-/
import Mediation.Error

namespace Mediation

/-- How much is logged. -/
inductive LogLevel where
  | off
  | error
  | warn
  | info
  | debug
  | trace
  deriving DecidableEq, Repr

namespace LogLevel

def all : List LogLevel := [.off, .error, .warn, .info, .debug, .trace]

def label : LogLevel → String
  | .off => "OFF"
  | .error => "ERROR"
  | .warn => "WARN"
  | .info => "INFO"
  | .debug => "DEBUG"
  | .trace => "TRACE"

/-- The level with a name, whatever the case of its ASCII letters. -/
def parse (s : String) : Except AuctionError LogLevel :=
  match all.find? fun l => l.label.toList == s.toList.map Char.toUpper with
  | some l => .ok l
  | none => .error (.configuration ("unknown log level '" ++ s ++ "'"))

end LogLevel

/-- Starts logging at a level. A service logs in one way only, so a second start fails. -/
def startLogging (alreadyStarted : Bool) (level : String) : Except AuctionError LogLevel := do
  let l ← LogLevel.parse level
  if alreadyStarted then throw (.configuration "failed to install logger")
  pure l

end Mediation
