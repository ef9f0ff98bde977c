/-! # Log entries

An interpretation logs what it does. Levels range from warnings to traces of every statement, and
a log is shown up to a level.
-/

namespace Buildfile

inductive LogLevel where
  | warn
  | debug
  | trace
deriving DecidableEq, Repr

namespace LogLevel

/-- Higher ranks say more. -/
def rank : LogLevel → Nat
  | warn => 0
  | debug => 1
  | trace => 2

def text : LogLevel → String
  | warn => "WARN"
  | debug => "DEBUG"
  | trace => "TRACE"

end LogLevel

structure LogEntry where
  level : LogLevel
  message : String
deriving DecidableEq, Repr

/-- The entries that are shown up to a level, of which there are none if no level is given. -/
def shownEntries (greatest : Option LogLevel) (log : List LogEntry) : List LogEntry :=
  match greatest with
  | none => []
  | some greatest => log.filter fun entry => entry.level.rank ≤ greatest.rank

end Buildfile
