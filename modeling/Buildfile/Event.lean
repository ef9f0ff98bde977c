import Buildfile.Document
import Buildfile.Log

/-! # Events of a build file

A build file is read as a sequence of events in document order. Each body is enclosed by two
events, and each statement gives its arguments between two others. The base body comes first if it
has any statement, and each other body comes after its header.
-/

namespace Buildfile

inductive Event where
  | header (name : String)
  | enterBody
  | exitBody
  | enterStatement
  | word (word : String)
  /-- The words of a statement, joined by spaces, which may be a JSON array. -/
  | array (text : String)
  | key (key : String)
  | value (value : String)
  | labelKey (key : String)
  | labelValue (value : String)
  | exitStatement (keyword : Keyword) (text : String)
deriving DecidableEq, Repr

/-- Keys and values in turn, and what is left of the longer list. -/
def labelEvents : List String → List String → List Event
  | key :: keys, value :: values => .labelKey key :: .labelValue value :: labelEvents keys values
  | keys, [] => keys.map .labelKey
  | [], values => values.map .labelValue

def Arguments.events : Arguments → List Event
  | words ws => ws.map .word
  | wordsOrArray ws => ws.map .word ++ [.array (String.intercalate " " ws)]
  | assignment key none => [.key key]
  | assignment key (some value) => [.key key, .value value]
  | labels keys values => labelEvents keys values

/-- One step of reading a build file: an event, or a trace of where the next ones come from. -/
inductive Visit where
  | trace (message : String)
  | event (event : Event)
deriving DecidableEq, Repr

def Statement.events (s : Statement) : List Event :=
  .enterStatement :: s.arguments.events ++ [.exitStatement s.keyword s.text]

def Statement.visits (s : Statement) : List Visit :=
  .trace s!"{s.text} at {s.range.text}" :: s.events.map .event

def Body.visits (b : Body) : List Visit :=
  .event .enterBody :: b.statements.flatMap Statement.visits ++ [.event .exitBody]

def Recipe.visits (r : Recipe) : List Visit :=
  .trace s!"target header {r.name} at {r.range.text}" :: .event (.header r.name) :: r.body.visits

def Document.visits (d : Document) : List Visit :=
  (if d.base.isEmpty then [] else d.base.visits) ++ d.recipes.flatMap Recipe.visits

def Visit.event? : Visit → Option Event
  | event e => some e
  | trace _ => none

def Visit.entry? : Visit → Option LogEntry
  | event _ => none
  | trace message => some ⟨.trace, message⟩

def Document.events (d : Document) : List Event := d.visits.filterMap Visit.event?

def Document.traces (d : Document) : List LogEntry := d.visits.filterMap Visit.entry?

end Buildfile
