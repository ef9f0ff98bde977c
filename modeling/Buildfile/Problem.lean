import Buildfile.Text.Identifier
import Buildfile.Text.Quoted

/-! # Problems

A problem ends an interpretation. Each one belongs to a category and has a message that names the
statement it is about. A builder's failure keeps the chain of its own causes.
-/

namespace Buildfile

inductive Category where
  | option
  | arity
  | reference
  | state
  | unsupported
  | obsolete
  | notFound
  | builder
deriving DecidableEq, Repr

namespace Category

def text : Category → String
  | option => "option"
  | arity => "arity"
  | reference => "reference"
  | state => "state"
  | unsupported => "unsupported"
  | obsolete => "obsolete"
  | notFound => "not_found"
  | builder => "builder"

def name : Category → String
  | option => "Option"
  | arity => "Arity"
  | reference => "Reference"
  | state => "State"
  | unsupported => "Unsupported"
  | obsolete => "Obsolete"
  | notFound => "NotFound"
  | builder => "Builder"

def tag (c : Category) : String := Text.snakeCase c.name

def all : List Category :=
  [option, arity, reference, state, unsupported, obsolete, notFound, builder]

def ofTag? (s : String) : Option Category := all.find? (·.tag == s)

end Category

/-- A builder's report of what went wrong, with its causes from the nearest to the first. -/
structure Failure where
  message : String
  causes : List String := []
deriving DecidableEq, Repr

inductive Problem where
  /-- The options of a command cannot be read. -/
  | options (command : String) (words : List String) (reason : String)
  /-- A value is malformed. -/
  | value (message : String)
  /-- There are too many or too few arguments, or they have the wrong shape. -/
  | arity (message : String)
  /-- Arguments exclude each other. -/
  | conflict (message : String)
  /-- A statement stands where it must not stand. -/
  | state (message : String)
  /-- Nothing implements the request. -/
  | unsupported (message : String)
  /-- A newer form has taken the place of a command. -/
  | obsolete (command replacement : String)
  /-- No recipe makes the requested target. -/
  | notFound (target : String)
  /-- The builder failed. -/
  | builder (context : String) (failure : Failure)
deriving DecidableEq, Repr

namespace Problem

def category : Problem → Category
  | options .. | value _ => .option
  | arity _ => .arity
  | conflict _ => .reference
  | state _ => .state
  | unsupported _ => .unsupported
  | obsolete .. => .obsolete
  | notFound _ => .notFound
  | builder .. => .builder

def message : Problem → String
  | options command words reason => s!"invalid {command} arguments {Text.quoteList words}: {reason}"
  | value message | arity message | conflict message | state message | unsupported message =>
    message
  | obsolete command replacement => s!"{command} is obsolete. Please use {replacement}"
  | notFound target => s!"target {target} not defined"
  | builder context failure => s!"{context}: {failure.message}"

/-- The messages of what caused the problem, the nearest first. -/
def sources : Problem → List String
  | builder _ failure => failure.message :: failure.causes
  | _ => []

end Problem
end Buildfile
