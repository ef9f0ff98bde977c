import Buildfile.Keyword
import Buildfile.SourceRange.Basic
import Buildfile.Text.Blank

/-! # Statements

A statement has a keyword, arguments in one of four shapes, and the text it was written as. Words
are kept as written, with their escapes and line continuations.
-/

namespace Buildfile

inductive Arguments where
  /-- Plain words. -/
  | words (words : List String)
  /-- Words that may together be a JSON array of strings. -/
  | wordsOrArray (words : List String)
  /-- A key and its value, if it is given one. -/
  | assignment (key : String) (value : Option String)
  /-- Keys and values, of which there may be more of one kind than of the other. -/
  | labels (keys values : List String)
deriving DecidableEq, Repr

structure Statement where
  keyword : Keyword
  arguments : Arguments
  text : String
  range : SourceRange := .unknown
deriving DecidableEq, Repr

namespace Statement

def joined (keyword : Keyword) (words : List String) : String :=
  String.intercalate " " (keyword.text :: words)

def ofWords (keyword : Keyword) (words : List String) : Statement where
  keyword
  arguments := if keyword.takesArray then .wordsOrArray words else .words words
  text := joined keyword words

def assignment (keyword : Keyword) (key : String) (value : Option String) : Statement where
  keyword
  arguments := .assignment key value
  text := joined keyword [match value with
    | some value => s!"{key}={value}"
    | none => key]

def env (key value : String) : Statement := assignment .env key (some value)

def arg (key : String) (value : Option String) : Statement := assignment .arg key value

def labels (pairs : List (String × String)) : Statement where
  keyword := .label
  arguments := .labels (pairs.map (·.1)) (pairs.map (·.2))
  text := joined .label (pairs.map fun (key, value) => s!"{key}={value}")

/-- A line whose leading word is no keyword. -/
def ofLine (line : String) : Statement where
  keyword := .other
  arguments := .words (Text.words line)
  text := line

def placed (s : Statement) (range : SourceRange) : Statement := { s with range }

end Statement
end Buildfile
