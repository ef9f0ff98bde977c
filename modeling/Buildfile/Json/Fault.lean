/-! # Faults of JSON texts

A text is refused at the first place where it goes wrong. Up to there it either is no JSON text,
or ends too early, or is well formed and does not have the wanted type.
-/

namespace Buildfile.Json

inductive Fault where
  /-- No JSON text starts this way. -/
  | malformed
  /-- The text ends inside a value. -/
  | truncated
  /-- The value is not of the wanted type. -/
  | mismatched
deriving DecidableEq, Repr

/-- A decoder takes a value off the front of a text and leaves the rest. -/
abbrev Decoder (α : Type) := List Char → Except Fault (α × List Char)

def isBlank (c : Char) : Bool := c = ' ' || c = '\t' || c = '\n' || c = '\r'

def skipBlanks (text : List Char) : List Char := text.dropWhile isBlank

def endOfText (rest : List Char) : Except Fault Unit :=
  if (skipBlanks rest).isEmpty then .ok () else .error .malformed

def takeExact : List Char → List Char → Except Fault (List Char)
  | [], text => .ok text
  | _ :: _, [] => .error .truncated
  | e :: expected, c :: text =>
    if c = e then takeExact expected text else .error .malformed

/-- Takes one character of punctuation, which blank characters may precede. -/
def takeMark (mark : Char) (text : List Char) : Except Fault (List Char) :=
  match skipBlanks text with
  | [] => .error .truncated
  | c :: rest => if c = mark then .ok rest else .error .malformed

end Buildfile.Json
