import Buildfile.Json.Array

/-! # JSON values that are skipped

A value that nobody asked for has to be well formed, but its strings may hold unpaired units and
its numbers may be out of range.
-/

namespace Buildfile.Json

/-- The text after the opening quote of the next key of an object, or nothing before the closing
brace. -/
def nextKey (first : Bool) (text : List Char) : Except Fault (Option (List Char)) :=
  match skipBlanks text with
  | [] => .error .truncated
  | c :: rest =>
    if c = '\x7d' then .ok none
    else if first then if c = '"' then .ok (some rest) else .error .malformed
    else if c = ',' then
      match skipBlanks rest with
      | [] => .error .truncated
      | c :: rest => if c = '"' then .ok (some rest) else .error .malformed
    else .error .malformed

/-- What is left to skip: a value, or the rest of an array or an object, before whose first entry
the flag is set. -/
inductive Pending where
  | value
  | elements (first : Bool)
  | members (first : Bool)

/-- Skips well-formed text. The number bounds the nesting and the length of what is skipped. -/
def skipFrom : Nat → Pending → List Char → Except Fault (List Char)
  | 0, _, _ => .error .truncated
  | bound + 1, .value, text =>
    let text := skipBlanks text
    match text with
    | [] => .error .truncated
    | 'n' :: _ => takeExact "null".toList text
    | 't' :: _ => takeExact "true".toList text
    | 'f' :: _ => takeExact "false".toList text
    | '"' :: rest => skipString rest
    | '[' :: rest => skipFrom bound (.elements true) rest
    | '\x7b' :: rest => skipFrom bound (.members true) rest
    | c :: _ =>
      if c = '-' ∨ c.isDigit then (takeNumeral .malformed text).map (·.2) else .error .malformed
  | bound + 1, .elements first, text => do
    match ← nextElement first text with
    | none => takeMark ']' text
    | some text =>
      let text ← skipFrom bound .value text
      skipFrom bound (.elements false) text
  | bound + 1, .members first, text => do
    match ← nextKey first text with
    | none => takeMark '\x7d' text
    | some text =>
      let text ← skipString text
      let text ← takeMark ':' text
      let text ← skipFrom bound .value text
      skipFrom bound (.members false) text

def skipValue (text : List Char) : Except Fault (List Char) :=
  skipFrom (2 * text.length + 2) .value text

end Buildfile.Json
