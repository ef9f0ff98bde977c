import Buildfile.Json.Value

/-! # JSON arrays

The elements of an array stand in square brackets and are separated by commas. No comma follows the
last one.
-/

namespace Buildfile.Json

def nextElement (first : Bool) (text : List Char) : Except Fault (Option (List Char)) :=
  match skipBlanks text with
  | [] => .error .truncated
  | c :: rest =>
    if c = ']' then .ok none
    else if first then .ok (some (c :: rest))
    else if c = ',' then
      match skipBlanks rest with
      | [] => .error .truncated
      | ']' :: _ => .error .malformed
      | element => .ok (some element)
    else .error .malformed

/-- The elements of an array, up to its closing bracket. The number bounds how many there are. -/
def elementsFrom {α : Type} (element : Decoder α) : Nat → Bool → Decoder (List α)
  | 0, _, _ => .error .truncated
  | bound + 1, first, text => do
    match ← nextElement first text with
    | none => return ([], text)
    | some text =>
      let (x, text) ← element text
      let (xs, text) ← elementsFrom element bound false text
      return (x :: xs, text)

def array {α : Type} (element : Decoder α) : Decoder (List α) := fun text =>
  match skipBlanks text with
  | '[' :: rest => do
    let (xs, rest) ← elementsFrom element (rest.length + 1) true rest
    let rest ← takeMark ']' rest
    return (xs, rest)
  | text => .error (wrongType text)

/-- Reads a text that is an array of strings and nothing else. -/
def readStrings (source : String) : Except Fault (List String) := do
  let (xs, rest) ← array text source.toList
  endOfText rest
  return xs

end Buildfile.Json
