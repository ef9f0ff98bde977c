import Buildfile.Json.Skip

/-! # JSON records

A record has named fields in a fixed order. It may be read from an object, in which the fields
come in any order and each at most once, or from an array of their values in the fixed order, which
may end early. It is written as an object.
-/

namespace Buildfile.Json

structure Field (α : Type) where
  name : String
  decode : Decoder α

/-- What becomes of the keys of an object that name no field. -/
inductive Unknown where
  | skip
  | refuse
deriving DecidableEq, Repr

variable {α : Type}

/-- The values of the leading fields that an array holds. -/
def fieldsInOrder : List (Field α) → Bool → Decoder (List (String × α))
  | [], _, text => .ok ([], text)
  | field :: fields, first, text => do
    match ← nextElement first text with
    | none => return ([], text)
    | some text =>
      let (x, text) ← field.decode text
      let (xs, text) ← fieldsInOrder fields false text
      return ((field.name, x) :: xs, text)

/-- The values of the fields that an object holds, after those already found. The number bounds
how many keys there are. -/
def fieldsByName (fields : List (Field α)) (unknown : Unknown) :
    Nat → Bool → List (String × α) → Decoder (List (String × α))
  | 0, _, _, _ => .error .truncated
  | bound + 1, first, found, text => do
    match ← nextKey first text with
    | none => return (found, text)
    | some text =>
      let (key, text) ← stringFrom none text
      let key := String.ofList key
      match fields.find? (·.name == key) with
      | some field =>
        if (found.lookup key).isSome then .error .mismatched
        else
          let text ← takeMark ':' text
          let (x, text) ← field.decode text
          fieldsByName fields unknown bound false ((key, x) :: found) text
      | none =>
        if unknown = .refuse then .error .mismatched
        else
          let text ← takeMark ':' text
          let text ← skipValue text
          fieldsByName fields unknown bound false found text

/-- The values of the fields that a record holds, built into a result before the record is
closed. -/
def record {β : Type} (fields : List (Field α)) (unknown : Unknown)
    (build : List (String × α) → Option β) : Decoder β := fun text =>
  let built (found : List (String × α)) : Except Fault β :=
    match build found with
    | some x => .ok x
    | none => .error .mismatched
  match skipBlanks text with
  | '[' :: rest => do
    let (found, rest) ← fieldsInOrder fields true rest
    let x ← built found
    let rest ← takeMark ']' rest
    return (x, rest)
  | '\x7b' :: rest => do
    let (found, rest) ← fieldsByName fields unknown (rest.length + 1) true [] rest
    let x ← built found
    let rest ← takeMark '\x7d' rest
    return (x, rest)
  | text => .error (wrongType text)

/-- Members of an object as they are written, each with the text of its value. Before the first one
of the object the flag is set. -/
def writeMembers : Bool → List (String × List Char) → List Char
  | _, [] => []
  | first, (name, text) :: members =>
    (if first then [] else [',']) ++ write name.toList ++ ':' :: text ++ writeMembers false members

def writeRecord (members : List (String × List Char)) : List Char :=
  '\x7b' :: writeMembers true members ++ ['\x7d']

def readAll {β : Type} (decode : Decoder β) (source : String) : Except Fault β := do
  let (x, rest) ← decode source.toList
  endOfText rest
  return x

end Buildfile.Json
