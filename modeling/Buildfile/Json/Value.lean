import Buildfile.Json.Text
import Buildfile.Json.Number

/-! # JSON values of a wanted type

Decoders for strings, booleans, counts and named variants. A value of another type is read as far
as needed to tell whether it is well formed.
-/

namespace Buildfile.Json

/-- The fault of a value, at the front of the text, that does not have the wanted type. -/
def wrongType (text : List Char) : Fault :=
  let fault {α : Type} : Except Fault α → Fault
    | .error f => f
    | .ok _ => .mismatched
  match text with
  | [] => .truncated
  | 'n' :: _ => fault (takeExact "null".toList text)
  | 't' :: _ => fault (takeExact "true".toList text)
  | 'f' :: _ => fault (takeExact "false".toList text)
  | '"' :: rest => fault (stringFrom none rest)
  | '[' :: _ | '\x7b' :: _ => .mismatched
  | c :: _ =>
    if c = '-' ∨ c.isDigit then
      match takeNumeral .truncated text with
      | .error f => f
      | .ok (n, _) => if n.outOfRange then .malformed else .mismatched
    else .malformed

def text : Decoder String := fun text =>
  match skipBlanks text with
  | '"' :: rest => (stringFrom none rest).map fun (contents, rest) => (String.ofList contents, rest)
  | text => .error (wrongType text)

def flag : Decoder Bool := fun text =>
  match skipBlanks text with
  | 't' :: rest => (takeExact "rue".toList rest).map fun rest => (true, rest)
  | 'f' :: rest => (takeExact "alse".toList rest).map fun rest => (false, rest)
  | text => .error (wrongType text)

def null : Decoder Unit := fun text =>
  match skipBlanks text with
  | 'n' :: rest => (takeExact "ull".toList rest).map fun rest => ((), rest)
  | text => .error (wrongType text)

def count (greatest : Nat) : Decoder Nat := fun text =>
  let text := skipBlanks text
  match text with
  | [] => .error .truncated
  | c :: _ =>
    if c = '-' ∨ c.isDigit then do
      let (n, rest) ← takeNumeral .truncated text
      if n.outOfRange then .error .malformed
      else
        match n.nat? with
        | some value => if value ≤ greatest then .ok (value, rest) else .error .mismatched
        | none => .error .mismatched
    else .error (wrongType text)

/-- One of several names, written as a string or as the only key of an object whose value is
null. A key is a string: anything else in its place is malformed, whether it is complete or not. -/
def variant {α : Type} (ofName? : String → Option α) : Decoder α := fun source =>
  let named : Decoder α := fun source => do
    let (name, rest) ← text source
    match ofName? name with
    | some x => return (x, rest)
    | none => .error .mismatched
  let source := skipBlanks source
  match source with
  | [] => .error .truncated
  | '"' :: _ => named source
  | '\x7b' :: rest =>
    match skipBlanks rest with
    | [] => .error .truncated
    | key@('"' :: _) => do
      let (x, rest) ← named key
      let rest ← takeMark ':' rest
      let ((), rest) ← null rest
      let rest ← takeMark '\x7d' rest
      return (x, rest)
    | _ => .error .malformed
  | _ => .error .malformed

end Buildfile.Json
