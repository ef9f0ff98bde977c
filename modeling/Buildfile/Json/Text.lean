import Buildfile.Json.Fault
import Buildfile.Text.Quoted

/-! # JSON strings

A string stands in double quotes. Control characters have to be escaped in it, and an escape may
name any UTF-16 unit, so that two escaped units make up one character beyond the basic plane. The
written form escapes only what has to be.
-/

namespace Buildfile.Json

def hexValue? (c : Char) : Option Nat :=
  if c.isDigit then some (c.toNat - '0'.toNat)
  else if 'a' ≤ c ∧ c ≤ 'f' then some (c.toNat - 'a'.toNat + 10)
  else if 'A' ≤ c ∧ c ≤ 'F' then some (c.toNat - 'A'.toNat + 10)
  else none

def unit? (a b c d : Char) : Option Nat := do
  return (((← hexValue? a) * 16 + (← hexValue? b)) * 16 + (← hexValue? c)) * 16 + (← hexValue? d)

def shortEscape? : Char → Option Char
  | '"' => some '"'
  | '\\' => some '\\'
  | '/' => some '/'
  | 'b' => some '\x08'
  | 'f' => some '\x0c'
  | 'n' => some '\n'
  | 'r' => some '\r'
  | 't' => some '\t'
  | _ => none

def isControl (c : Char) : Bool := c.toNat < 0x20

/-- What an escaped unit adds to a string. -/
inductive UnitReading where
  /-- It completes a character. -/
  | complete (c : Char)
  /-- It is the first half of a character. -/
  | half (high : Nat)
  /-- It cannot stand here. -/
  | misplaced

/-- Reads a unit after the first half of a character, if there is one. -/
def readUnit (high : Option Nat) (unit : Nat) : UnitReading :=
  let isHigh := 0xD800 ≤ unit ∧ unit < 0xDC00
  let isLow := 0xDC00 ≤ unit ∧ unit < 0xE000
  match high with
  | none => if isHigh then .half unit else if isLow then .misplaced else .complete (.ofNat unit)
  | some high =>
    if isLow then .complete (.ofNat (0x10000 + (high - 0xD800) * 0x400 + (unit - 0xDC00)))
    else .misplaced

/-- The fault of a unit escape that has no four hexadecimal digits. Four more bytes of text that
are not such digits can never become one. -/
def unitFault (rest : List Char) : Fault :=
  if rest.foldl (fun bytes c => bytes + c.utf8Size) 0 < 4 then .truncated else .malformed

private def prepend (c : Char) (r : List Char × List Char) : List Char × List Char :=
  (c :: r.1, r.2)

/-- The contents of a string and the text after its closing quote. The first half of a character
has to be followed by its second half. -/
def stringFrom : Option Nat → Decoder (List Char)
  | _, [] => .error .truncated
  | _, ['\\'] => .error .truncated
  | high, '\\' :: 'u' :: a :: b :: c :: d :: rest =>
    match unit? a b c d with
    | none => .error .malformed
    | some unit =>
      match readUnit high unit with
      | .complete c => (stringFrom none rest).map (prepend c)
      | .half high => stringFrom (some high) rest
      | .misplaced => .error .malformed
  | _, '\\' :: 'u' :: rest => .error (unitFault rest)
  | some _, _ :: _ => .error .malformed
  | none, '\\' :: c :: rest =>
    match shortEscape? c with
    | some c => (stringFrom none rest).map (prepend c)
    | none => .error .malformed
  | none, c :: rest =>
    if c = '"' then .ok ([], rest)
    else if isControl c then .error .malformed
    else (stringFrom none rest).map (prepend c)

/-- The text after the closing quote of a string whose units need not make up characters. -/
def skipString : List Char → Except Fault (List Char)
  | [] => .error .truncated
  | ['\\'] => .error .truncated
  | '\\' :: 'u' :: a :: b :: c :: d :: rest =>
    if (unit? a b c d).isSome then skipString rest else .error .malformed
  | '\\' :: 'u' :: rest => .error (unitFault rest)
  | '\\' :: c :: rest =>
    if (shortEscape? c).isSome then skipString rest else .error .malformed
  | c :: rest =>
    if c = '"' then .ok rest
    else if isControl c then .error .malformed
    else skipString rest

def writeChar (c : Char) : List Char :=
  if c = '"' then ['\\', '"']
  else if c = '\\' then ['\\', '\\']
  else if c = '\x08' then ['\\', 'b']
  else if c = '\x0c' then ['\\', 'f']
  else if c = '\n' then ['\\', 'n']
  else if c = '\r' then ['\\', 'r']
  else if c = '\t' then ['\\', 't']
  else if isControl c then
    ['\\', 'u', '0', '0', (c.toNat / 16).digitChar, (c.toNat % 16).digitChar]
  else [c]

def write (contents : List Char) : List Char := '"' :: contents.flatMap writeChar ++ ['"']

end Buildfile.Json
