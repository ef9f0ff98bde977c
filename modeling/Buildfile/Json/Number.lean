import Buildfile.Json.Fault
import Buildfile.Text.Integer

/-! # JSON numbers

A number is kept as its digits. One that is no whole number is held in double precision, so it is
refused when it is out of that range: its leading digits, as far as they fit into 64 bits, are
rounded to 53 bits and multiplied by the rounded power of ten.
-/

namespace Buildfile.Json

structure Exponent where
  negative : Bool
  digits : List Char
deriving DecidableEq, Repr

structure Numeral where
  negative : Bool
  whole : List Char
  fraction : List Char
  exponent : Option Exponent
deriving DecidableEq, Repr

/-- At least one digit. The first argument is the fault of a text that ends before it. -/
def takeDigits (ended : Fault) : Decoder (List Char) := fun text =>
  match text with
  | [] => .error ended
  | c :: _ =>
    if c.isDigit then .ok (text.takeWhile Char.isDigit, text.dropWhile Char.isDigit)
    else .error .malformed

def takeExponent (ended : Fault) : Decoder Exponent := fun text => do
  let (negative, text) := match text with
    | '-' :: rest => (true, rest)
    | '+' :: rest => (false, rest)
    | _ => (false, text)
  let (digits, text) ← takeDigits ended text
  return (⟨negative, digits⟩, text)

/-- A whole number has no zero in front of other digits. -/
def takeWhole (ended : Fault) : Decoder (List Char) := fun text => do
  let (digits, text) ← takeDigits ended text
  match digits with
  | '0' :: _ :: _ => .error .malformed
  | _ => return (digits, text)

def takeNumeral (ended : Fault) : Decoder Numeral := fun text => do
  let (negative, text) := match text with
    | '-' :: rest => (true, rest)
    | _ => (false, text)
  let (whole, text) ← takeWhole ended text
  let (fraction, text) ← match text with
    | '.' :: rest => takeDigits ended rest
    | _ => pure ([], text)
  match text with
  | c :: rest =>
    if c = 'e' ∨ c = 'E' then do
      let (exponent, text) ← takeExponent ended rest
      return (⟨negative, whole, fraction, some exponent⟩, text)
    else return (⟨negative, whole, fraction, none⟩, text)
  | [] => return (⟨negative, whole, fraction, none⟩, text)

def digitsValue (digits : List Char) : Nat :=
  digits.foldl (fun n c => n * 10 + Text.digitValue c) 0

/-- The least number that does not fit into 64 bits. -/
def significandLimit : Nat := 18446744073709551616

/-- Appends digits to a number as long as it fits into 64 bits, and counts the ones left out. -/
def appendDigits : Nat → List Char → Nat × Nat
  | n, [] => (n, 0)
  | n, c :: rest =>
    let longer := n * 10 + Text.digitValue c
    if longer < significandLimit then appendDigits longer rest else (n, rest.length + 1)

/-- The nearest number with at most 53 significant bits, of two the one whose last bit is zero. -/
def roundDouble (n : Nat) : Nat :=
  let unit := Nat.pow 2 (n.log2 - 52)
  let below := n / unit
  let above := if n % unit * 2 > unit ∨ (n % unit * 2 = unit ∧ below % 2 = 1) then below + 1
    else below
  above * unit

/-- The least number that rounds to no finite double. -/
def doubleLimit : Nat := Nat.pow 2 1024 - Nat.pow 2 970

namespace Numeral

/-- The value of a number that is written as a whole number without a minus sign. -/
def nat? (n : Numeral) : Option Nat :=
  if !n.negative && n.fraction.isEmpty && n.exponent.isNone then some (digitsValue n.whole)
  else none

def outOfRange (n : Numeral) : Bool :=
  let (leading, dropped) := appendDigits 0 n.whole
  let (leading, ignored) := appendDigits leading n.fraction
  let (down, up) : Nat × Nat := match n.exponent with
    | none => (0, 0)
    | some e => if e.negative then (digitsValue e.digits, 0) else (0, digitsValue e.digits)
  let up := up + dropped + ignored
  let down := down + n.fraction.length
  leading ≠ 0 && down ≤ up &&
    (up - down > 308 ||
      roundDouble leading * roundDouble (Nat.pow 10 (up - down)) ≥ doubleLimit)

end Numeral
end Buildfile.Json
