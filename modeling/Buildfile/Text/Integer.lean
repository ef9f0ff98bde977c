/-! # Integers in decimal

An integer is written as at most one sign and one or more ASCII digits, and lies in the range of
signed 64-bit words. The digits are read from the left, so a value that has already left the range
is reported before a later character that is no digit.
-/

namespace Buildfile.Text

inductive IntegerFault where
  | empty
  | invalidDigit
  | tooLarge
  | tooSmall
deriving DecidableEq, Repr

def IntegerFault.message : IntegerFault → String
  | .empty => "cannot parse integer from empty string"
  | .invalidDigit => "invalid digit found in string"
  | .tooLarge => "number too large to fit in target type"
  | .tooSmall => "number too small to fit in target type"

/-- The least magnitude beyond the positive integers, which is the greatest of the negative ones. -/
def integerLimit : Nat := 9223372036854775808

def digitValue (c : Char) : Nat := c.toNat - '0'.toNat

/-- Adds one more digit to a value that must stay within a limit. -/
def addDigit (limit : Nat) (exceeded : IntegerFault) (value : Nat) (c : Char) :
    Except IntegerFault Nat :=
  if c.isDigit then
    let value := value * 10 + digitValue c
    if value ≤ limit then .ok value else .error exceeded
  else .error .invalidDigit

def readDigits (limit : Nat) (exceeded : IntegerFault) (digits : List Char) :
    Except IntegerFault Nat :=
  if digits.isEmpty then .error .invalidDigit
  else digits.foldlM (addDigit limit exceeded) 0

def readInteger (text : String) : Except IntegerFault Int :=
  match text.toList with
  | [] => .error .empty
  | '-' :: digits => (readDigits integerLimit .tooSmall digits).map Int.negOfNat
  | '+' :: digits => (readDigits (integerLimit - 1) .tooLarge digits).map Int.ofNat
  | digits => (readDigits (integerLimit - 1) .tooLarge digits).map Int.ofNat

end Buildfile.Text
