import Buildfile.Duration.Basic
import Buildfile.Text.Blank
import Buildfile.Text.Integer

/-! # Reading durations

A duration is written as one or more numbers, each followed by the name of a unit, such as
`1h 30m`. A number may have a fraction. Blank characters may stand before a number, among and after
its digits and after a unit, and a digit directly after a unit starts the next number. Every count
along the way has to fit into 64 bits, and a fraction of a unit has to come out exactly.
-/

namespace Buildfile.Duration

inductive TimeUnit where
  | nanosecond
  | microsecond
  | millisecond
  | second
  | minute
  | hour
  | day
  | week
  | month
  | year
deriving DecidableEq, Repr

namespace TimeUnit

def ofName? : String → Option TimeUnit
  | "nanos" | "nsec" | "ns" => some nanosecond
  | "usec" | "us" | "\u00b5s" => some microsecond
  | "millis" | "msec" | "ms" => some millisecond
  | "seconds" | "second" | "secs" | "sec" | "s" => some second
  | "minutes" | "minute" | "min" | "mins" | "m" => some minute
  | "hours" | "hour" | "hr" | "hrs" | "h" => some hour
  | "days" | "day" | "d" => some day
  | "weeks" | "week" | "wk" | "wks" | "w" => some week
  | "months" | "month" | "M" => some month
  | "years" | "year" | "yr" | "yrs" | "y" => some year
  | _ => none

/-- The length in nanoseconds. A month has 30.44 days and a year 365.25. -/
def nanoseconds : TimeUnit → Nat
  | nanosecond => 1
  | microsecond => 1000
  | millisecond => 1000000
  | second => perSecond
  | minute => 60 * perSecond
  | hour => 3600 * perSecond
  | day => 86400 * perSecond
  | week => 604800 * perSecond
  | month => 2630016 * perSecond
  | year => 31557600 * perSecond

/-- The grain, in nanoseconds, in which whole units are counted. -/
def wholeGrain : TimeUnit → Nat
  | nanosecond | microsecond | millisecond => 1
  | _ => perSecond

/-- The grain, in nanoseconds, in which fractions of a unit are counted. A nanosecond has no
fractions. -/
def fractionGrain? : TimeUnit → Option Nat
  | nanosecond => none
  | microsecond | millisecond | second | minute => some 1
  | _ => some perSecond

end TimeUnit

/-- The digits after a point, as a number over a power of ten. -/
structure Fraction where
  numerator : Nat
  denominator : Nat
deriving DecidableEq, Repr

/-- The least count that does not fit into 64 bits. -/
def countLimit : Nat := 18446744073709551616

def fitting? (n : Nat) : Option Nat := if n < countLimit then some n else none

/-- Adds an amount of grains to a total in nanoseconds. The amount, the nanoseconds next to the
whole seconds and the whole seconds have to fit. -/
def addGrains (total grain amount : Nat) : Option Nat :=
  let sum := total + amount * grain
  if amount < countLimit ∧ (grain = 1 → total % perSecond + amount < countLimit) ∧
      sum / perSecond < countLimit then some sum
  else none

def addUnits (total number : Nat) (fraction : Option Fraction) (unit : TimeUnit) :
    Option Nat := do
  let grain := unit.wholeGrain
  let total ← addGrains total grain (number * (unit.nanoseconds / grain))
  match fraction with
  | none => return total
  | some fraction =>
    let grain ← unit.fractionGrain?
    let scaled ← fitting? (fraction.numerator * (unit.nanoseconds / grain))
    if scaled % fraction.denominator = 0 then
      addGrains total grain (scaled / fraction.denominator)
    else none

/-- How much of a duration is read, with the total of the units that are complete. -/
inductive Stage where
  /-- Before a number. The flag tells whether any unit is complete. -/
  | between (total : Nat) (any : Bool)
  /-- In the whole part of a number. -/
  | whole (total number : Nat)
  /-- After the point of a number. -/
  | decimals (total number : Nat) (fraction : Fraction)
  /-- In the name of a unit. -/
  | unit (total number : Nat) (fraction : Option Fraction) (name : List Char)
deriving DecidableEq, Repr

def isUnitLetter (c : Char) : Bool := c.isAlpha || c = '\u00b5'

def closeUnit (total number : Nat) (fraction : Option Fraction) (name : List Char) : Option Nat :=
  (TimeUnit.ofName? (String.ofList name)).bind (addUnits total number fraction)

def Stage.step : Stage → Char → Option Stage
  | between total any, c =>
    if c.isDigit then some (whole total (Text.digitValue c))
    else if Text.isBlank c then some (between total any)
    else none
  | whole total number, c =>
    if c.isDigit then (fitting? (number * 10 + Text.digitValue c)).map (whole total)
    else if Text.isBlank c then some (whole total number)
    else if isUnitLetter c then some (unit total number none [c])
    else if c = '.' then some (decimals total number ⟨0, 1⟩)
    else none
  | decimals total number fraction, c =>
    if c.isDigit then do
      let numerator ← fitting? (fraction.numerator * 10 + Text.digitValue c)
      let denominator ← fitting? (fraction.denominator * 10)
      return decimals total number ⟨numerator, denominator⟩
    else if Text.isBlank c then some (decimals total number fraction)
    else if isUnitLetter c ∧ fraction.denominator ≠ 1 then
      some (unit total number (some fraction) [c])
    else none
  | unit total number fraction name, c =>
    if c.isDigit then
      (closeUnit total number fraction name).map (whole · (Text.digitValue c))
    else if Text.isBlank c then (closeUnit total number fraction name).map (between · true)
    else if isUnitLetter c then some (unit total number fraction (name ++ [c]))
    else none

def Stage.finish : Stage → Option Duration
  | between total true => some ⟨total⟩
  | unit total number fraction name => (closeUnit total number fraction name).map Duration.mk
  | _ => none

def parse? (text : String) : Option Duration :=
  (text.toList.foldlM Stage.step (.between 0 false)).bind Stage.finish

end Buildfile.Duration
