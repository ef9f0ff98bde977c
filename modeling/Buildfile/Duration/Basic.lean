/-! # Durations

A duration is a whole number of nanoseconds. Its text has the seconds, a point and nine digits of
nanoseconds.
-/

namespace Buildfile

structure Duration where
  nanoseconds : Nat
deriving DecidableEq, Repr

namespace Duration

/-- The nanoseconds of one second. -/
def perSecond : Nat := 1000000000

def zero : Duration := ⟨0⟩

def ofSeconds (n : Nat) : Duration := ⟨n * perSecond⟩

def ofMilliseconds (n : Nat) : Duration := ⟨n * 1000000⟩

def seconds (d : Duration) : Nat := d.nanoseconds / perSecond

def subsecond (d : Duration) : Nat := d.nanoseconds % perSecond

/-- The decimal digits of a number, with zeros in front up to a width. -/
def padded (width n : Nat) : String :=
  let digits := Nat.toDigits 10 n
  String.ofList (List.replicate (width - digits.length) '0' ++ digits)

def text (d : Duration) : String := s!"{d.seconds}." ++ padded 9 d.subsecond

end Duration
end Buildfile
