import Buildfile.Text.CodePoint

/-! # Blank characters

A character is blank when it has the Unicode property White_Space. Blank characters separate
the words of a line and may stand between the parts of a duration.
-/

namespace Buildfile.Text

/-- The ten ranges of the property White_Space. -/
def blankRanges : List (Nat × Nat) :=
  [(0x09, 0x0D), (0x20, 0x20), (0x85, 0x85), (0xA0, 0xA0), (0x1680, 0x1680), (0x2000, 0x200A),
    (0x2028, 0x2029), (0x202F, 0x202F), (0x205F, 0x205F), (0x3000, 0x3000)]

def isBlank (c : Char) : Bool := inRanges blankRanges c

/-- The words of a line are its longest runs of characters that are not blank. -/
def words (line : String) : List String :=
  ((line.toList.splitOnP isBlank).filter fun run => !run.isEmpty).map String.ofList

end Buildfile.Text
