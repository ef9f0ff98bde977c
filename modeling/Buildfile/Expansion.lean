import Buildfile.Text.Marker

/-! # Expansion of words

Words are expanded by a substitution that also consumes one level of backslash escapes. The
escapes of reference markers are doubled first. A word that is read as a reference afterwards keeps
the escapes that are left, and in any other word they are dropped.
-/

namespace Buildfile

/-- What becomes of the escaped reference markers of a word. -/
inductive Expansion where
  /-- They stay escaped. -/
  | reference
  /-- They become plain plus signs. -/
  | literal
deriving DecidableEq, Repr

namespace Expansion

def protect (word : String) : String := String.ofList (Text.protectMarkers word.toList)

def bare (word : String) : String := String.ofList (Text.bareMarkers word.toList)

def expand (mode : Expansion) (substitute : String → String) (word : String) : String :=
  let expanded := substitute (protect word)
  match mode with
  | reference => expanded
  | literal => bare expanded

end Expansion
end Buildfile
