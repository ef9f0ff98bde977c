import Buildfile.Json.Record

/-! # Settings of an interpretation

Settings name the requested target and say whether deprecated forms are reported. Both have
defaults.
-/

namespace Buildfile

/-- The target made up by the statements before the first recipe. -/
def baseTarget : String := "base"

structure Settings where
  target : String := baseTarget
  warnDeprecations : Bool := true
deriving DecidableEq, Repr

namespace Settings

inductive Part where
  | target (name : String)
  | warnDeprecations (on : Bool)

def fields : List (Json.Field Part) :=
  [⟨"target", fun text => do
      let (name, rest) ← Json.text text
      return (.target name, rest)⟩,
    ⟨"warn_deprecations", fun text => do
      let (on, rest) ← Json.flag text
      return (.warnDeprecations on, rest)⟩]

def withPart (s : Settings) : Part → Settings
  | .target name => { s with target := name }
  | .warnDeprecations on => { s with warnDeprecations := on }

/-- Reads settings. A missing field has its default, and a key that names no field is refused. -/
def parse (source : String) : Except Json.Fault Settings :=
  Json.readAll
    (Json.record fields .refuse fun parts => some (parts.foldl (fun s p => s.withPart p.2) {}))
    source

end Settings
end Buildfile
