import Buildfile.Text.Marker
import Buildfile.Text.Cut

/-! # References to targets and artifacts

A target reference is a location, a plus sign and a target name. An artifact reference is a target
reference followed by a slash and the path of a file that the target saves. The first plus sign
that is not escaped is the marker, so an escaped one belongs to a path.
-/

namespace Buildfile

inductive Location where
  /-- The build file that is read. -/
  | here
  /-- A directory, relative to the build file or absolute. -/
  | directory (path : String)
  /-- A repository, at a tag or branch if one is given. -/
  | repository (name : String) (tag : Option String)
deriving DecidableEq, Repr

structure Target where
  location : Location
  name : String
deriving DecidableEq, Repr

structure Artifact where
  target : Target
  path : String
deriving DecidableEq, Repr

inductive ReferenceFault where
  | missingMarker (text : String)
  | emptyTargetName (text : String)
  | missingArtifactPath (text : String)
deriving DecidableEq, Repr

def ReferenceFault.message : ReferenceFault → String
  | missingMarker text => s!"invalid target reference {text}: missing +"
  | emptyTargetName text => s!"invalid target reference {text}: empty target name"
  | missingArtifactPath text => s!"invalid artifact reference {text}: missing artifact path"

namespace Location

/-- A colon after the last slash separates the tag from the name of a repository. -/
def ofRepository (text : List Char) : Location :=
  match Text.cutLast ':' text with
  | some (name, tag) =>
    if '/' ∈ tag then repository (String.ofList text) none
    else repository (String.ofList name) (some (String.ofList tag))
  | none => repository (String.ofList text) none

/-- A location starts with a dot or a slash if it is a directory, and is empty if it is the build
file itself. -/
def ofText (text : List Char) : Location :=
  match text with
  | [] => here
  | c :: _ =>
    if c = '.' ∨ c = '/' then directory (String.ofList text) else ofRepository text

def text : Location → String
  | here => ""
  | directory path => path
  | repository name none => name
  | repository name (some tag) => s!"{name}:{tag}"

def isLocal : Location → Bool
  | repository _ _ => false
  | _ => true

end Location

namespace Target

def parse (text : String) : Except ReferenceFault Target :=
  match Text.cutMarker text.toList with
  | none => .error (.missingMarker text)
  | some (_, []) => .error (.emptyTargetName text)
  | some (location, name) => .ok ⟨.ofText location, String.ofList name⟩

def text (t : Target) : String := s!"{t.location.text}+{t.name}"

def isLocal (t : Target) : Bool := t.location.isLocal

end Target

namespace Artifact

/-- The text in front of the path is read once more as a target. -/
def parse (text : String) : Except ReferenceFault Artifact :=
  match Text.cutMarker text.toList with
  | none => .error (.missingMarker text)
  | some (location, rest) =>
    match Text.cutFirst '/' rest with
    | none | some (_, []) => .error (.missingArtifactPath text)
    | some (name, path) => do
      let target ← Target.parse (String.ofList (location ++ '+' :: name))
      return ⟨target, String.ofList path⟩

def text (a : Artifact) : String := s!"{a.target.text}/{a.path}"

end Artifact
end Buildfile
