import Buildfile.Plan.Basic
import Buildfile.Reference

/-! # Statements that bring files into a build

The base image, the artifacts of other targets, the files of the build context and repositories.
-/

namespace Buildfile

inductive Source where
  | artifact (text : String)
  | path (text : String)
deriving DecidableEq, Repr

namespace Source

def text : Source → String
  | artifact text | path text => text

def isArtifact : Source → Bool
  | artifact _ => true
  | path _ => false

end Source

namespace Scope

/-- A word is an artifact if its expansion as a reference is one, and a path otherwise. -/
def source (s : Scope) (word : String) : Source :=
  match Artifact.parse (s.reference word) with
  | .ok a => .artifact a.text
  | .error _ => .path (s.literal word)

def fromImageFlags : List Flag := [.list "build-arg", .text "platform"]

def planFromImage (s : Scope) (i : Invocation) : Except Refusal Plan := do
  s.allow i
  let r ← i.read fromImageFlags
  match r.arguments with
  | [image] =>
    let image := s.reference image
    let platform ← s.platform (r.text "platform")
    return s.issue s!"apply FROM {image}"
      [.fromImage image platform (s.references (r.list "build-arg"))]
  | [_, "AS", _] => .error .imageAlias
  | _ => .error (.argumentCount "FROM" i.words)

def fromDockerfileFlags : List Flag :=
  [.list "build-arg", .text "platform", .text "target", .text "f"]

def planFromDockerfile (s : Scope) (i : Invocation) : Except Refusal Plan := do
  s.allow i
  let r ← i.read fromDockerfileFlags
  match r.arguments with
  | [context] =>
    if r.text "f" ≠ "" then .error .dockerfilePath
    else
      let platform ← s.platform (r.text "platform")
      return s.issue "from dockerfile"
        [.fromDockerfile (s.source context).text "" (s.literal (r.text "target")) platform
          (s.references (r.list "build-arg"))]
  | _ => .error (.argumentCount "FROM DOCKERFILE" i.words)

def copyFlags : List Flag :=
  [.text "from", .switch "dir", .text "chown", .switch "keep-ts", .switch "keep-own",
    .switch "if-exists", .text "platform", .list "build-arg"]

/-- The last argument is the destination and the others are sources, which are either all
artifacts or all paths. -/
def planCopy (s : Scope) (i : Invocation) : Except Refusal Plan := do
  s.allow i
  let r ← i.read copyFlags
  if r.arguments.length < 2 then .error (.fewCopyArguments i.words)
  else if r.text "from" ≠ "" then .error .copyFromImage
  else
    let dest := s.literal (r.arguments.getLastD "")
    let buildArgs := s.references (r.list "build-arg")
    let options : CopyOptions :=
      { isDir := r.switch "dir", keepTimes := r.switch "keep-ts",
        keepOwner := r.switch "keep-own", owner := s.literal (r.text "chown") }
    let platform ← s.platform (r.text "platform")
    let sources := r.arguments.dropLast.map s.source
    if sources.all Source.isArtifact then
      return s.issue "copy artifact" <| sources.map fun source =>
        .copyArtifact source.text dest platform buildArgs options (r.switch "if-exists")
    else if sources.any Source.isArtifact then .error (.mixedSources (sources.map Source.text))
    else if buildArgs ≠ [] then .error (.buildArgsForFiles i.words)
    else return s.issue "copy classical" [.copyFiles (sources.map Source.text) dest options]

def gitCloneFlags : List Flag := [.text "branch", .switch "keep-ts"]

def planGitClone (s : Scope) (i : Invocation) : Except Refusal Plan := do
  s.allow i
  let r ← i.read gitCloneFlags
  match r.arguments with
  | [url, dest] =>
    return s.issue "git clone"
      [.gitClone (s.literal url) (s.literal (r.text "branch")) (s.literal dest)
        (r.switch "keep-ts")]
  | _ => .error (.argumentCount "GIT CLONE" i.words)

end Scope
end Buildfile
