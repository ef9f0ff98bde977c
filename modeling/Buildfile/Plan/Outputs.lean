import Buildfile.Plan.Basic

/-! # Statements that take results out of a build

Saved artifacts and images, and the builds of other targets.
-/

namespace Buildfile.Scope

def saveArtifactFlags : List Flag := [.switch "keep-ts", .switch "keep-own", .switch "if-exists"]

def saveArtifactPaths (i : Invocation) (arguments : List String) :
    Except Refusal (String × String × String) :=
  match arguments with
  | [] => .error (.noArguments .saveArtifact)
  | [source] => .ok (source, "./", "")
  | [source, dest] => .ok (source, dest, "")
  | [source, "AS", "LOCAL", localDest] => .ok (source, "./", localDest)
  | [source, dest, "AS", "LOCAL", localDest] => .ok (source, dest, localDest)
  | _ =>
    if arguments.length > 5 then .error (.manySaveArtifactArguments i.words)
    else .error (.saveArtifactShape i.words)

def planSaveArtifact (s : Scope) (i : Invocation) : Except Refusal Plan := do
  s.allow i
  let r ← i.read saveArtifactFlags
  let (source, dest, localDest) ← saveArtifactPaths i r.arguments
  return s.issue "apply SAVE ARTIFACT"
    [.saveArtifact (s.literal source) (s.literal dest) (s.literal localDest)
      (r.switch "keep-ts") (r.switch "keep-own") (r.switch "if-exists")]

def saveImageFlags : List Flag :=
  [.switch "push", .switch "cache-hint", .switch "insecure", .list "cache-from"]

/-- Without names and cache settings the statement has no effect. -/
def planSaveImage (s : Scope) (i : Invocation) : Except Refusal Plan := do
  let r ← i.read saveImageFlags
  let push := r.switch "push"
  if !push then s.allow i
  if push && r.arguments.isEmpty then .error (.argumentCount "SAVE IMAGE --push" i.words)
  else
    let options : SaveImageOptions :=
      { push, insecure := r.switch "insecure", cacheHint := r.switch "cache-hint",
        cacheFrom := s.literals (r.list "cache-from") }
    let names := s.literals r.arguments
    if names.isEmpty && !options.cacheHint && options.cacheFrom.isEmpty then
      return { block := s.block, redundant := true }
    else
      return { s.issue "save image" [.saveImage names options] with push }

def buildFlags : List Flag := [.list "platform", .list "build-arg"]

/-- The target is built once for each platform, or once without one if none is given. -/
def planBuild (s : Scope) (i : Invocation) : Except Refusal Plan := do
  s.allow i
  let r ← i.read buildFlags
  match r.arguments with
  | [target] =>
    let target := s.reference target
    let given ← (r.list "platform").mapM s.platform
    let platforms := if given.isEmpty then [none] else given
    let buildArgs := s.references (r.list "build-arg")
    return s.issue s!"apply BUILD {target}"
      (platforms.map fun platform => .build target platform buildArgs)
  | _ => .error (.argumentCount "BUILD" i.words)

end Buildfile.Scope
