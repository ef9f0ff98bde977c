import Buildfile.Handler.Basic
import Buildfile.Plan.Outputs

/-! # Handlers of statements that take results out of a build -/

namespace Buildfile.Session
open Handler

def applySaveArtifact (s : Session) (i : Invocation) : Handler Unit := do
  s.allow i
  let r ← check (i.read Scope.saveArtifactFlags)
  let (source, dest, localDest) ← check (Scope.saveArtifactPaths i r.arguments)
  let source ← s.literal source
  let dest ← s.literal dest
  let localDest ← s.literal localDest
  s.ask "apply SAVE ARTIFACT"
    (.saveArtifact source dest localDest (r.switch "keep-ts") (r.switch "keep-own")
      (r.switch "if-exists"))

def applySaveImage (s : Session) (i : Invocation) : Handler Unit := do
  let r ← check (i.read Scope.saveImageFlags)
  let push := r.switch "push"
  if !push then s.allow i
  if push && r.arguments.isEmpty then refuse (.argumentCount "SAVE IMAGE --push" i.words)
  else
    let cacheFrom ← s.literals (r.list "cache-from")
    let options : SaveImageOptions :=
      { push, insecure := r.switch "insecure", cacheHint := r.switch "cache-hint", cacheFrom }
    let names ← s.literals r.arguments
    if names.isEmpty && !options.cacheHint && options.cacheFrom.isEmpty then
      s.warnOfDeprecation
    else
      s.ask "save image" (.saveImage names options)
      if push then startPushing

/-- Every platform is read before the first build is asked for. -/
def applyBuild (s : Session) (i : Invocation) : Handler Unit := do
  s.allow i
  let r ← check (i.read Scope.buildFlags)
  match r.arguments with
  | [target] =>
    let target ← s.reference target
    let given ← (r.list "platform").mapM s.platform
    let platforms := if given.isEmpty then [none] else given
    let buildArgs ← s.references (r.list "build-arg")
    platforms.forM fun platform =>
      s.ask s!"apply BUILD {target}" (.build target platform buildArgs)
  | _ => refuse (.argumentCount "BUILD" i.words)

end Buildfile.Session
