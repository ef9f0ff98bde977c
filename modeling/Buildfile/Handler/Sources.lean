import Buildfile.Handler.Basic
import Buildfile.Plan.Sources

/-! # Handlers of statements that bring files into a build -/

namespace Buildfile.Session
open Handler

def source (s : Session) (word : String) : Handler Source := s.look (·.source word)

def applyFromImage (s : Session) (i : Invocation) : Handler Unit := do
  s.allow i
  let r ← check (i.read Scope.fromImageFlags)
  match r.arguments with
  | [image] =>
    let image ← s.reference image
    let platform ← s.platform (r.text "platform")
    let buildArgs ← s.references (r.list "build-arg")
    s.ask s!"apply FROM {image}" (.fromImage image platform buildArgs)
  | [_, "AS", _] => refuse .imageAlias
  | _ => refuse (.argumentCount "FROM" i.words)

def applyFromDockerfile (s : Session) (i : Invocation) : Handler Unit := do
  s.allow i
  let r ← check (i.read Scope.fromDockerfileFlags)
  match r.arguments with
  | [context] =>
    if r.text "f" ≠ "" then refuse .dockerfilePath
    else
      let context ← s.source context
      let buildArgs ← s.references (r.list "build-arg")
      let platform ← s.platform (r.text "platform")
      let target ← s.literal (r.text "target")
      s.ask "from dockerfile" (.fromDockerfile context.text "" target platform buildArgs)
  | _ => refuse (.argumentCount "FROM DOCKERFILE" i.words)

/-- The sources are counted before the first of them is asked for. -/
def applyCopy (s : Session) (i : Invocation) : Handler Unit := do
  s.allow i
  let r ← check (i.read Scope.copyFlags)
  if r.arguments.length < 2 then refuse (.fewCopyArguments i.words)
  else if r.text "from" ≠ "" then refuse .copyFromImage
  else
    let dest ← s.literal (r.arguments.getLastD "")
    let buildArgs ← s.references (r.list "build-arg")
    let owner ← s.literal (r.text "chown")
    let options : CopyOptions :=
      { isDir := r.switch "dir", keepTimes := r.switch "keep-ts",
        keepOwner := r.switch "keep-own", owner }
    let platform ← s.platform (r.text "platform")
    let sources ← r.arguments.dropLast.mapM s.source
    let artifacts := sources.countP Source.isArtifact
    if artifacts ≠ 0 ∧ artifacts ≠ sources.length then
      refuse (.mixedSources (sources.map Source.text))
    else if artifacts > 0 then
      sources.forM fun source => s.ask "copy artifact"
        (.copyArtifact source.text dest platform buildArgs options (r.switch "if-exists"))
    else if buildArgs ≠ [] then refuse (.buildArgsForFiles i.words)
    else s.ask "copy classical" (.copyFiles (sources.map Source.text) dest options)

def applyGitClone (s : Session) (i : Invocation) : Handler Unit := do
  s.allow i
  let r ← check (i.read Scope.gitCloneFlags)
  match r.arguments with
  | [url, dest] =>
    let url ← s.literal url
    let dest ← s.literal dest
    let branch ← s.literal (r.text "branch")
    s.ask "git clone" (.gitClone url branch dest (r.switch "keep-ts"))
  | _ => refuse (.argumentCount "GIT CLONE" i.words)

end Buildfile.Session
