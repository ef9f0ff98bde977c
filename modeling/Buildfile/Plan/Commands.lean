import Buildfile.Plan.Basic
import Buildfile.Text.Cut

/-! # Statements that run commands

Commands that run during the build, alone or beside a container daemon, and commands that the
image runs later. The words of a command in shell form are left to the shell, and those of a JSON
array are expanded.
-/

namespace Buildfile.Scope

def runFlags : List Flag :=
  [.switch "push", .switch "privileged", .switch "entrypoint", .switch "with-docker",
    .switch "ssh", .list "secret", .list "mount"]

def commandWords (s : Scope) (i : Invocation) (words : List String) : List String :=
  if i.operands.isArray then s.literals words else words

/-- In an open block the command takes over the setup of the block. -/
def planRun (s : Scope) (i : Invocation) : Except Refusal Plan := do
  let r ← i.read runFlags
  let push := r.switch "push"
  if !push then s.allow i
  if r.arguments.isEmpty then .error .emptyRun
  else
    let args := s.commandWords i r.arguments
    let withShell := !i.operands.isArray
    let secrets := s.references (r.list "secret")
    let mounts := s.literals (r.list "mount")
    if s.block.isOpen then
      if push then .error .pushInBlock
      else
        let (setup, block) ← s.block.takeSetup.mapError .block
        let withEntrypoint := r.switch "entrypoint"
        let setup := { setup with mounts, secrets, withShell, withEntrypoint }
        return { s.issue "with docker run" [.runWithDocker args setup] with block }
    else
      let withDocker := r.switch "with-docker"
      let options : RunOptions :=
        { mounts, secrets, privileged := r.switch "privileged" || withDocker,
          withEntrypoint := r.switch "entrypoint", withDocker, withShell, push,
          withSsh := r.switch "ssh" }
      return { s.issue "run" [.run args options] with push }

def withDockerFlags : List Flag :=
  [.list "compose", .list "service", .list "load", .text "platform", .list "build-arg",
    .list "pull"]

/-- Splits a word at its first equals sign into an image name and a target. Without one the name
is empty. -/
def imageAndTarget (word : String) : String × String :=
  match Text.cutFirst '=' word.toList with
  | some (image, target) => (String.ofList image, String.ofList target)
  | none => ("", word)

/-- The setup that the flags of a block describe. All its images are for one platform. -/
def dockerSetup (s : Scope) (r : Flag.Reading) (platform : Option Platform) : DockerSetup :=
  let buildArgs := s.references (r.list "build-arg")
  { composeFiles := s.literals (r.list "compose"),
    composeServices := s.literals (r.list "service"),
    loads := (r.list "load").map fun word =>
      let (image, target) := imageAndTarget (s.reference word)
      { target, image, platform, buildArgs },
    pulls := (r.list "pull").map fun word => { image := s.literal word, platform } }

def planWithDocker (s : Scope) (i : Invocation) : Except Refusal Plan := do
  s.allow i
  if s.block.isOpen then .error (.block .nested)
  else
    let r ← i.read withDockerFlags
    if !r.arguments.isEmpty then .error (.withDockerArguments r.arguments)
    else
      let platform ← s.platform (r.text "platform")
      let block ← (s.block.start (s.dockerSetup r platform)).mapError .block
      return { block }

def planEnd (s : Scope) (i : Invocation) : Except Refusal Plan := do
  s.allow i
  if !i.words.isEmpty then .error (.endArguments i.text)
  else
    let block ← s.block.close.mapError .block
    return { block }

def planCommand (s : Scope) (context : String) (call : List String → Bool → Call)
    (i : Invocation) : Except Refusal Plan := do
  s.allow i
  return s.issue context [call (s.commandWords i i.words) (!i.operands.isArray)]

def healthcheckFlags : List Flag :=
  [.duration "interval" (.ofSeconds 30), .duration "timeout" (.ofSeconds 30),
    .duration "start-period" .zero, .integer "retries" 3]

/-- The word looks like the start of a JSON array. -/
def startsArray (word : String) : Bool := word.toList.head? == some '['

/-- The command of a health check, or nothing if checks are turned off. -/
def healthcheckCommand (i : Invocation) (arguments : List String) :
    Except Refusal (Option (List String)) :=
  match arguments with
  | [] => .error (.argumentCount "HEALTHCHECK" i.words)
  | ["NONE"] => .ok none
  | ["CMD"] => .error (.argumentCount "HEALTHCHECK CMD" i.words)
  | "CMD" :: command :: rest =>
    if startsArray command then .error (.healthcheckArray i.words) else .ok (some (command :: rest))
  | first :: _ =>
    if startsArray first then .error (.healthcheckArray i.words)
    else .error (.healthcheckShape i.words)

def planHealthcheck (s : Scope) (i : Invocation) : Except Refusal Plan := do
  s.allow i
  let r ← i.read healthcheckFlags
  let command ← healthcheckCommand i r.arguments
  return s.issue "healthcheck"
    [.healthcheck
      { isNone := command.isNone, command := s.literals (command.getD []),
        interval := r.duration "interval", timeout := r.duration "timeout",
        startPeriod := r.duration "start-period", retries := r.integer "retries" }]

end Buildfile.Scope
