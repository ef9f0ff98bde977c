import Buildfile.Handler.Basic
import Buildfile.Plan.Commands

/-! # Handlers of statements that run commands -/

namespace Buildfile.Session
open Handler

/-- The words of a command, expanded if they are those of a JSON array. -/
def commandWords (s : Session) (i : Invocation) (words : List String) : Handler (List String) :=
  s.look (·.commandWords i words)

/-- In an open block the setup is taken over before the command is asked for. -/
def applyRun (s : Session) (i : Invocation) : Handler Unit := do
  let r ← check (i.read Scope.runFlags)
  let push := r.switch "push"
  if !push then s.allow i
  if r.arguments.isEmpty then refuse .emptyRun
  else
    let args ← s.commandWords i r.arguments
    let withShell := !i.operands.isArray
    let secrets ← s.references (r.list "secret")
    let mounts ← s.literals (r.list "mount")
    if (← s.look (·.block)).isOpen then
      if push then refuse .pushInBlock
      else
        let setup ← onBlock DockerBlock.takeInPlace
        let withEntrypoint := r.switch "entrypoint"
        s.ask "with docker run"
          (.runWithDocker args { setup with mounts, secrets, withShell, withEntrypoint })
    else
      let withDocker := r.switch "with-docker"
      s.ask "run" <| .run args
        { mounts, secrets, privileged := r.switch "privileged" || withDocker,
          withEntrypoint := r.switch "entrypoint", withDocker, withShell, push,
          withSsh := r.switch "ssh" }
      if push then startPushing

def applyWithDocker (s : Session) (i : Invocation) : Handler Unit := do
  s.allow i
  if (← s.look (·.block)).isOpen then refuse (.block .nested)
  else
    let r ← check (i.read Scope.withDockerFlags)
    if !r.arguments.isEmpty then refuse (.withDockerArguments r.arguments)
    else
      let platform ← s.platform (r.text "platform")
      let setup ← s.look (·.dockerSetup r platform)
      onBlock (DockerBlock.startInPlace setup)

def applyEnd (s : Session) (i : Invocation) : Handler Unit := do
  s.allow i
  if !i.words.isEmpty then refuse (.endArguments i.text)
  else onBlock DockerBlock.closeInPlace

/-- Asks for a call on a command that the image runs later. -/
def applyCommand (s : Session) (context : String) (call : List String → Bool → Call)
    (i : Invocation) : Handler Unit := do
  s.allow i
  let args ← s.commandWords i i.words
  s.ask context (call args (!i.operands.isArray))

def applyHealthcheck (s : Session) (i : Invocation) : Handler Unit := do
  s.allow i
  let r ← check (i.read Scope.healthcheckFlags)
  let command ← check (Scope.healthcheckCommand i r.arguments)
  let words ← s.literals (command.getD [])
  s.ask "healthcheck" <| .healthcheck
    { isNone := command.isNone, command := words, interval := r.duration "interval",
      timeout := r.duration "timeout", startPeriod := r.duration "start-period",
      retries := r.integer "retries" }

end Buildfile.Session
