import Buildfile.Call

/-! # Blocks that run a command beside a container daemon

A block is opened with a setup, hands that setup to exactly one command, and is closed after it.
Blocks do not nest. An action that is refused leaves the block as it is.
-/

namespace Buildfile

inductive DockerBlock where
  /-- No block is open. -/
  | idle
  /-- A block is open and its command is still to come. -/
  | awaitingRun (setup : DockerSetup)
  /-- A block is open and its command has come. -/
  | ran
deriving DecidableEq, Repr

namespace DockerBlock

inductive Fault where
  | nested
  | secondRun
  | runOutside
  | endOutside
  | noRun
  | noEnd
deriving DecidableEq, Repr

def Fault.message : Fault → String
  | nested => "cannot use WITH DOCKER within WITH DOCKER"
  | secondRun => "only one RUN command allowed in WITH DOCKER"
  | runOutside => "RUN is not inside a WITH DOCKER block"
  | endOutside => "END can only be used to end a WITH DOCKER clause"
  | noRun => "no RUN command found in WITH DOCKER"
  | noEnd => "no matching END found for WITH DOCKER"

def isOpen : DockerBlock → Bool
  | idle => false
  | _ => true

def start (b : DockerBlock) (setup : DockerSetup) : Except Fault DockerBlock :=
  match b with
  | idle => .ok (awaitingRun setup)
  | _ => .error .nested

def takeSetup : DockerBlock → Except Fault (DockerSetup × DockerBlock)
  | awaitingRun setup => .ok (setup, ran)
  | ran => .error .secondRun
  | idle => .error .runOutside

def close : DockerBlock → Except Fault DockerBlock
  | ran => .ok idle
  | awaitingRun _ => .error .noRun
  | idle => .error .endOutside

/-- No block may be open where a body ends. -/
def ensureClosed (b : DockerBlock) : Except Fault Unit :=
  if b.isOpen then .error .noEnd else .ok ()

inductive Action where
  | start (setup : DockerSetup)
  | take
  | close
  | ensureClosed
deriving DecidableEq, Repr

/-- The block after an action, and the setup if one is handed out. -/
def attempt (b : DockerBlock) : Action → Except Fault (Option DockerSetup × DockerBlock)
  | .start setup => (b.start setup).map fun b => (none, b)
  | .take => b.takeSetup.map fun (setup, b) => (some setup, b)
  | .close => b.close.map fun b => (none, b)
  | .ensureClosed => b.ensureClosed.map fun () => (none, b)

/-! ## Actions in place -/

/-- What is done to a block in place. What a refused action has done by then is not undone. -/
abbrev InPlace := ExceptT Fault (StateM DockerBlock)

/-- Hands out the block and leaves an idle one. -/
def moveOut : InPlace DockerBlock := modifyGet fun b => (b, idle)

def startInPlace (setup : DockerSetup) : InPlace Unit := do
  if (← get).isOpen then throw .nested
  set (awaitingRun setup)

/-- The block is moved out first, so that every case has to put it back. -/
def takeInPlace : InPlace DockerSetup := do
  match ← moveOut with
  | awaitingRun setup =>
    set ran
    return setup
  | ran =>
    set ran
    throw .secondRun
  | idle => throw .runOutside

def closeInPlace : InPlace Unit := do
  match ← get with
  | idle => throw .endOutside
  | awaitingRun _ => throw .noRun
  | ran => set idle

def ensureClosedInPlace : InPlace Unit := do
  if (← get).isOpen then throw .noEnd

def Action.inPlace : Action → InPlace (Option DockerSetup)
  | .start setup => do
    startInPlace setup
    return none
  | .take => return some (← takeInPlace)
  | .close => do
    closeInPlace
    return none
  | .ensureClosed => do
    ensureClosedInPlace
    return none

/-- The block and the answer after an action in place. -/
def apply (b : DockerBlock) (a : Action) : DockerBlock × Except Fault (Option DockerSetup) :=
  let (answer, after) := a.inPlace.run.run b
  (after, answer)

/-- In place an accepted action does what it is to do, and a refused one leaves no trace. -/
theorem apply_eq (b : DockerBlock) (a : Action) :
    b.apply a =
      match b.attempt a with
      | .ok (setup, after) => (after, .ok setup)
      | .error fault => (b, .error fault) := by
  cases a <;> cases b <;> rfl

theorem apply_fst_of_error {b : DockerBlock} {a : Action} {fault : Fault}
    (h : (b.apply a).2 = .error fault) : (b.apply a).1 = b := by
  rw [apply_eq] at h ⊢
  cases hattempt : b.attempt a with
  | ok done =>
    rw [hattempt] at h
    cases h
  | error fault => rfl

def applyAll (b : DockerBlock) :
    List Action → List (DockerBlock × Except Fault (Option DockerSetup))
  | [] => []
  | a :: rest => b.apply a :: applyAll (b.apply a).1 rest

end DockerBlock
end Buildfile
