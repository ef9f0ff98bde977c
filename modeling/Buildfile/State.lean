import Buildfile.Plan.Basic
import Buildfile.Log

/-! # The state of an interpretation

A state holds the target that is read, the modes that statements leave behind, the operands of the
statement that is being read, the first problem, and all that was done so far.
-/

namespace Buildfile

/-- A call that was made, with its failure if it failed. -/
structure Attempt where
  call : Call
  failure : Option Failure
deriving DecidableEq, Repr

structure State where
  selection : Selection
  /-- A push has succeeded in this body, and only pushes may follow. -/
  pushOnly : Bool := false
  block : DockerBlock := .idle
  /-- The operands of the statement that is being read. -/
  operands : Operands := {}
  problem : Option Problem := none
  attempts : List Attempt := []
  log : List LogEntry := []
deriving DecidableEq, Repr

namespace State

def initial (settings : Settings) : State where
  selection := .ofRequested settings.target

/-- The calls that succeeded. -/
def calls (σ : State) : List Call :=
  (σ.attempts.filter fun a => a.failure.isNone).map (·.call)

def note (σ : State) (level : LogLevel) (message : String) : State :=
  { σ with log := σ.log ++ [⟨level, message⟩] }

/-- Ends the interpretation with a problem. -/
def fail (σ : State) (p : Problem) : State :=
  { σ.note .debug s!"target {σ.selection.current} failed: {p.message}" with problem := some p }

@[simp] theorem problem_fail (σ : State) (p : Problem) : (σ.fail p).problem = some p := rfl

/-- Events are ignored after a problem and outside the requested target. -/
def ignores (σ : State) : Bool := σ.problem.isSome || !σ.selection.isActive

def outcome (σ : State) : Except Problem Unit :=
  match σ.problem with
  | some p => .error p
  | none => σ.selection.outcome

def mapOperands (σ : State) (f : Operands → Operands) : State :=
  { σ with operands := f σ.operands }

end State

structure Effects where
  calls : List Call
  log : List LogEntry
deriving DecidableEq, Repr

/-- The calls that succeeded and the entries that were logged since an earlier state. -/
def State.since (σ earlier : State) : Effects where
  calls := σ.calls.drop earlier.calls.length
  log := σ.log.drop earlier.log.length

end Buildfile
