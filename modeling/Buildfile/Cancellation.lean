/-! # Cancellation

A context tells a builder whether to stop. It is done once it is cancelled or its deadline has
passed. Copies of a context form a family, which is cancelled as a whole.
-/

namespace Buildfile

inductive Deadline where
  | elapsed
  | ahead
deriving DecidableEq, Repr

structure Context where
  family : Nat
  deadline : Option Deadline
deriving DecidableEq, Repr

structure ContextStatus where
  isDone : Bool := false
  hasDeadline : Bool := false
deriving DecidableEq, Repr

/-- Contexts in order of creation, with the families that are cancelled. -/
structure ContextPool where
  contexts : List Context := []
  families : Nat := 0
  cancelled : List Nat := []
deriving DecidableEq, Repr

namespace ContextPool

inductive Action where
  /-- Creates a context without a deadline. -/
  | background
  /-- Creates a context whose deadline is some seconds ahead. -/
  | timeout (seconds : Nat)
  /-- Copies a context. -/
  | clone (index : Nat)
  /-- Cancels a context and its family. -/
  | cancel (index : Nat)
deriving DecidableEq, Repr

/-- Adds the first member of a new family. -/
def found (p : ContextPool) (deadline : Option Deadline) : ContextPool :=
  { p with contexts := p.contexts ++ [⟨p.families, deadline⟩], families := p.families + 1 }

/-- The pool after an action. An index that names no context changes nothing. -/
def apply (p : ContextPool) : Action → ContextPool
  | .background => p.found none
  | .timeout seconds => p.found (some (if seconds = 0 then .elapsed else .ahead))
  | .clone index =>
    match p.contexts[index]? with
    | some c => { p with contexts := p.contexts ++ [c] }
    | none => p
  | .cancel index =>
    match p.contexts[index]? with
    | some c => { p with cancelled := c.family :: p.cancelled }
    | none => p

def status (p : ContextPool) (c : Context) : ContextStatus where
  isDone := p.cancelled.contains c.family || c.deadline == some .elapsed
  hasDeadline := c.deadline.isSome

def statuses (p : ContextPool) : List ContextStatus := p.contexts.map p.status

def applyAll (p : ContextPool) : List Action → List ContextPool
  | [] => []
  | a :: rest => p.apply a :: applyAll (p.apply a) rest

end ContextPool
end Buildfile
