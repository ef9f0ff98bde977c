import Buildfile.Problem
import Buildfile.Settings

/-! # Selection of the requested target

Only the statements of the requested target take effect. The base statements come first and belong
to the target `base`, and each header starts another target, also when the header is refused. The
names `base` and `secrets` are reserved, and the requested target may have only one recipe.
-/

namespace Buildfile

def reservedTargets : List String := [baseTarget, "secrets"]

structure Selection where
  requested : String
  current : String := baseTarget
  /-- The requested target has started. -/
  found : Bool
deriving DecidableEq, Repr

namespace Selection

def ofRequested (requested : String) : Selection :=
  { requested, found := requested == baseTarget }

inductive Fault where
  | reserved
  | declaredTwice (name : String)
deriving DecidableEq, Repr

def Fault.message : Fault → String
  | reserved => "target name cannot be \"base\" or \"secrets\""
  | declaredTwice name => s!"target {name} is declared twice"

def isActive (s : Selection) : Bool := s.current == s.requested

def inBase (s : Selection) : Bool := s.current == baseTarget

/-- Passes a header. The answer tells whether it starts the requested target. -/
def enter (s : Selection) (name : String) : Selection × Except Fault Bool :=
  let s := { s with current := name }
  if name ∈ reservedTargets then (s, .error .reserved)
  else if !s.isActive then (s, .ok false)
  else if s.found then (s, .error (.declaredTwice name))
  else ({ s with found := true }, .ok true)

/-- The current target is the last header, also when that header is refused. -/
@[simp] theorem enter_current (s : Selection) (name : String) :
    (s.enter name).1.current = name := by
  simp only [enter]
  split
  · rfl
  · split
    · rfl
    · split <;> rfl

@[simp] theorem enter_requested (s : Selection) (name : String) :
    (s.enter name).1.requested = s.requested := by
  simp only [enter]
  split
  · rfl
  · split
    · rfl
    · split <;> rfl

def outcome (s : Selection) : Except Problem Unit :=
  if s.found then .ok () else .error (.notFound s.requested)

def enterAll (s : Selection) : List String → List (Selection × Except Fault Bool)
  | [] => []
  | name :: rest => s.enter name :: enterAll (s.enter name).1 rest

end Selection
end Buildfile
