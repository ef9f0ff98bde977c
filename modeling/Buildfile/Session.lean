import Buildfile.Event
import Buildfile.Handler.Statement
import Buildfile.Json.Array
import Buildfile.Text.Continuation

/-! # Interpretation of build files

The events of a build file are applied one after another. Only those of the requested target take
effect. A statement gathers its operands from its events and is handled when it is complete. The
first problem is final: no later event changes anything.
-/

namespace Buildfile

namespace Session

/-- Applies a statement to the operands that were gathered. -/
def complete (s : Session) (σ : State) (keyword : Keyword) (text : String) : State :=
  settle { σ with operands := {} } do
    s.handle { keyword, text, operands := σ.operands }
    modify (·.note .debug s!"applied {text}")

/-- Passes a header. The requested target starts from the base target. -/
def enterTarget (s : Session) (σ : State) (name : String) : State :=
  let (selection, entered) := σ.selection.enter name
  let σ := { σ with selection }
  match entered with
  | .error fault => σ.fail (Refusal.selection fault).problem
  | .ok false => σ
  | .ok true =>
    settle (σ.note .debug s!"entering target {name}") <|
      s.ask "apply implicit FROM +base" (.fromImage "+base" none [])

/-- Applies an event that is not ignored. -/
def act (s : Session) (σ : State) : Event → State
  | .header name => s.enterTarget σ name
  | .enterBody => { σ with pushOnly := false }
  | .exitBody =>
    match σ.block.ensureClosed with
    | .ok () => σ
    | .error fault => σ.fail (Refusal.block fault).problem
  | .enterStatement => { σ with operands := {} }
  | .word word => σ.mapOperands fun o => { o with words := o.words ++ [Text.joinLines word] }
  | .array text =>
    match Json.readStrings text with
    | .ok words => σ.mapOperands fun o => { o with words, isArray := true }
    | .error _ => σ
  | .key key =>
    let σ := σ.mapOperands fun o => { o with key }
    match checkKey key with
    | .ok () => σ
    | .error r => σ.fail r.problem
  | .value value => σ.mapOperands fun o => { o with value }
  | .labelKey key => σ.mapOperands fun o => { o with labelKeys := o.labelKeys ++ [key] }
  | .labelValue value => σ.mapOperands fun o => { o with labelValues := o.labelValues ++ [value] }
  | .exitStatement keyword text => s.complete σ keyword text

/-- Applies an event. A header is passed in any target. -/
def step (s : Session) (σ : State) (e : Event) : State :=
  match e with
  | .header _ => if σ.problem.isSome then σ else s.act σ e
  | _ => if σ.ignores then σ else s.act σ e

/-- The first problem is final. -/
theorem step_of_problem {s : Session} {σ : State} (h : σ.problem.isSome = true) (e : Event) :
    s.step σ e = σ := by
  cases e <;> simp [step, State.ignores, h]

def visit (s : Session) (σ : State) : Visit → State
  | .trace message => σ.note .trace message
  | .event e => s.step σ e

def states (s : Session) (σ : State) : List Event → List State
  | [] => []
  | e :: rest => s.step σ e :: s.states (s.step σ e) rest

def initial (s : Session) : State := .initial s.settings

def interpret (s : Session) (d : Document) : State :=
  d.visits.foldl s.visit (s.initial.note .debug s!"interpreting target {s.settings.target}")

def effects (s : Session) (σ : State) (events : List Event) : List Effects :=
  let states := s.states σ events
  (states.zip (σ :: states)).map fun (after, before) => after.since before

end Session

end Buildfile
