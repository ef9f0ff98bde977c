import Buildfile.Builder
import Buildfile.State

/-! # Handlers

A handler checks a statement and applies it, step by step and in place. What it has done by the
time it fails is not undone.
-/

namespace Buildfile

/-- What stays the same during an interpretation. -/
structure Session where
  builder : Builder
  context : ContextStatus := {}
  settings : Settings := {}

abbrev Handler := ExceptT Problem (StateM State)

namespace Handler
variable {α : Type}

def refuse (r : Refusal) : Handler α := throw r.problem

def check : Except Refusal α → Handler α
  | .ok a => return a
  | .error r => refuse r

/-- Acts on the open block, which keeps what was done to it by an action that fails. -/
def onBlock (action : DockerBlock.InPlace α) : Handler α := do
  let (answer, block) := action.run.run (← get).block
  modify fun σ => { σ with block }
  check (answer.mapError .block)

/-- From here on only pushes may follow. -/
def startPushing : Handler Unit := modify fun σ => { σ with pushOnly := true }

end Handler

namespace Session

def deprecation : String :=
  "Deprecation: using SAVE IMAGE with no arguments is no longer necessary and can be safely removed"

def scope (s : Session) (σ : State) : Scope where
  substitute := s.builder.substitute σ.calls
  pushOnly := σ.pushOnly
  block := σ.block
  inBase := σ.selection.inBase

/-! ## Steps that change nothing -/

def look {α : Type} (s : Session) (f : Scope → α) : Handler α := return f (s.scope (← get))

def literal (s : Session) (word : String) : Handler String := s.look (·.literal word)

def literals (s : Session) (words : List String) : Handler (List String) :=
  s.look (·.literals words)

def reference (s : Session) (word : String) : Handler String := s.look (·.reference word)

def references (s : Session) (words : List String) : Handler (List String) :=
  s.look (·.references words)

def allow (s : Session) (i : Invocation) : Handler Unit := do
  Handler.check (← s.look (·.allow i))

def platform (s : Session) (raw : String) : Handler (Option Platform) := do
  Handler.check (← s.look (·.platform raw))

/-! ## Steps with an effect -/

/-- Makes a call. The attempt stays on record also if it fails. -/
def ask (s : Session) (context : String) (call : Call) : Handler Unit := do
  let σ ← get
  let answer := s.builder.reply s.context σ.calls call
  set ({ σ with attempts := σ.attempts ++ [⟨call, answer⟩] } : State)
  match answer with
  | some failure => throw (.builder context failure)
  | none => return

def warnOfDeprecation (s : Session) : Handler Unit := do
  if s.settings.warnDeprecations then modify (·.note .warn deprecation)

/-- Applies a handler. Its problem, if it has one, ends the interpretation. -/
def settle (σ : State) (h : Handler Unit) : State :=
  match h.run.run σ with
  | (.ok (), τ) => τ
  | (.error p, τ) => τ.fail p

end Session
end Buildfile
