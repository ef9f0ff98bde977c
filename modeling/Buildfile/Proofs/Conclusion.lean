import Buildfile.Proofs.HandlerPlans
import Buildfile.Session

/-! # What a complete statement does

A complete statement is refused, or its calls are attempted in order up to the first that fails.
These are its only ends, and each one fixes the whole state that follows.
-/

namespace Buildfile

/-- An attempt that the builder carried out. -/
def Attempt.success (call : Call) : Attempt := ⟨call, none⟩

@[simp] theorem Attempt.success_call (call : Call) : (success call).call = call := rfl

@[simp] theorem Attempt.success_failure (call : Call) : (success call).failure = none := rfl

theorem eq_singleton_of_called {attempts : List Attempt} {call : Call}
    (h : attempts.map (·.call) <+: [call]) {a : Attempt} (ha : a ∈ attempts) :
    attempts = [a] ∧ a.call = call := by
  cases attempts with
  | nil => cases ha
  | cons b rest =>
    obtain ⟨hcall, hrest⟩ := List.cons_prefix_cons.mp h
    obtain rfl : rest = [] := List.map_eq_nil_iff.mp (List.prefix_nil.mp hrest)
    obtain rfl := List.mem_singleton.mp ha
    exact ⟨rfl, hcall⟩

namespace State

@[simp] theorem attempts_fail (σ : State) (p : Problem) : (σ.fail p).attempts = σ.attempts := rfl

/-- A state is read on as long as it has no problem and lies in the requested target. -/
theorem ignores_eq_false_iff (σ : State) :
    σ.ignores = false ↔ σ.problem = none ∧ σ.selection.isActive = true := by
  simp [ignores]

end State

namespace Session

theorem attempt_cases (s : Session) (history calls : List Call) :
    s.attempt history calls = calls.map Attempt.success ∨
      ∃ before call after failure, calls = before ++ call :: after ∧
        s.attempt history calls = before.map Attempt.success ++ [⟨call, some failure⟩] := by
  induction calls generalizing history with
  | nil => exact .inl rfl
  | cons call rest ih =>
    rw [attempt]
    cases s.builder.reply s.context history call with
    | some failure => exact .inr ⟨[], call, rest, failure, rfl, rfl⟩
    | none =>
      rcases ih (history ++ [call]) with h | ⟨before, last, after, failure, hc, h⟩
      · exact .inl (by simp [h, Attempt.success])
      · exact .inr ⟨call :: before, last, after, failure, by simp [hc],
          by simp [h, Attempt.success]⟩

theorem findSome_failure_success (calls : List Call) :
    (calls.map Attempt.success).findSome? (·.failure) = none := by
  simp

/-- Plans a statement and carries its plan out. -/
def conclude (s : Session) (σ : State) (i : Invocation) : State :=
  match s.ends σ ((s.scope σ).plan i) with
  | (.ok (), τ) => τ.note .debug s!"applied {i.text}"
  | (.error p, τ) => τ.fail p

theorem complete_eq_conclude (s : Session) (σ : State) (keyword : Keyword) (text : String) :
    s.complete σ keyword text =
      s.conclude { σ with operands := {} } { keyword, text, operands := σ.operands } := by
  rw [complete, settle, run_bind, s.enacts_handle, conclude]
  rcases s.ends { σ with operands := {} } _ with ⟨_ | u, τ⟩ <;> rfl

/-- The state once the calls of a plan have succeeded. -/
def applied (s : Session) (σ : State) (text : String) (p : Plan) : State :=
  { (s.attempted σ p (p.calls.map .success)).note .debug s!"applied {text}" with
    pushOnly := σ.pushOnly || p.push }

theorem conclude_of_plan {s : Session} {σ : State} {i : Invocation} {p : Plan}
    (h : (s.scope σ).plan i = .ok p) :
    s.conclude σ i =
      match (s.attempt σ.calls p.calls).findSome? (·.failure) with
      | some failure =>
        (s.attempted σ p (s.attempt σ.calls p.calls)).fail (.builder p.context failure)
      | none =>
        { (s.attempted σ p (s.attempt σ.calls p.calls)).note .debug s!"applied {i.text}" with
          pushOnly := σ.pushOnly || p.push } := by
  rw [conclude, h, ends, carryOut]
  cases (s.attempt σ.calls p.calls).findSome? (·.failure) <;> rfl

theorem conclude_of_refusal {s : Session} {σ : State} {i : Invocation} {r : Refusal}
    (h : (s.scope σ).plan i = .error r) : s.conclude σ i = σ.fail r.problem := by
  rw [conclude, h]
  rfl

/-- The three ends of a complete statement, each with the whole state after it. -/
theorem conclude_cases (s : Session) (σ : State) (i : Invocation) :
    (∃ r, (s.scope σ).plan i = .error r ∧ s.conclude σ i = σ.fail r.problem) ∨
    (∃ p before call after failure, (s.scope σ).plan i = .ok p ∧
      p.calls = before ++ call :: after ∧
      s.conclude σ i =
        (s.attempted σ p (before.map .success ++ [⟨call, some failure⟩])).fail
          (.builder p.context failure)) ∨
    (∃ p, (s.scope σ).plan i = .ok p ∧ s.conclude σ i = s.applied σ i.text p) := by
  cases hp : (s.scope σ).plan i with
  | error r => exact .inl ⟨r, rfl, conclude_of_refusal hp⟩
  | ok p =>
    right
    rw [conclude_of_plan hp]
    rcases s.attempt_cases σ.calls p.calls with ha | ⟨before, call, after, failure, hc, ha⟩
    · rw [ha, findSome_failure_success]
      exact .inr ⟨p, rfl, rfl⟩
    · rw [ha, List.findSome?_append, findSome_failure_success]
      exact .inl ⟨p, before, call, after, failure, rfl, hc, rfl⟩

theorem selection_conclude (s : Session) (σ : State) (i : Invocation) :
    (s.conclude σ i).selection = σ.selection := by
  rcases s.conclude_cases σ i with ⟨r, -, hc⟩ | ⟨p, _, _, _, _, -, -, hc⟩ | ⟨p, -, hc⟩ <;>
    rw [hc] <;> rfl

theorem attempts_prefix_conclude (s : Session) (σ : State) (i : Invocation) :
    σ.attempts <+: (s.conclude σ i).attempts := by
  rcases s.conclude_cases σ i with ⟨r, -, hc⟩ | ⟨p, _, _, _, _, -, -, hc⟩ | ⟨p, -, hc⟩
  · rw [hc]
    exact List.prefix_rfl
  · rw [hc]
    exact List.prefix_append _ _
  · rw [hc]
    exact List.prefix_append _ _

/-- What the operands are when a statement is complete has no part in what it does. -/
theorem conclude_operands (s : Session) (σ : State) (o : Operands) (i : Invocation) :
    s.conclude { σ with operands := o } i = { s.conclude σ i with operands := o } := by
  have hs : s.scope { σ with operands := o } = s.scope σ := rfl
  have hc : State.calls { σ with operands := o } = σ.calls := rfl
  cases hp : (s.scope σ).plan i with
  | error r => rw [conclude_of_refusal hp, conclude_of_refusal (hs ▸ hp)]; rfl
  | ok p =>
    rw [conclude_of_plan hp, conclude_of_plan (hs ▸ hp), hc]
    cases (s.attempt σ.calls p.calls).findSome? (·.failure) <;> rfl

end Session
end Buildfile
