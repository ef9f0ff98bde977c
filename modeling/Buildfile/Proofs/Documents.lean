import Buildfile.Proofs.Statements

/-! # Documents read at once

A document is read as its base body and its recipes, each as a header and a body. This leads to the
same state as its events do, up to the operands that are left over. The log takes no part in what
is done, so states that differ only in their logs lead to such states.
-/

namespace Buildfile

namespace State

/-- The state without its log, which no event reads. -/
def unlogged (σ : State) : State := { σ with log := [] }

/-- A view that does not show the log is the same on states that differ in their logs. -/
theorem view_of_unlogged {α : Type} {σ τ : State} (h : σ.unlogged = τ.unlogged) (f : State → α)
    (hf : ∀ ρ : State, f ρ.unlogged = f ρ) : f σ = f τ := by
  rw [← hf σ, h, hf τ]

def under (σ : State) (name : String) : State :=
  { σ with selection := { σ.selection with current := name } }

end State

/-- The call by which the requested target starts from the base target. -/
def Call.inheritance : Call := .fromImage "+base" none []

theorem Selection.enter_eq (x : Selection) (name : String) :
    x.enter name =
      if name ∈ reservedTargets then ({ x with current := name }, .error .reserved)
      else if name ≠ x.requested then ({ x with current := name }, .ok false)
      else if x.found then ({ x with current := name }, .error (.declaredTwice name))
      else ({ x with current := name, found := true }, .ok true) := by
  simp [enter, isActive]

namespace Session

def readRecipe (s : Session) (σ : State) (r : Recipe) : State :=
  s.readBody (s.step (σ.note .trace s!"target header {r.name} at {r.range.text}")
    (.header r.name)) r.body

def readDocument (s : Session) (σ : State) (d : Document) : State :=
  d.recipes.foldl s.readRecipe (if d.base.isEmpty then σ else s.readBody σ d.base)

/-- Passes headers without the bodies that belong to them. -/
def pass (s : Session) (σ : State) (names : List String) : State :=
  names.foldl (fun σ name => s.step σ (.header name)) σ

variable {s : Session} {σ τ : State}

/-! ## Headers -/

/-- The state after the header that starts the requested target. -/
def begin (s : Session) (σ : State) (name : String) : State :=
  let τ := { σ with selection := { σ.selection with current := name, found := true } }
  let τ := τ.note .debug s!"entering target {name}"
  match s.builder.reply s.context σ.calls .inheritance with
  | some failure =>
    ({ τ with attempts := σ.attempts ++ [⟨.inheritance, some failure⟩] } : State).fail
      (.builder "apply implicit FROM +base" failure)
  | none => { τ with attempts := σ.attempts ++ [.success .inheritance] }

theorem begin_attempts (s : Session) (σ : State) (name : String) :
    (s.begin σ name).attempts =
      σ.attempts ++ [⟨.inheritance, s.builder.reply s.context σ.calls .inheritance⟩] := by
  unfold begin
  cases s.builder.reply s.context σ.calls .inheritance <;> rfl

theorem begin_pushOnly (s : Session) (σ : State) (name : String) :
    (s.begin σ name).pushOnly = σ.pushOnly := by
  unfold begin
  cases s.builder.reply s.context σ.calls .inheritance <;> rfl

theorem begin_block (s : Session) (σ : State) (name : String) :
    (s.begin σ name).block = σ.block := by
  unfold begin
  cases s.builder.reply s.context σ.calls .inheritance <;> rfl

theorem begin_selection (s : Session) (σ : State) (name : String) :
    (s.begin σ name).selection = { σ.selection with current := name, found := true } := by
  unfold begin
  cases s.builder.reply s.context σ.calls .inheritance <;> rfl

theorem step_header (h : σ.problem = none) (name : String) :
    s.step σ (.header name) =
      if name ∈ reservedTargets then (σ.under name).fail (Refusal.selection .reserved).problem
      else if name ≠ σ.selection.requested then σ.under name
      else if σ.selection.found then
        (σ.under name).fail (Refusal.selection (.declaredTwice name)).problem
      else s.begin σ name := by
  have hs : s.step σ (.header name) = s.enterTarget σ name := by simp [step, act, h]
  rw [hs, enterTarget, Selection.enter_eq]
  by_cases hr : name ∈ reservedTargets
  · simp only [if_pos hr]
    rfl
  · by_cases hn : name ≠ σ.selection.requested
    · simp only [if_neg hr, if_pos hn]
      rfl
    · simp only [if_neg hr, if_neg hn]
      by_cases hf : σ.selection.found = true
      · simp only [if_pos hf]
        rfl
      · have hc (x : Selection) (l : List LogEntry) :
            State.calls { σ with selection := x, log := l } = σ.calls := rfl
        simp only [if_neg hf, settle_ask, begin, State.note, hc]
        rw [← Call.inheritance]
        cases s.builder.reply s.context σ.calls .inheritance <;> rfl

/-- A header after a problem does nothing, and any other is refused, passed or starts the requested
target. -/
theorem step_header_cases (s : Session) (σ : State) (name : String) :
    (σ.problem.isSome = true ∧ s.step σ (.header name) = σ) ∨
    (∃ fault, s.step σ (.header name) = (σ.under name).fail (Refusal.selection fault).problem) ∨
    (name ≠ σ.selection.requested ∧ s.step σ (.header name) = σ.under name) ∨
    (σ.problem = none ∧ σ.selection.found = false ∧ name = σ.selection.requested ∧
      s.step σ (.header name) = s.begin σ name) := by
  cases hp : σ.problem with
  | some p => exact .inl ⟨rfl, step_of_problem (by simp [hp]) _⟩
  | none =>
    rw [step_header hp]
    by_cases hr : name ∈ reservedTargets
    · exact .inr (.inl ⟨_, if_pos hr⟩)
    rw [if_neg hr]
    by_cases hn : name ≠ σ.selection.requested
    · exact .inr (.inr (.inl ⟨hn, if_pos hn⟩))
    rw [if_neg hn]
    by_cases hf : σ.selection.found = true
    · exact .inr (.inl ⟨_, if_pos hf⟩)
    · rw [if_neg hf]
      exact .inr (.inr (.inr ⟨rfl, Bool.eq_false_iff.mpr hf, Decidable.of_not_not hn, rfl⟩))

/-! ## Reading a document at once -/

theorem step_clear_header (s : Session) (σ : State) (name : String) :
    (s.step σ (.header name)).clear = s.step σ.clear (.header name) := by
  cases h : σ.problem with
  | some p =>
    have hp : σ.problem.isSome = true := by simp [h]
    have hc : σ.clear.problem.isSome = true := hp
    rw [step_of_problem hp, step_of_problem hc]
  | none =>
    have hc : σ.clear.problem = none := h
    have hb : (s.begin σ name).clear = s.begin σ.clear name := by
      have hr : s.builder.reply s.context σ.clear.calls .inheritance =
        s.builder.reply s.context σ.calls .inheritance := rfl
      simp only [begin, hr]
      cases s.builder.reply s.context σ.calls .inheritance <;> rfl
    rw [step_header h, step_header hc]
    simp only [apply_ite State.clear, hb]
    rfl

theorem foldl_visit_recipe (s : Session) (σ : State) (r : Recipe) :
    (r.visits.foldl s.visit σ).clear = s.readRecipe σ.clear r := by
  rw [Recipe.visits, List.foldl_cons, List.foldl_cons, foldl_visit_body, visit, visit,
    step_clear_header]
  rfl

theorem foldl_visit_document (s : Session) (σ : State) (d : Document) :
    (d.visits.foldl s.visit σ).clear = s.readDocument σ.clear d := by
  have hr (rs : List Recipe) (τ : State) :
      ((rs.flatMap Recipe.visits).foldl s.visit τ).clear = rs.foldl s.readRecipe τ.clear := by
    induction rs generalizing τ with
    | nil => rfl
    | cons r rs ih => rw [List.flatMap_cons, List.foldl_append, ih, foldl_visit_recipe,
        List.foldl_cons]
  rw [Document.visits, List.foldl_append, hr, readDocument]
  split
  · rfl
  · rw [foldl_visit_body]

/-! ## What the log has no part in -/

theorem conclude_unlogged (s : Session) (σ : State) (i : Invocation) :
    (s.conclude σ.unlogged i).unlogged = (s.conclude σ i).unlogged := by
  have hs : s.scope σ.unlogged = s.scope σ := rfl
  have hc : σ.unlogged.calls = σ.calls := rfl
  cases hp : (s.scope σ).plan i with
  | error r =>
    rw [conclude_of_refusal hp, conclude_of_refusal (hs ▸ hp)]
    rfl
  | ok p =>
    rw [conclude_of_plan hp, conclude_of_plan (hs ▸ hp), hc]
    cases (s.attempt σ.calls p.calls).findSome? (·.failure) <;> rfl

theorem perform_unlogged (s : Session) (σ : State) (t : Statement) :
    (s.perform σ.unlogged t).unlogged = (s.perform σ t).unlogged := by
  unfold perform
  cases t.invocation with
  | ok i => exact s.conclude_unlogged σ i
  | error r => rfl

theorem read_unlogged (s : Session) (σ : State) (t : Statement) :
    (s.read σ.unlogged t).unlogged = (s.read σ t).unlogged := by
  have hi (m : String) : (σ.unlogged.note .trace m).ignores = σ.ignores := rfl
  have hn (m : String) : (σ.note .trace m).ignores = σ.ignores := rfl
  simp only [read, hi, hn]
  cases h : σ.ignores with
  | true => rfl
  | false =>
    simp only [Bool.false_eq_true, if_false]
    rw [← s.perform_unlogged (σ.unlogged.note .trace _), ← s.perform_unlogged (σ.note .trace _)]
    rfl

theorem step_unlogged_header (s : Session) (σ : State) (name : String) :
    (s.step σ.unlogged (.header name)).unlogged = (s.step σ (.header name)).unlogged := by
  cases h : σ.problem with
  | some p =>
    have hp : σ.problem.isSome = true := by simp [h]
    have hu : σ.unlogged.problem.isSome = true := hp
    rw [step_of_problem hp, step_of_problem hu]
    rfl
  | none =>
    have hu : σ.unlogged.problem = none := h
    have hb : (s.begin σ.unlogged name).unlogged = (s.begin σ name).unlogged := by
      have hr : s.builder.reply s.context σ.unlogged.calls .inheritance =
        s.builder.reply s.context σ.calls .inheritance := rfl
      simp only [begin, hr]
      cases s.builder.reply s.context σ.calls .inheritance <;> rfl
    rw [step_header h, step_header hu]
    simp only [apply_ite State.unlogged, hb]
    rfl

theorem step_unlogged_enterBody (s : Session) (σ : State) :
    (s.step σ.unlogged .enterBody).unlogged = (s.step σ .enterBody).unlogged := by
  have hi : σ.unlogged.ignores = σ.ignores := rfl
  simp only [step, hi]
  split <;> rfl

theorem step_unlogged_exitBody (s : Session) (σ : State) :
    (s.step σ.unlogged .exitBody).unlogged = (s.step σ .exitBody).unlogged := by
  have hi : σ.unlogged.ignores = σ.ignores := rfl
  have hb : σ.unlogged.block = σ.block := rfl
  simp only [step, hi, act, hb]
  split
  · rfl
  · cases σ.block.ensureClosed <;> rfl

/-- Steps that do not read the log do not read it in sequence either. -/
theorem foldl_unlogged {α : Type} {f : State → α → State}
    (hf : ∀ τ x, (f τ.unlogged x).unlogged = (f τ x).unlogged) (h : σ.unlogged = τ.unlogged)
    (xs : List α) : (xs.foldl f σ).unlogged = (xs.foldl f τ).unlogged := by
  induction xs generalizing σ τ with
  | nil => exact h
  | cons x xs ih =>
    rw [List.foldl_cons, List.foldl_cons]
    exact ih (by rw [← hf σ, h, hf τ])

theorem readBody_unlogged (h : σ.unlogged = τ.unlogged) (b : Body) :
    (s.readBody σ b).unlogged = (s.readBody τ b).unlogged := by
  have he : (s.step σ .enterBody).unlogged = (s.step τ .enterBody).unlogged := by
    rw [← step_unlogged_enterBody, h, step_unlogged_enterBody]
  have hr := foldl_unlogged (s.read_unlogged) he b.statements
  rw [readBody, readBody, ← step_unlogged_exitBody, hr, step_unlogged_exitBody]

theorem pass_unlogged (h : σ.unlogged = τ.unlogged) (names : List String) :
    (s.pass σ names).unlogged = (s.pass τ names).unlogged :=
  foldl_unlogged s.step_unlogged_header h names

end Session
end Buildfile
