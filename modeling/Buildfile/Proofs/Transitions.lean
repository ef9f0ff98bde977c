import Buildfile.Proofs.PlanModes
import Buildfile.Proofs.SelectedBody

/-! # Transitions of a body

Each statement of a body takes one state to the next. Its transition keeps both states, so what was
attempted on account of the statement can be told apart from what came before it.
-/

namespace Buildfile

/-- A statement with the states before and after it. -/
structure Transition where
  statement : Statement
  before : State
  after : State

namespace Transition

/-- What was attempted on account of the statement. -/
def attempts (x : Transition) : List Attempt := x.after.attempts.drop x.before.attempts.length

def Succeeded (x : Transition) : Prop := x.after.ignores = false

def keyword (x : Transition) : Keyword := x.statement.keyword

end Transition

namespace Session
variable {s : Session} {σ : State}

def transition (s : Session) (σ : State) (t : Statement) : Transition := ⟨t, σ, s.read σ t⟩

def transitions (s : Session) (σ : State) : List Statement → List Transition
  | [] => []
  | t :: ts => s.transition σ t :: s.transitions (s.read σ t) ts

/-! ## The ends of a transition -/

/-- The ways in which a statement can end. -/
inductive Ends (s : Session) (x : Transition) : Prop
  | silent (stopped : x.after.ignores = true) (attempts : x.attempts = [])
  | failed (i : Invocation) (p : Plan) (before : List Call) (call : Call) (after : List Call)
      (failure : Failure) (read : x.before.ignores = false)
      (invocation : x.statement.invocation = .ok i) (plan : (s.scope x.before).plan i = .ok p)
      (calls : p.calls = before ++ call :: after) (stopped : x.after.ignores = true)
      (attempts : x.attempts = before.map .success ++ [⟨call, some failure⟩])
  | applied (i : Invocation) (p : Plan) (read : x.before.ignores = false)
      (invocation : x.statement.invocation = .ok i) (plan : (s.scope x.before).plan i = .ok p)
      (succeeded : x.Succeeded) (block : x.after.block = p.block)
      (pushOnly : x.after.pushOnly = (x.before.pushOnly || p.push))
      (attempts : x.attempts = p.calls.map .success)

theorem read_of_ignores (h : σ.ignores = true) (t : Statement) :
    s.read σ t = σ.note .trace s!"{t.text} at {t.range.text}" := if_pos h

theorem read_of_not_ignores (h : σ.ignores = false) (t : Statement) :
    s.read σ t = s.perform (σ.note .trace s!"{t.text} at {t.range.text}") t :=
  if_neg (Bool.eq_false_iff.mp h)

theorem transition_ends (s : Session) (σ : State) (t : Statement) :
    s.Ends (s.transition σ t) := by
  cases hi : σ.ignores with
  | true =>
    have hr := read_of_ignores (s := s) hi t
    apply Ends.silent
    · rw [transition, hr]
      exact hi
    · rw [transition, Transition.attempts, hr]
      exact List.drop_length
  | false =>
    obtain ⟨hp, ha⟩ := σ.ignores_eq_false_iff.mp hi
    let τ := σ.note .trace s!"{t.text} at {t.range.text}"
    have hr : s.read σ t = s.perform τ t := read_of_not_ignores hi t
    cases ht : t.invocation with
    | error r =>
      have hf : s.read σ t = τ.fail r.problem := by rw [hr, perform, ht]
      apply Ends.silent
      · rw [transition, hf]
        rfl
      · rw [transition, Transition.attempts, hf]
        exact List.drop_length
    | ok i =>
      have hc : s.read σ t = s.conclude τ i := by rw [hr, perform, ht]
      rcases s.conclude_cases τ i with
        ⟨r, -, he⟩ | ⟨p, before, call, after, failure, hplan, hcalls, he⟩ | ⟨p, hplan, he⟩
      · apply Ends.silent
        · rw [transition, hc, he]
          rfl
        · rw [transition, Transition.attempts, hc, he]
          exact List.drop_length
      · apply Ends.failed i p before call after failure hi ht hplan hcalls
        · rw [transition, hc, he]
          rfl
        · rw [transition, Transition.attempts, hc, he]
          exact List.drop_left
      · apply Ends.applied i p hi ht hplan
        · rw [Transition.Succeeded, transition, hc, he]
          exact hi
        · rw [transition, hc, he]
          rfl
        · rw [transition, hc, he]
          rfl
        · rw [transition, Transition.attempts, hc, he]
          exact List.drop_left

/-- Whatever is attempted was planned, in this order. -/
theorem Ends.planned {x : Transition} (h : s.Ends x) {a : Attempt} (ha : a ∈ x.attempts) :
    ∃ i p, x.before.ignores = false ∧ x.statement.invocation = .ok i ∧
      (s.scope x.before).plan i = .ok p ∧ x.attempts.map (·.call) <+: p.calls := by
  cases h with
  | silent _ hnone =>
    rw [hnone] at ha
    cases ha
  | failed i p before call after failure hread hinv hplan hcalls _ hatt =>
    refine ⟨i, p, hread, hinv, hplan, after, ?_⟩
    simp [hatt, hcalls, Function.comp_def]
  | applied i p hread hinv hplan _ _ _ hatt =>
    refine ⟨i, p, hread, hinv, hplan, [], ?_⟩
    simp [hatt, Function.comp_def]

/-- A statement without a problem has carried out its plan. -/
theorem Ends.carriedOut {x : Transition} (h : s.Ends x) (hx : x.Succeeded) :
    ∃ i p, x.before.ignores = false ∧ x.statement.invocation = .ok i ∧
      (s.scope x.before).plan i = .ok p ∧ x.after.block = p.block ∧
      x.after.pushOnly = (x.before.pushOnly || p.push) ∧
      x.attempts = p.calls.map .success := by
  cases h with
  | silent hstopped _ => cases hx.symm.trans hstopped
  | failed _ _ _ _ _ _ _ _ _ _ hstopped _ => cases hx.symm.trans hstopped
  | applied i p hread hinv hplan _ hblock hpush hatt =>
    exact ⟨i, p, hread, hinv, hplan, hblock, hpush, hatt⟩

/-! ## Several transitions -/

theorem ignores_read (h : σ.ignores = true) (t : Statement) : (s.read σ t).ignores = true := by
  rw [read_of_ignores h]
  exact h

theorem ignores_of_foldl_read {ts : List Statement} (h : (ts.foldl s.read σ).ignores = false) :
    σ.ignores = false := by
  induction ts generalizing σ with
  | nil => exact h
  | cons t ts ih =>
    cases hi : σ.ignores with
    | false => rfl
    | true =>
      have hr := ignores_read (s := s) hi t
      exact absurd (ih h) (by simp [hr])

theorem attempts_read (s : Session) (σ : State) (t : Statement) :
    (s.read σ t).attempts = σ.attempts ++ (s.transition σ t).attempts := by
  have hpre : σ.attempts <+: (s.read σ t).attempts := by
    cases hi : σ.ignores with
    | true =>
      rw [read_of_ignores hi]
      exact List.prefix_rfl
    | false =>
      let τ := σ.note .trace s!"{t.text} at {t.range.text}"
      have hp : τ.problem = none := (σ.ignores_eq_false_iff.mp hi).1
      rw [read_of_not_ignores hi, perform]
      cases t.invocation with
      | error r => exact List.prefix_rfl
      | ok i => exact s.attempts_prefix_conclude τ i
  exact (List.prefix_iff_eq_append.mp hpre).symm

theorem attempts_foldl_read (s : Session) (σ : State) (ts : List Statement) :
    (ts.foldl s.read σ).attempts = σ.attempts ++ (s.transitions σ ts).flatMap (·.attempts) := by
  induction ts generalizing σ with
  | nil => simp [transitions]
  | cons t ts ih =>
    rw [List.foldl_cons, ih, attempts_read, transitions, List.flatMap_cons, List.append_assoc]

theorem map_statement_transitions (s : Session) (σ : State) (ts : List Statement) :
    (s.transitions σ ts).map (·.statement) = ts := by
  induction ts generalizing σ with
  | nil => rfl
  | cons t ts ih =>
    rw [transitions, List.map_cons, ih]
    rfl

/-- A transition starts where the statements before it end. -/
theorem transitions_eq_append {ts : List Statement} {before after : List Transition}
    {x : Transition} (h : s.transitions σ ts = before ++ x :: after) :
    ∃ us t vs, ts = us ++ t :: vs ∧ before = s.transitions σ us ∧
      x = s.transition (us.foldl s.read σ) t := by
  induction ts generalizing σ before with
  | nil => exact absurd h (by simp [transitions])
  | cons t ts ih =>
    rw [transitions] at h
    cases before with
    | nil =>
      obtain ⟨rfl, -⟩ := List.cons.inj h
      exact ⟨[], t, ts, rfl, rfl, rfl⟩
    | cons y before =>
      obtain ⟨rfl, hrest⟩ := List.cons.inj h
      obtain ⟨us, u, vs, rfl, rfl, rfl⟩ := ih hrest
      exact ⟨t :: us, u, vs, rfl, rfl, rfl⟩

theorem exists_of_mem_transitions {ts : List Statement} {x : Transition}
    (h : x ∈ s.transitions σ ts) :
    ∃ us t vs, ts = us ++ t :: vs ∧ x = s.transition (us.foldl s.read σ) t := by
  obtain ⟨before, after, happend⟩ := List.append_of_mem h
  obtain ⟨us, t, vs, hts, -, hx⟩ := transitions_eq_append happend
  exact ⟨us, t, vs, hts, hx⟩

/-! ## The requested body -/

/-- The transitions of the statements of the requested body. -/
def requestedTransitions (s : Session) (d : Document) : List Transition :=
  s.transitions (s.step (s.start d.names) .enterBody) (d.selected s.settings.target).statements

theorem idle_of_exitBody (hi : σ.ignores = false) (hx : (s.step σ .exitBody).problem = none) :
    σ.block = .idle := by
  rw [step_of_not_ignores hi, act] at hx
  cases hb : σ.block with
  | idle => rfl
  | awaitingRun setup =>
    rw [hb] at hx
    cases hx
  | ran =>
    rw [hb] at hx
    cases hx

/-- The body of an interpretation without a problem is read to its end, where no block is open. -/
theorem foldl_read_of_outcome {d : Document} (h : (s.interpret d).outcome = .ok ()) :
    let τ := (d.selected s.settings.target).statements.foldl s.read
      (s.step (s.start d.names) .enterBody)
    τ.ignores = false ∧ τ.block = .idle := by
  intro τ
  obtain ⟨hstart, hp⟩ := outcome_interpret h
  have hx : (s.step τ .exitBody).problem = none := hp
  have hτ : τ.problem = none := by
    rcases s.step_exitBody_cases τ with he | ⟨p, he⟩
    · rwa [he] at hx
    · rw [he] at hx
      cases hx
  have hsel : τ.selection = (s.start d.names).selection := by
    rw [selection_foldl_read, step_enterBody]
  have hi : τ.ignores = false := by
    rw [State.ignores_eq_false_iff, hsel]
    exact ⟨hτ, ((State.ignores_eq_false_iff _).mp hstart).2⟩
  exact ⟨hi, idle_of_exitBody hi hx⟩

theorem attempts_interpret_eq (s : Session) (d : Document) :
    (s.interpret d).attempts =
      (s.start d.names).attempts ++ (s.requestedTransitions d).flatMap (·.attempts) := by
  have he : (s.step (s.start d.names) .enterBody).attempts = (s.start d.names).attempts := by
    rw [step_enterBody]
  have hx (τ : State) : (s.step τ .exitBody).attempts = τ.attempts := by
    rcases s.step_exitBody_cases τ with h | ⟨p, h⟩ <;> rw [h]
    rfl
  rw [attempts_interpret, readBody, hx, attempts_foldl_read, he, requestedTransitions]

end Session
end Buildfile
