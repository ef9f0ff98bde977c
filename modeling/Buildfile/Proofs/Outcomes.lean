import Buildfile.Proofs.Refusals

/-! # The outcome of one statement

A statement with a plan attempts the calls of that plan in order, and a statement without one is
refused. Either outcome is read off the two states around the events of the statement.
-/

namespace Buildfile

namespace Session

/-- The attempts at some calls: each is made after the ones before it have succeeded and has the
builder's own answer, and none is left out unless one has failed. -/
structure InOrder (s : Session) (history calls : List Call) (attempts : List Attempt) : Prop where
  called : attempts.map (·.call) <+: calls
  answered : ∀ before a after, attempts = before ++ a :: after →
    a.failure = s.builder.reply s.context (history ++ before.map (·.call)) a.call ∧
      (a.failure ≠ none → after = [])
  complete : (∀ a ∈ attempts, a.failure = none) → attempts.map (·.call) = calls

/-- Between two states calls were attempted in order, and the first failure among them is the
problem. -/
def Issued (s : Session) (σ τ : State) (context : String) (calls : List Call) : Prop :=
  ∃ attempts, s.InOrder σ.calls calls attempts ∧ τ.attempts = σ.attempts ++ attempts ∧
    τ.problem = (attempts.findSome? (·.failure)).map (.builder context)

/-- Between two states one call was attempted, and the builder's answer to it is the outcome. -/
def Asked (s : Session) (σ τ : State) (context : String) (call : Call) : Prop :=
  let answer := s.builder.reply s.context σ.calls call
  τ.attempts = σ.attempts ++ [⟨call, answer⟩] ∧ τ.problem = answer.map (.builder context)

variable {s : Session} {σ : State}

theorem inOrder_attempt (s : Session) (history calls : List Call) :
    s.InOrder history calls (s.attempt history calls) := by
  induction calls generalizing history with
  | nil => exact ⟨List.prefix_rfl, by simp [attempt], fun _ => rfl⟩
  | cons call rest ih =>
    rw [attempt]
    cases hr : s.builder.reply s.context history call with
    | some failure =>
      refine ⟨⟨rest, rfl⟩, fun before a after h => ?_, fun h => ?_⟩
      · cases before with
        | nil =>
          obtain ⟨rfl, rfl⟩ := List.cons.inj h
          exact ⟨by simp [hr], fun _ => rfl⟩
        | cons b before => simp at h
      · cases h _ (List.mem_singleton_self _)
    | none =>
      obtain ⟨hcalled, hanswered, hcomplete⟩ := ih (history ++ [call])
      refine ⟨List.cons_prefix_cons.mpr ⟨rfl, hcalled⟩, fun before a after h => ?_, fun h => ?_⟩
      · cases before with
        | nil =>
          obtain ⟨rfl, -⟩ := List.cons.inj h
          exact ⟨by simp [hr], fun hf => absurd rfl hf⟩
        | cons b before =>
          obtain ⟨rfl, hrest⟩ := List.cons.inj h
          simpa using hanswered before a after hrest
      · rw [List.map_cons, hcomplete fun a ha => h a (List.mem_cons_of_mem _ ha)]

theorem Issued.asked {τ : State} {context : String} {call : Call}
    (h : s.Issued σ τ context [call]) : s.Asked σ τ context call := by
  obtain ⟨attempts, ⟨hcalled, hanswered, hcomplete⟩, hattempts, hproblem⟩ := h
  cases attempts with
  | nil => cases hcomplete (by simp)
  | cons a rest =>
    obtain ⟨halone, rfl⟩ := eq_singleton_of_called hcalled List.mem_cons_self
    obtain rfl : rest = [] := (List.cons.inj halone).2
    have hfailure := (hanswered [] a [] rfl).1
    rw [List.map_nil, List.append_nil] at hfailure
    rw [Asked, hattempts, hproblem, ← hfailure]
    refine ⟨rfl, ?_⟩
    cases hf : a.failure <;> simp [hf]

theorem issued_events (h : σ.ignores = false) {t : Statement} {i : Invocation}
    (hi : t.invocation = .ok i) {p : Plan} (hp : (s.scope σ).plan i = .ok p) :
    s.Issued σ (t.events.foldl s.step σ) p.context p.calls := by
  have hperform : s.perform σ t = s.conclude σ i := by rw [perform, hi]
  rcases conclude_ends (s := s) (σ.ignores_eq_false_iff.mp h).1 i with
    ⟨r, hr, -⟩ | ⟨q, hq, hattempts, hproblem⟩
  · cases hr.symm.trans hp
  · obtain rfl : q = p := Except.ok.inj (hq.symm.trans hp)
    rw [foldl_step_statement h, hperform]
    exact ⟨_, s.inOrder_attempt σ.calls q.calls, hattempts, hproblem⟩

theorem refused_events (h : σ.ignores = false) {t : Statement} {i : Invocation}
    (hi : t.invocation = .ok i) {r : Refusal} (hr : (s.scope σ).plan i = .error r) :
    Refused σ (t.events.foldl s.step σ) ∧
      (t.events.foldl s.step σ).problem = some r.problem := by
  have hperform : s.perform σ t = σ.fail r.problem := by
    simp only [perform, hi, conclude_of_refusal hr]
  rw [foldl_step_statement h, hperform, refused_operands_iff]
  exact ⟨refused_fail σ r, rfl⟩

end Session
end Buildfile
