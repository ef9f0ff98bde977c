import Buildfile.Proofs.PlanCalls
import Buildfile.Proofs.RequestedTarget

/-! # The calls of a whole build file

If there is no problem, every call belongs to one statement of the requested body, apart from the
one that lets the body start. The calls come in the order of the statements, and each statement has
made exactly those that its keyword, its flags and its sources ask for.
-/

namespace Buildfile

namespace Transition

def calls (x : Transition) : List Call := x.attempts.map (·.call)

end Transition

theorem State.calls_of_success {σ : State} {calls : List Call}
    (h : σ.attempts = calls.map .success) : σ.calls = calls := by
  rw [State.calls, h, List.filter_eq_self.mpr (by simp), List.map_map]
  exact List.map_id _

namespace Session
variable {s : Session} {σ : State}

/-- A statement without a problem has made the calls that it has to make. -/
theorem Ends.accounts {x : Transition} (h : s.Ends x) (hx : x.Succeeded) :
    x.attempts = x.calls.map .success ∧
      ∃ i, x.statement.invocation = .ok i ∧ (s.scope x.before).Accounts i x.calls := by
  obtain ⟨i, p, -, hinv, hplan, -, -, ha⟩ := h.carriedOut hx
  have hc : x.calls = p.calls := by
    rw [Transition.calls, ha, List.map_map]
    exact List.map_id _
  rw [hc]
  exact ⟨ha, i, hinv, Scope.accounts_of_plan hplan⟩

theorem succeeded_of_mem {ts : List Statement} (hi : (ts.foldl s.read σ).ignores = false)
    {x : Transition} (hx : x ∈ s.transitions σ ts) : s.Ends x ∧ x.Succeeded := by
  obtain ⟨us, t, vs, rfl, rfl⟩ := exists_of_mem_transitions hx
  rw [List.foldl_append, List.foldl_cons] at hi
  exact ⟨s.transition_ends _ t, ignores_of_foldl_read hi⟩

theorem attempts_of_succeeded {xs : List Transition}
    (h : ∀ x ∈ xs, x.attempts = x.calls.map .success) :
    xs.flatMap Transition.attempts = (xs.flatMap Transition.calls).map .success := by
  rw [List.map_flatMap]
  exact List.flatMap_congr h

theorem inherited_of_opening (h : s.opening.problem = none) :
    s.inherited =
      (if s.settings.target = baseTarget then [] else [Call.inheritance]).map .success := by
  unfold inherited
  split
  · rfl
  next ht =>
  cases hr : s.builder.reply s.context [] .inheritance with
  | none => rfl
  | some failure =>
    have hp := (s.problem_opening_iff _).mpr ⟨ht, failure, hr, rfl⟩
    cases h.symm.trans hp

theorem opened_of_outcome {d : Document} (h : (s.interpret d).outcome = .ok ()) : s.Opened d := by
  rcases s.start_outline d with ho | hu
  · exact ho
  · cases hu.ignores.symm.trans (outcome_interpret h).1

/-- Without a problem the calls of an interpretation are the one that lets the requested target
start from the base target and then those of the statements of the requested body, each statement
once and in order. All of them have succeeded, and each statement has made the calls that it has to
make. -/
theorem calls_account_for_statements (s : Session) (d : Document)
    (h : (s.interpret d).outcome = .ok ()) :
    (s.interpret d).calls =
      (if s.settings.target = baseTarget then [] else [.inheritance]) ++
        (s.requestedTransitions d).flatMap Transition.calls ∧
    (s.interpret d).attempts = (s.interpret d).calls.map .success ∧
    (d.requested? s.settings.target).map (·.statements) =
      some ((s.requestedTransitions d).map (·.statement)) ∧
    ∀ x ∈ s.requestedTransitions d, ∃ i, x.statement.invocation = .ok i ∧
      (s.scope x.before).Accounts i x.calls := by
  have hopened := opened_of_outcome h
  have hstart := (State.ignores_eq_false_iff _).mp (outcome_interpret h).1
  rw [hopened.start] at hstart
  have hread := (foldl_read_of_outcome h).1
  have haccounts : ∀ x ∈ s.requestedTransitions d, x.attempts = x.calls.map .success ∧
      ∃ i, x.statement.invocation = .ok i ∧ (s.scope x.before).Accounts i x.calls := by
    intro x hx
    obtain ⟨hends, hsucceeded⟩ := succeeded_of_mem hread hx
    exact hends.accounts hsucceeded
  have hattempts : (s.interpret d).attempts =
      ((if s.settings.target = baseTarget then [] else [Call.inheritance]) ++
        (s.requestedTransitions d).flatMap Transition.calls).map .success := by
    rw [attempts_interpret_eq, hopened.start, attempts_opening, inherited_of_opening hstart.1,
      attempts_of_succeeded fun x hx => (haccounts x hx).1, List.map_append]
  have hcalls := State.calls_of_success hattempts
  refine ⟨hcalls, hcalls ▸ hattempts, ?_, fun x hx => (haccounts x hx).2⟩
  rw [hopened.requested, requestedTransitions, map_statement_transitions]
  rfl

/-- Each artifact and each platform has its own call, and an image without names has none. -/
theorem calls_account_for_statements_build :
    let s : Session := { builder := .scripted id none, settings := { target := "build" } }
    let d := Document.withRecipe {} "build"
      [.ofWords .copy ["+lib/a", "+lib/b", "/srv"], .ofWords .saveImage [],
        .ofWords .build ["--platform", "linux/amd64", "--platform", "linux/arm64", "+test"]]
    (s.interpret d).outcome = .ok () ∧
      (s.interpret d).calls =
        [.inheritance] ++ (s.requestedTransitions d).flatMap Transition.calls ∧
      (s.requestedTransitions d).map (fun x => (x.keyword, x.calls)) =
        [(.copy, [.copyArtifact "+lib/a" "/srv" none [] {} false,
            .copyArtifact "+lib/b" "/srv" none [] {} false]),
          (.saveImage, []),
          (.build, [.build "+test" (some ⟨"linux", "amd64", none⟩) [],
            .build "+test" (some ⟨"linux", "arm64", none⟩) []])] := by
  intro s d
  have hok : (s.interpret d).outcome = .ok () := by decide +kernel
  obtain ⟨hcalls, -⟩ := s.calls_account_for_statements d hok
  rw [if_neg (by decide)] at hcalls
  exact ⟨hok, hcalls, by decide +kernel⟩

end Session
end Buildfile
