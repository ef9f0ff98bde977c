import Buildfile.Proofs.Documents

/-! # The first problem is final

Each call is attempted after the calls before it have succeeded, and its answer is the builder's. A
failure ends an interpretation at once, in the middle of a statement too, and so does any other
problem. What comes after the first problem is ignored, in whatever order the events arrive.
-/

namespace Buildfile

theorem Refusal.problem_ne_notFound (r : Refusal) (target : String) :
    r.problem ≠ .notFound target := by
  cases r <;> simp [Refusal.problem]

/-- A refusal is told apart from a failure of the builder by its category. -/
theorem Refusal.category_ne_builder (r : Refusal) : r.problem.category ≠ .builder := by
  cases r <;> simp [Refusal.problem, Problem.category]

namespace Session

/-- Attempts with the answers of the builder, each made after the others have succeeded. -/
inductive Answered (s : Session) : List Attempt → Prop
  | nil : Answered s []
  | snoc {attempts : List Attempt} (earlier : Answered s attempts)
      (succeeded : ∀ a ∈ attempts, a.failure = none) (call : Call) :
      Answered s (attempts ++
        [⟨call, s.builder.reply s.context (attempts.map (·.call)) call⟩])

variable {s : Session} {σ : State}

namespace Answered
variable {attempts : List Attempt}

theorem append_attempt (h : s.Answered attempts) (hs : ∀ a ∈ attempts, a.failure = none)
    (calls : List Call) : s.Answered (attempts ++ s.attempt (attempts.map (·.call)) calls) := by
  induction calls generalizing attempts with
  | nil => simpa [attempt] using h
  | cons call rest ih =>
    have hsnoc := h.snoc hs call
    rw [attempt]
    cases hr : s.builder.reply s.context (attempts.map (·.call)) call with
    | some failure =>
      rw [hr] at hsnoc
      exact hsnoc
    | none =>
      rw [hr] at hsnoc
      have hsucc : ∀ a ∈ attempts ++ [⟨call, none⟩], a.failure = none := by
        intro a ha
        rcases List.mem_append.mp ha with ha | ha
        · exact hs a ha
        · rw [List.mem_singleton.mp ha]
      have hrest := ih hsnoc hsucc
      rwa [List.append_assoc, List.map_append] at hrest

/-- An attempt that fails is the last one, and every attempt has the builder's own answer. -/
theorem split (h : s.Answered attempts) {before after : List Attempt} {a : Attempt}
    (ha : attempts = before ++ a :: after) :
    a.failure = s.builder.reply s.context (before.map (·.call)) a.call ∧
      (a.failure ≠ none → after = []) := by
  induction h generalizing after with
  | nil => exact absurd ha (by simp)
  | @snoc attempts _ hs call ih =>
    rcases after.eq_nil_or_concat with rfl | ⟨rest, b, rfl⟩
    · obtain ⟨rfl, hlast⟩ := List.append_inj' ha rfl
      obtain ⟨rfl, -⟩ := List.cons.inj hlast
      exact ⟨rfl, fun _ => rfl⟩
    · rw [List.concat_eq_append, ← List.cons_append, ← List.append_assoc] at ha
      obtain ⟨rfl, -⟩ := List.append_inj' ha rfl
      have hsucc : a.failure = none := hs a (by simp)
      exact ⟨(ih rfl).1, fun hf => absurd hsucc hf⟩

end Answered

/-! ## One event -/

theorem attempt_prefix_of_reply (history before : List Call) (call : Call) (after : List Call)
    (hf : s.builder.reply s.context (history ++ before) call ≠ none) :
    (s.attempt history (before ++ call :: after)).map (·.call) <+: before ++ [call] := by
  induction before generalizing history with
  | nil =>
    rw [List.append_nil] at hf
    rw [List.nil_append, attempt]
    cases hr : s.builder.reply s.context history call with
    | some failure => exact List.prefix_rfl
    | none => exact absurd hr hf
  | cons first before ih =>
    rw [List.cons_append, attempt]
    cases s.builder.reply s.context history first with
    | some failure => exact ⟨before ++ [call], rfl⟩
    | none =>
      have hf' : s.builder.reply s.context (history ++ [first] ++ before) call ≠ none := by
        rwa [List.append_assoc]
      exact List.cons_prefix_cons.mpr ⟨rfl, ih _ hf'⟩

/-- A complete statement is refused, or its calls are attempted and their first failure is the
problem. -/
theorem conclude_ends (h : σ.problem = none) (i : Invocation) :
    (∃ r, (s.scope σ).plan i = .error r ∧ s.conclude σ i = σ.fail r.problem) ∨
      ∃ p, (s.scope σ).plan i = .ok p ∧
        (s.conclude σ i).attempts = σ.attempts ++ s.attempt σ.calls p.calls ∧
        (s.conclude σ i).problem =
          ((s.attempt σ.calls p.calls).findSome? (·.failure)).map (.builder p.context) := by
  cases hp : (s.scope σ).plan i with
  | error r => exact .inl ⟨r, rfl, conclude_of_refusal hp⟩
  | ok p =>
    refine .inr ⟨p, rfl, ?_⟩
    rw [conclude_of_plan hp]
    cases (s.attempt σ.calls p.calls).findSome? (·.failure) with
    | some failure => exact ⟨rfl, rfl⟩
    | none => exact ⟨rfl, h⟩

/-- A statement with a plan attempts the calls of its plan. -/
theorem attempts_step_exitStatement (hi : σ.ignores = false) {keyword : Keyword} {text : String}
    {p : Plan} (hplan : (s.scope σ).plan ⟨keyword, text, σ.operands⟩ = .ok p) :
    (s.step σ (.exitStatement keyword text)).attempts =
      σ.attempts ++ s.attempt σ.calls p.calls := by
  have hp : σ.problem = none := (σ.ignores_eq_false_iff.mp hi).1
  rw [step_exitStatement hi]
  rcases conclude_ends (s := s) hp ⟨keyword, text, σ.operands⟩ with ⟨r, hr, -⟩ | ⟨q, hq, hatt, -⟩
  · cases hplan.symm.trans hr
  · obtain rfl : p = q := Except.ok.inj (hplan.symm.trans hq)
    exact hatt

/-- An event refuses something, or it attempts some calls and their first failure is the problem. -/
def Reacts (s : Session) (σ τ : State) : Prop :=
  (∃ r : Refusal, τ.problem = some r.problem ∧ τ.attempts = σ.attempts) ∨
    ∃ context calls, τ.attempts = σ.attempts ++ s.attempt σ.calls calls ∧
      τ.problem = ((s.attempt σ.calls calls).findSome? (·.failure)).map (.builder context)

theorem reacts_of_quiet {τ : State} (hp : τ.problem = none) (ha : τ.attempts = σ.attempts) :
    s.Reacts σ τ :=
  .inr ⟨"", [], by simp [ha, attempt], by simp [hp, attempt]⟩

theorem reacts_begin (h : σ.problem = none) (name : String) : s.Reacts σ (s.begin σ name) := by
  refine .inr ⟨"apply implicit FROM +base", [.inheritance], ?_, ?_⟩
  · rw [begin_attempts, attempt]
    cases s.builder.reply s.context σ.calls .inheritance <;> rfl
  · rw [begin, attempt]
    cases s.builder.reply s.context σ.calls .inheritance with
    | some failure => rfl
    | none => exact h

theorem reacts_act (h : σ.problem = none) (e : Event) (he : ∀ name, e ≠ .header name) :
    s.Reacts σ (s.act σ e) := by
  cases e with
  | header name => exact absurd rfl (he name)
  | exitBody =>
    rw [act]
    cases σ.block.ensureClosed with
    | ok u => exact reacts_of_quiet h rfl
    | error fault => exact .inl ⟨_, rfl, rfl⟩
  | array text =>
    rw [act]
    cases Json.readStrings text with
    | ok words => exact reacts_of_quiet h rfl
    | error fault => exact reacts_of_quiet h rfl
  | key key =>
    simp only [act]
    cases checkKey key with
    | ok u => exact reacts_of_quiet h rfl
    | error r => exact .inl ⟨r, rfl, rfl⟩
  | exitStatement keyword text =>
    have hp : State.problem { σ with operands := {} } = none := h
    rw [act, complete_eq_conclude]
    rcases conclude_ends (s := s) hp ⟨keyword, text, σ.operands⟩ with
      ⟨r, -, hc⟩ | ⟨p, -, hatt, hprob⟩
    · rw [hc]
      exact .inl ⟨r, rfl, rfl⟩
    · exact .inr ⟨p.context, p.calls, hatt, hprob⟩
  | _ => exact reacts_of_quiet h rfl

theorem reacts_step (h : σ.problem = none) (e : Event) : s.Reacts σ (s.step σ e) := by
  by_cases hh : ∃ name, e = .header name
  · obtain ⟨name, rfl⟩ := hh
    rcases s.step_header_cases σ name with ⟨hp, -⟩ | ⟨fault, hs⟩ | ⟨-, hs⟩ | ⟨-, -, -, hs⟩
    · exact absurd hp (by simp [h])
    · rw [hs]
      exact .inl ⟨_, rfl, rfl⟩
    · rw [hs]
      exact reacts_of_quiet h rfl
    · rw [hs]
      exact reacts_begin h name
  have hn : ∀ name, e ≠ .header name := fun name he => hh ⟨name, he⟩
  cases hi : σ.ignores with
  | true =>
    rw [step_of_ignores hi e hn]
    exact reacts_of_quiet h rfl
  | false =>
    rw [step_of_not_ignores hi e]
    exact reacts_act h e hn

/-! ## Any events -/

/-- What was attempted agrees with the builder and with the problem, if there is one. -/
structure Consistent (s : Session) (σ : State) : Prop where
  answered : s.Answered σ.attempts
  failed : ∀ failure, (∃ a ∈ σ.attempts, a.failure = some failure) ↔
    ∃ context, σ.problem = some (.builder context failure)
  started : ∀ target, σ.problem ≠ some (.notFound target)

theorem Consistent.succeeded (h : s.Consistent σ) (hp : σ.problem = none) :
    ∀ a ∈ σ.attempts, a.failure = none := by
  intro a ha
  cases hf : a.failure with
  | none => rfl
  | some failure =>
    obtain ⟨context, hc⟩ := (h.failed failure).mp ⟨a, ha, hf⟩
    cases hp.symm.trans hc

theorem calls_of_succeeded (h : ∀ a ∈ σ.attempts, a.failure = none) :
    σ.calls = σ.attempts.map (·.call) := by
  rw [State.calls, List.filter_eq_self.mpr]
  exact fun a ha => by rw [h a ha]; rfl

/-- A problem that comes from attempts is the one failure among them. -/
theorem mem_attempt_iff (history calls : List Call) (failure : Failure) :
    (∃ a ∈ s.attempt history calls, a.failure = some failure) ↔
      (s.attempt history calls).findSome? (·.failure) = some failure := by
  rcases s.attempt_cases history calls with h | ⟨before, call, after, found, -, h⟩
  · rw [h, findSome_failure_success]
    simp
  · rw [h, List.findSome?_append, findSome_failure_success]
    simp [or_and_right, exists_or]

theorem consistent_step (h : s.Consistent σ) (e : Event) : s.Consistent (s.step σ e) := by
  cases hp : σ.problem with
  | some p =>
    rw [step_of_problem (by simp [hp])]
    exact h
  | none =>
    have hs := h.succeeded hp
    rcases reacts_step (s := s) hp e with ⟨r, hprob, hatt⟩ | ⟨context, calls, hatt, hprob⟩
    · refine ⟨hatt ▸ h.answered, fun failure => ?_, fun target hn => ?_⟩
      · rw [hatt, hprob]
        constructor
        · rintro ⟨a, ha, hf⟩
          cases (hs a ha).symm.trans hf
        · rintro ⟨context, hc⟩
          exact absurd (congrArg Problem.category (Option.some.inj hc)) r.category_ne_builder
      · rw [hprob] at hn
        exact r.problem_ne_notFound target (Option.some.inj hn)
    · -- The history of the new calls is all that was attempted, since all of it has succeeded.
      rw [calls_of_succeeded hs] at hatt hprob
      refine ⟨hatt ▸ h.answered.append_attempt hs calls, fun failure => ?_, fun target hn => ?_⟩
      · rw [hatt, hprob]
        have hold : ¬∃ a ∈ σ.attempts, a.failure = some failure := by
          rintro ⟨a, ha, hf⟩
          cases (hs a ha).symm.trans hf
        simp only [List.mem_append, or_and_right, exists_or, hold, false_or, mem_attempt_iff,
          Option.map_eq_some_iff, Problem.builder.injEq]
        exact ⟨fun hf => ⟨context, failure, hf, rfl, rfl⟩, fun ⟨_, _, hf, _, he⟩ => he ▸ hf⟩
      · obtain ⟨failure, -, hc⟩ := Option.map_eq_some_iff.mp (hprob.symm.trans hn)
        cases hc

theorem consistent_run (h : s.Consistent σ) (events : List Event) :
    s.Consistent (events.foldl s.step σ) := by
  induction events generalizing σ with
  | nil => exact h
  | cons e events ih => exact ih (consistent_step h e)

theorem consistent_initial (s : Session) : s.Consistent s.initial := by
  have ha : s.initial.attempts = [] := rfl
  have hp : s.initial.problem = none := rfl
  exact ⟨.nil, by simp [ha, hp], by simp [hp]⟩

/-- In any sequence of events, every attempt has the builder's own answer to its call after the
calls before it, and the one that fails is the last of all. There is such an attempt exactly if the
problem is a failure of the builder, and it cuts its statement short. Once an event has met a
problem, which is never a missing target, all later events attempt nothing and leave that problem
as the outcome. -/
theorem first_problem_is_final (s : Session) (events : List Event) :
    let σ := events.foldl s.step s.initial
    (∀ before a after, σ.attempts = before ++ a :: after →
      a.failure = s.builder.reply s.context (before.map (·.call)) a.call ∧
        (a.failure ≠ none → after = [])) ∧
    (∀ failure, (∃ a ∈ σ.attempts, a.failure = some failure) ↔
      ∃ context, σ.problem = some (.builder context failure)) ∧
    (∀ keyword text p before call after, σ.ignores = false →
      (s.scope σ).plan ⟨keyword, text, σ.operands⟩ = .ok p → p.calls = before ++ call :: after →
        s.builder.reply s.context (σ.calls ++ before) call ≠ none →
          (s.step σ (.exitStatement keyword text)).attempts.map (·.call) <+:
            σ.attempts.map (·.call) ++ before ++ [call]) ∧
    ∀ e problem, σ.problem = none → (s.step σ e).problem = some problem →
      (∀ target, problem ≠ .notFound target) ∧
      (∀ context failure, problem = .builder context failure →
        problem.sources = failure.message :: failure.causes ∧
          ∃ a ∈ (s.step σ e).attempts, a.failure = some failure) ∧
      ∀ later : List Event,
        (later.foldl s.step (s.step σ e)).attempts = (s.step σ e).attempts ∧
        (later.foldl s.step (s.step σ e)).outcome = .error problem := by
  intro σ
  have hσ : s.Consistent σ := consistent_run s.consistent_initial events
  refine ⟨fun _ _ _ ha => hσ.answered.split ha, hσ.failed, ?_, ?_⟩
  · intro keyword text p before call after hi hplan hcalls hreply
    have hattempts := attempts_step_exitStatement (s := s) hi hplan
    have hcut := attempt_prefix_of_reply σ.calls before call after hreply
    rw [hattempts, hcalls, List.map_append, List.append_assoc]
    exact (List.prefix_append_right_inj _).mpr hcut
  · intro e problem hp hproblem
    have he := consistent_step hσ e
    refine ⟨fun target hn => ?_, fun context failure hb => ⟨?_, ?_⟩, fun later => ?_⟩
    · exact he.started target (hn ▸ hproblem)
    · rw [hb]
      rfl
    · exact (he.failed failure).mpr ⟨context, hb ▸ hproblem⟩
    · rw [foldl_step_of_problem (by simp [hproblem]), State.outcome, hproblem]
      exact ⟨rfl, rfl⟩

/-- The second of three artifacts is denied: the third is not asked for, and the statement after it
is not applied, nor is a header refused. -/
theorem first_problem_is_final_copy :
    let failure : Failure := ⟨"denied", ["quota"]⟩
    let s : Session :=
      { builder := .scripted id (some ⟨some .copyArtifact, some 2, some failure⟩) }
    let events : List Event := [.enterBody, .enterStatement, .word "+a/x", .word "+b/y",
      .word "+c/z", .word "/srv"]
    let σ := events.foldl s.step s.initial
    let e : Event := .exitStatement .copy "COPY +a/x +b/y +c/z /srv"
    let later : List Event := [.enterStatement, .word "/srv",
      .exitStatement .workdir "WORKDIR /srv", .exitBody, .header "secrets"]
    σ.problem = none ∧
      (s.step σ e).problem = some (.builder "copy artifact" failure) ∧
      (s.step σ e).attempts.length = 2 ∧
      (later.foldl s.step (s.step σ e)).attempts = (s.step σ e).attempts ∧
      (later.foldl s.step (s.step σ e)).outcome = .error (.builder "copy artifact" failure) := by
  intro failure s events σ e later
  have hp : σ.problem = none := by decide
  have he : (s.step σ e).problem = some (.builder "copy artifact" failure) := by decide +kernel
  obtain ⟨-, -, hlater⟩ := (s.first_problem_is_final events).2.2.2 e _ hp he
  exact ⟨hp, he, by decide +kernel, hlater later⟩

end Session
end Buildfile
