import Buildfile.Proofs.PlanModes
import Buildfile.Proofs.SelectedBody

/-! # Pushes come last

A stretch of events reaches from one start of a body to the next, where a start counts if it is not
ignored. Within a stretch, no call that does not push follows one that has pushed, in whatever order
the events arrive. A build file has only one stretch with statements in it.
-/

namespace Buildfile

def Attempt.Pushed (a : Attempt) : Prop := a.failure = none ∧ a.call.pushes = true

/-- What has been attempted in a stretch agrees with the mode of the state. -/
structure PushMode (σ : State) (stretch : List Attempt) : Prop where
  mode : σ.pushOnly = true ↔ ∃ a ∈ stretch, a.Pushed
  ordered : stretch.Pairwise fun a b => a.Pushed → b.call.pushes = true

namespace PushMode
variable {s : Session} {σ τ : State} {stretch : List Attempt}

/-- Attempts that push all alike, and do push after a push, continue a stretch. -/
theorem append (h : PushMode σ stretch) {attempts : List Attempt} {push : Bool}
    (hc : ∀ a ∈ attempts, a.call.pushes = push) (hp : σ.pushOnly = true → push = true)
    (hm : τ.pushOnly = true ↔ σ.pushOnly = true ∨ ∃ a ∈ attempts, a.Pushed) :
    PushMode τ (stretch ++ attempts) := by
  constructor
  · rw [hm, h.mode]
    simp only [List.mem_append, or_and_right, exists_or]
  · rw [List.pairwise_append]
    refine ⟨h.ordered, ?_, fun a ha b hb hpushed => ?_⟩
    · apply List.pairwise_of_forall_mem_list
      intro a ha b hb hpushed
      rw [hc b hb, ← hc a ha]
      exact hpushed.2
    · rw [hc b hb]
      exact hp (h.mode.mpr ⟨a, ha, hpushed⟩)

theorem congr (h : PushMode σ stretch) (hm : τ.pushOnly = σ.pushOnly) : PushMode τ stretch :=
  ⟨hm ▸ h.mode, h.ordered⟩

/-- A complete statement continues the stretch with its attempts. -/
theorem conclude (h : PushMode σ stretch) (i : Invocation) :
    ∃ attempts, (s.conclude σ i).attempts = σ.attempts ++ attempts ∧
      PushMode (s.conclude σ i) (stretch ++ attempts) := by
  rcases s.conclude_cases σ i with
    ⟨r, -, hc⟩ | ⟨p, before, call, after, failure, hplan, hcalls, hc⟩ | ⟨p, hplan, hc⟩
  · rw [hc]
    refine ⟨[], by simp, ?_⟩
    rw [List.append_nil]
    exact h.congr rfl
  · have hq := Scope.planned_of_plan hplan
    have hb := hq.pushes_eq_false_of_append hcalls
    rw [hc]
    refine ⟨_, rfl, h.append (fun a ha => ?_) hq.afterPush ?_⟩
    · rw [List.mem_append, List.mem_map, List.mem_singleton] at ha
      rcases ha with ⟨c, hm, rfl⟩ | rfl
      · exact hq.pushes_eq c (by simp [hcalls, hm])
      · exact hq.pushes_eq call (by simp [hcalls])
    · constructor
      · exact Or.inl
      · rintro (hpush | ⟨a, ha, hf, hs⟩)
        · exact hpush
        · rw [List.mem_append, List.mem_map, List.mem_singleton] at ha
          rcases ha with ⟨c, hm, rfl⟩ | rfl
          · exact absurd hs (by simp [hb c hm])
          · cases hf
  · have hq := Scope.planned_of_plan hplan
    rw [hc]
    refine ⟨_, rfl, h.append (fun a ha => ?_) hq.afterPush ?_⟩
    · obtain ⟨c, hm, rfl⟩ := List.mem_map.mp ha
      exact hq.pushes_eq c hm
    · have hmode : (s.applied σ i.text p).pushOnly = (σ.pushOnly || p.push) := rfl
      rw [hmode, Bool.or_eq_true]
      refine or_congr_right ⟨fun hpush => ?_, ?_⟩
      · obtain ⟨c, hcalls⟩ := hq.calls_of_push hpush
        have hm : c ∈ p.calls := by simp [hcalls]
        exact ⟨.success c, List.mem_map_of_mem hm, rfl, (hq.pushes_eq c hm).trans hpush⟩
      · rintro ⟨a, ha, -, hs⟩
        obtain ⟨c, hm, rfl⟩ := List.mem_map.mp ha
        exact (hq.pushes_eq c hm).symm.trans hs

end PushMode

structure Started (σ : State) : Prop where
  active : σ.ignores = false → σ.selection.found = true
  pushed : σ.pushOnly = true → σ.selection.found = true

namespace Session
variable {s : Session} {σ : State}

/-- The attempts of the stretch after an event, given those before it. -/
def extend (s : Session) (σ : State) (stretch : List Attempt) (e : Event) : List Attempt :=
  if e = .enterBody ∧ σ.ignores = false then []
  else stretch ++ (s.step σ e).attempts.drop σ.attempts.length

/-- The attempts of the stretch that events end in. -/
def stretch (s : Session) (σ : State) (earlier : List Attempt) : List Event → List Attempt
  | [] => earlier
  | e :: rest => s.stretch (s.step σ e) (s.extend σ earlier e) rest

/-! ## What an event does to a stretch -/

theorem act_quiet (s : Session) (σ : State) {e : Event} (hh : ∀ name, e ≠ .header name)
    (hx : ∀ keyword text, e ≠ .exitStatement keyword text) :
    (s.act σ e).attempts = σ.attempts ∧ (s.act σ e).selection = σ.selection ∧
      (s.act σ e).pushOnly = (if e = .enterBody then false else σ.pushOnly) := by
  cases e with
  | header name => exact absurd rfl (hh name)
  | exitStatement keyword text => exact absurd rfl (hx keyword text)
  | exitBody =>
    rw [act]
    cases σ.block.ensureClosed <;> exact ⟨rfl, rfl, rfl⟩
  | array text =>
    rw [act]
    cases Json.readStrings text <;> exact ⟨rfl, rfl, rfl⟩
  | key key =>
    simp only [act]
    cases checkKey key <;> exact ⟨rfl, rfl, rfl⟩
  | _ => exact ⟨rfl, rfl, rfl⟩

theorem attempts_prefix_step (s : Session) (σ : State) (e : Event) :
    σ.attempts <+: (s.step σ e).attempts := by
  have hsame {τ : State} (h : τ.attempts = σ.attempts) : σ.attempts <+: τ.attempts := by simp [h]
  by_cases hh : ∃ name, e = .header name
  · obtain ⟨name, rfl⟩ := hh
    rcases s.step_header_cases σ name with ⟨-, hs⟩ | ⟨fault, hs⟩ | ⟨-, hs⟩ | ⟨-, -, -, hs⟩
    · exact hsame (by rw [hs])
    · exact hsame (by rw [hs]; rfl)
    · exact hsame (by rw [hs]; rfl)
    · rw [hs, begin_attempts]
      exact List.prefix_append _ _
  have hn : ∀ name, e ≠ .header name := fun name he => hh ⟨name, he⟩
  cases hi : σ.ignores with
  | true => exact hsame (by rw [step_of_ignores hi e hn])
  | false =>
    rw [step_of_not_ignores hi e]
    cases e with
    | exitStatement keyword text =>
      let τ : State := { σ with operands := {} }
      rw [act, complete_eq_conclude]
      exact s.attempts_prefix_conclude τ _
    | _ => exact hsame (s.act_quiet σ hn (by simp)).1

theorem extend_eq {earlier attempts : List Attempt} {e : Event}
    (he : ¬(e = .enterBody ∧ σ.ignores = false))
    (ha : (s.step σ e).attempts = σ.attempts ++ attempts) :
    s.extend σ earlier e = earlier ++ attempts := by
  rw [extend, if_neg he, ha, List.drop_left]

theorem pushMode_extend_of_same {earlier : List Attempt} (h : PushMode σ earlier) {e : Event}
    (he : ¬(e = .enterBody ∧ σ.ignores = false)) (ha : (s.step σ e).attempts = σ.attempts)
    (hm : (s.step σ e).pushOnly = σ.pushOnly) :
    PushMode (s.step σ e) (s.extend σ earlier e) := by
  rw [extend_eq he (ha.trans (List.append_nil _).symm), List.append_nil]
  exact h.congr hm

theorem pushMode_extend_header {earlier : List Attempt} (h : PushMode σ earlier)
    (hs : Started σ) (name : String) :
    PushMode (s.step σ (.header name)) (s.extend σ earlier (.header name)) := by
  have he : ¬((.header name : Event) = .enterBody ∧ σ.ignores = false) := by simp
  rcases s.step_header_cases σ name with
    ⟨-, hstep⟩ | ⟨fault, hstep⟩ | ⟨-, hstep⟩ | ⟨-, hf, -, hstep⟩
  · exact pushMode_extend_of_same h he (by rw [hstep]) (by rw [hstep])
  · exact pushMode_extend_of_same h he (by rw [hstep]; rfl) (by rw [hstep]; rfl)
  · exact pushMode_extend_of_same h he (by rw [hstep]; rfl) (by rw [hstep]; rfl)
  · -- The implicit call does not push, but nothing has been pushed before the target starts.
    rw [extend_eq he (by rw [hstep, begin_attempts])]
    have hc : Call.inheritance.pushes = false := rfl
    have hp : ¬σ.pushOnly = true := fun hpush => by simp [hs.pushed hpush] at hf
    refine h.append (by simpa using hc) (fun hpush => absurd hpush hp) ?_
    rw [hstep, begin_pushOnly]
    simp [Attempt.Pushed, hc]

theorem pushMode_extend {earlier : List Attempt} (h : PushMode σ earlier) (hs : Started σ)
    (e : Event) : PushMode (s.step σ e) (s.extend σ earlier e) := by
  by_cases hh : ∃ name, e = .header name
  · obtain ⟨name, rfl⟩ := hh
    exact pushMode_extend_header h hs name
  have hn : ∀ name, e ≠ .header name := fun name he => hh ⟨name, he⟩
  cases hi : σ.ignores with
  | true =>
    have hstep : s.step σ e = σ := step_of_ignores hi e hn
    exact pushMode_extend_of_same h (by simp [hi]) (by rw [hstep]) (by rw [hstep])
  | false =>
    have hstep : s.step σ e = s.act σ e := step_of_not_ignores hi e
    by_cases hx : ∃ keyword text, e = .exitStatement keyword text
    · obtain ⟨keyword, text, rfl⟩ := hx
      have hc : PushMode { σ with operands := {} } earlier := h.congr rfl
      obtain ⟨attempts, ha, hm⟩ := hc.conclude (s := s) ⟨keyword, text, σ.operands⟩
      rw [← complete_eq_conclude] at ha hm
      rw [extend_eq (by simp) (by rw [hstep, act, ha]), hstep, act]
      exact hm
    · have hx' : ∀ keyword text, e ≠ .exitStatement keyword text :=
        fun keyword text he => hx ⟨keyword, text, he⟩
      obtain ⟨ha, -, hm⟩ := s.act_quiet σ hn hx'
      by_cases he : e = .enterBody
      · rw [extend, if_pos ⟨he, hi⟩]
        have hq : ¬(s.step σ e).pushOnly = true := by rw [hstep, hm, if_pos he]; simp
        exact ⟨by simp [hq], List.Pairwise.nil⟩
      · rw [if_neg he] at hm
        exact pushMode_extend_of_same h (by simp [he]) (by rw [hstep, ha]) (by rw [hstep, hm])

theorem started_step_header (hs : Started σ) (name : String) :
    Started (s.step σ (.header name)) := by
  rcases s.step_header_cases σ name with
    ⟨-, hstep⟩ | ⟨fault, hstep⟩ | ⟨hn, hstep⟩ | ⟨-, -, -, hstep⟩
  · rw [hstep]
    exact hs
  · rw [hstep]
    refine ⟨fun hi => ?_, hs.pushed⟩
    cases hi
  · have hi := s.ignores_step_header hn
    rw [hstep] at hi ⊢
    refine ⟨fun hi' => ?_, hs.pushed⟩
    cases hi.symm.trans hi'
  · rw [hstep]
    have hf : (s.begin σ name).selection.found = true := by rw [begin_selection]
    exact ⟨fun _ => hf, fun _ => hf⟩

theorem started_step (hs : Started σ) (e : Event) : Started (s.step σ e) := by
  by_cases hh : ∃ name, e = .header name
  · obtain ⟨name, rfl⟩ := hh
    exact started_step_header hs name
  have hn : ∀ name, e ≠ .header name := fun name he => hh ⟨name, he⟩
  cases hi : σ.ignores with
  | true =>
    rw [step_of_ignores hi e hn]
    exact hs
  | false =>
    have hsel : (s.step σ e).selection = σ.selection := by
      rw [step_of_not_ignores hi e]
      cases e with
      | exitStatement keyword text =>
        rw [act, complete_eq_conclude]
        exact s.selection_conclude _ _
      | _ => exact (s.act_quiet σ hn (by simp)).2.1
    have hf : (s.step σ e).selection.found = true := by rw [hsel, hs.active hi]
    exact ⟨fun _ => hf, fun _ => hf⟩

theorem pushMode_stretch {earlier : List Attempt} (h : PushMode σ earlier) (hs : Started σ)
    (events : List Event) :
    PushMode (events.foldl s.step σ) (s.stretch σ earlier events) ∧
      Started (events.foldl s.step σ) := by
  induction events generalizing σ earlier with
  | nil => exact ⟨h, hs⟩
  | cons e events ih => exact ih (pushMode_extend h hs e) (started_step hs e)

/-- A stretch holds the last attempts of all. -/
theorem stretch_suffix {earlier : List Attempt} (h : earlier <:+ σ.attempts)
    (events : List Event) :
    s.stretch σ earlier events <:+ (events.foldl s.step σ).attempts := by
  induction events generalizing σ earlier with
  | nil => exact h
  | cons e events ih =>
    have hext : s.extend σ earlier e <:+ (s.step σ e).attempts := by
      obtain ⟨front, hfront⟩ := h
      obtain ⟨attempts, ha⟩ := s.attempts_prefix_step σ e
      by_cases he : e = .enterBody ∧ σ.ignores = false
      · rw [extend, if_pos he]
        exact List.nil_suffix
      · rw [extend_eq he ha.symm, ← ha, ← hfront, List.append_assoc]
        exact List.suffix_append _ _
    exact ih hext

theorem pushMode_initial (s : Session) : PushMode s.initial [] := by
  refine ⟨?_, List.Pairwise.nil⟩
  have hm : s.initial.pushOnly = false := rfl
  simp [hm]

theorem started_initial (s : Session) : Started s.initial := by
  refine ⟨fun hi => ?_, fun hm => by cases hm⟩
  have ha := ((State.ignores_eq_false_iff _).mp hi).2
  exact beq_iff_eq.mpr (beq_iff_eq.mp ha).symm

/-! ## After a push -/

/-- After a push a statement that does not ask for one is a problem and attempts nothing. -/
theorem step_exitStatement_of_pushOnly (hi : σ.ignores = false) (hm : σ.pushOnly = true)
    {keyword : Keyword} {text : String}
    (ha : (Invocation.mk keyword text σ.operands).asksPush = false) :
    (s.step σ (.exitStatement keyword text)).problem.isSome = true ∧
      (s.step σ (.exitStatement keyword text)).attempts = σ.attempts := by
  rw [step_of_not_ignores hi, act, complete_eq_conclude]
  have hno {p : Plan}
      (hplan : (s.scope { σ with operands := {} }).plan ⟨keyword, text, σ.operands⟩ = .ok p) :
      False := by
    have hq := Scope.planned_of_plan hplan
    have hpush := hq.push_eq.symm.trans (hq.afterPush hm)
    exact absurd hpush (by simp [ha])
  rcases s.conclude_cases _ ⟨keyword, text, σ.operands⟩ with
    ⟨r, -, hc⟩ | ⟨p, _, _, _, _, hplan, -, -⟩ | ⟨p, hplan, -⟩
  · rw [hc]
    exact ⟨rfl, rfl⟩
  · exact (hno hplan).elim
  · exact (hno hplan).elim

theorem pushOnly_of_step_header (hp : σ.problem = none) {name text : String}
    (hstep : (s.step σ (.header name)).problem = some (Refusal.afterPush text).problem) :
    σ.pushOnly = true := by
  rcases s.step_header_cases σ name with ⟨-, hs⟩ | ⟨fault, hs⟩ | ⟨-, hs⟩ | ⟨-, -, -, hs⟩
  · rw [hs] at hstep
    cases hp.symm.trans hstep
  · rw [hs] at hstep
    cases Refusal.eq_afterPush_of_problem (Option.some.inj hstep)
  · rw [hs] at hstep
    cases hp.symm.trans hstep
  · rw [hs, begin] at hstep
    cases hreply : s.builder.reply s.context σ.calls .inheritance with
    | none =>
      rw [hreply] at hstep
      cases hp.symm.trans hstep
    | some failure =>
      rw [hreply] at hstep
      cases hstep

theorem pushOnly_of_conclude (hp : σ.problem = none) {i : Invocation} {text : String}
    (h : (s.conclude σ i).problem = some (Refusal.afterPush text).problem) : σ.pushOnly = true := by
  rcases s.conclude_cases σ i with ⟨r, hplan, hc⟩ | ⟨p, _, _, _, _, -, -, hc⟩ | ⟨p, -, hc⟩
  · rw [hc] at h
    exact Scope.pushOnly_of_plan hplan (Option.some.inj h)
  · rw [hc] at h
    cases h
  · rw [hc] at h
    cases hp.symm.trans h

/-- Only what follows a push is refused for following a push. -/
theorem pushOnly_of_step (hp : σ.problem = none) {e : Event} {text : String}
    (hstep : (s.step σ e).problem = some (Refusal.afterPush text).problem) :
    σ.pushOnly = true := by
  have hr {r : Refusal} (h : some r.problem = some (Refusal.afterPush text).problem) :
      r = .afterPush text := Refusal.eq_afterPush_of_problem (Option.some.inj h)
  by_cases hh : ∃ name, e = .header name
  · obtain ⟨name, rfl⟩ := hh
    exact pushOnly_of_step_header hp hstep
  have hn : ∀ name, e ≠ .header name := fun name he => hh ⟨name, he⟩
  cases hi : σ.ignores with
  | true =>
    rw [step_of_ignores hi e hn] at hstep
    cases hp.symm.trans hstep
  | false =>
    rw [step_of_not_ignores hi e] at hstep
    cases e with
    | header name => exact absurd rfl (hn name)
    | exitStatement keyword text' =>
      rw [act, complete_eq_conclude] at hstep
      have hclear : ({ σ with operands := {} } : State).problem = none := hp
      have hpush := pushOnly_of_conclude hclear hstep
      exact hpush
    | exitBody =>
      rw [act] at hstep
      cases hb : σ.block.ensureClosed with
      | ok u =>
        rw [hb] at hstep
        cases hp.symm.trans hstep
      | error fault =>
        rw [hb] at hstep
        cases hr hstep
    | key key =>
      simp only [act] at hstep
      cases hk : checkKey key with
      | ok u =>
        rw [hk] at hstep
        cases hp.symm.trans hstep
      | error r =>
        rw [hk] at hstep
        obtain ⟨-, rfl⟩ := checkKey_eq_error_iff.mp hk
        cases hr hstep
    | array text' =>
      rw [act] at hstep
      cases hj : Json.readStrings text' with
      | ok words =>
        rw [hj] at hstep
        cases hp.symm.trans hstep
      | error fault =>
        rw [hj] at hstep
        cases hp.symm.trans hstep
    | _ => cases hp.symm.trans hstep

/-! ## Whole interpretations -/

theorem pushMode_perform (h : PushMode σ σ.attempts) (t : Statement) :
    PushMode (s.perform σ t) (s.perform σ t).attempts := by
  unfold perform
  cases t.invocation with
  | ok i =>
    obtain ⟨attempts, ha, hm⟩ := h.conclude (s := s) i
    rw [ha]
    exact hm
  | error r => exact h.congr rfl

theorem pushMode_readBody (h : PushMode σ σ.attempts) (hm : σ.pushOnly = false) (b : Body) :
    PushMode (s.readBody σ b) (s.readBody σ b).attempts := by
  have hr (ts : List Statement) (τ : State) (hτ : PushMode τ τ.attempts) :
      PushMode (ts.foldl s.read τ) (ts.foldl s.read τ).attempts := by
    induction ts generalizing τ with
    | nil => exact hτ
    | cons t ts ih =>
      apply ih
      unfold read
      dsimp only
      split
      · exact hτ.congr rfl
      · next hi =>
        have hn : PushMode (τ.note .trace s!"{t.text} at {t.range.text}") τ.attempts :=
          hτ.congr rfl
        exact pushMode_perform hn t
  have he : PushMode (s.step σ .enterBody) (s.step σ .enterBody).attempts := by
    rw [step_enterBody]
    exact h.congr (by rw [hm, Bool.false_and])
  have hbody := hr b.statements _ he
  rw [readBody]
  rcases s.step_exitBody_cases (b.statements.foldl s.read (s.step σ .enterBody)) with hx | ⟨p, hx⟩
  · rw [hx]
    exact hbody
  · rw [hx]
    exact hbody.congr rfl

theorem pushMode_start (s : Session) (names : List String) :
    PushMode (s.start names) (s.start names).attempts := by
  have hf := s.fresh_start names
  have hc : Call.inheritance.pushes = false := rfl
  constructor
  · rw [hf.pushOnly]
    constructor
    · intro h
      cases h
    · rintro ⟨a, ha, hpushed⟩
      exact absurd hpushed.2 (by simp [hf.attempts a ha, hc])
  · apply List.pairwise_of_forall_mem_list
    intro a ha b _ hpushed
    exact absurd hpushed.2 (by simp [hf.attempts a ha, hc])

/-- What is not followed by anything but its like comes last. -/
theorem exists_append_of_pairwise {α : Type} {p : α → Bool} {l : List α}
    (h : l.Pairwise fun a b => p a = true → p b = true) :
    ∃ first last, l = first ++ last ∧ (∀ a ∈ first, p a = false) ∧ ∀ a ∈ last, p a = true := by
  induction h with
  | nil => exact ⟨[], [], rfl, by simp, by simp⟩
  | @cons a l ha _ ih =>
    cases hp : p a with
    | true => exact ⟨[], a :: l, rfl, by simp, by simpa [hp] using fun b hb => ha b hb hp⟩
    | false =>
      obtain ⟨first, last, rfl, hfirst, hlast⟩ := ih
      exact ⟨a :: first, last, rfl, by simpa [hp] using hfirst, hlast⟩

theorem calls_interpret (s : Session) (d : Document) :
    ∃ first last, (s.interpret d).calls = first ++ last ∧ (∀ c ∈ first, c.pushes = false) ∧
      ∀ c ∈ last, c.pushes = true := by
  have hm := pushMode_readBody (s := s) (s.pushMode_start d.names) (s.fresh_start _).pushOnly
    (d.selected s.settings.target)
  apply exists_append_of_pairwise
  rw [State.calls, attempts_interpret, List.pairwise_map]
  have hsucc := hm.ordered.filter fun a => a.failure.isNone
  refine hsucc.imp_of_mem fun {a b} ha _ hab hpush => hab ⟨?_, hpush⟩
  exact Option.isNone_iff_eq_none.mp (List.mem_filter.mp ha).2

/-- In any sequence of events, once a call of a stretch has pushed, all later calls of the stretch
push, and any statement that does not ask for a push is a problem and calls nothing. Only a stretch
with such a call has this problem. A build file therefore makes its pushes last. -/
theorem pushes_come_last (s : Session) :
    (∀ events : List Event,
      let σ := events.foldl s.step s.initial
      let stretch := s.stretch s.initial [] events
      stretch <:+ σ.attempts ∧
      stretch.Pairwise (fun a b => a.Pushed → b.call.pushes = true) ∧
      (σ.ignores = false → (∃ a ∈ stretch, a.Pushed) → ∀ keyword text,
        (Invocation.mk keyword text σ.operands).asksPush = false →
          (s.step σ (.exitStatement keyword text)).problem.isSome = true ∧
          (s.step σ (.exitStatement keyword text)).attempts = σ.attempts) ∧
      ∀ e text, σ.problem = none →
        (s.step σ e).problem = some (Refusal.afterPush text).problem →
          ∃ a ∈ stretch, a.Pushed) ∧
    ∀ d : Document, ∃ first last, (s.interpret d).calls = first ++ last ∧
      (∀ c ∈ first, c.pushes = false) ∧ ∀ c ∈ last, c.pushes = true := by
  refine ⟨fun events => ?_, s.calls_interpret⟩
  obtain ⟨hm, -⟩ := pushMode_stretch (s.pushMode_initial) (s.started_initial) events
  have hsuffix := s.stretch_suffix (σ := s.initial) List.nil_suffix events
  refine ⟨hsuffix, hm.ordered, fun hi hpushed keyword text ha => ?_, fun e text hp hstep => ?_⟩
  · exact step_exitStatement_of_pushOnly hi (hm.mode.mpr hpushed) ha
  · exact hm.mode.mp (pushOnly_of_step hp hstep)

/-- After a run that pushes, a plain run is a problem and is not attempted. -/
theorem pushes_come_last_run :
    let s : Session := { builder := .scripted id none }
    let events : List Event := [.enterBody, .enterStatement, .word "--push", .word "make",
      .exitStatement .run "RUN --push make", .enterStatement, .word "make"]
    let σ := events.foldl s.step s.initial
    (∃ a ∈ s.stretch s.initial [] events, a.Pushed) ∧
      (s.step σ (.exitStatement .run "RUN make")).problem.isSome = true ∧
      (s.step σ (.exitStatement .run "RUN make")).attempts = σ.attempts ∧
      σ.calls.length = 1 := by
  intro s events σ
  have hpushed : ∃ a ∈ s.stretch s.initial [] events, a.Pushed := by
    refine ⟨.success (.run ["make"] ⟨[], [], false, false, false, true, true, false⟩), ?_, ?_⟩
    · decide
    · exact ⟨rfl, rfl⟩
  obtain ⟨hp, ha⟩ := ((s.pushes_come_last).1 events).2.2.1 (by decide) hpushed .run "RUN make"
    (by decide)
  exact ⟨hpushed, hp, ha, by decide⟩

end Session
end Buildfile
