import Buildfile.Proofs.Documents

/-! # The body of the requested target

Up to its log, an interpretation passes the headers in front of the requested body, reads that body
and passes the other headers. Nothing else in a build file has an effect, so two files with the
same headers and the same requested body are interpreted alike.
-/

namespace Buildfile

/-- No later body can be the requested one: that one has started, or there is a problem. -/
def State.isSettled (σ : State) : Bool := σ.problem.isSome || σ.selection.found

/-- No mode has been entered, and no call was made but to start from the base target. -/
structure State.Fresh (σ : State) : Prop where
  pushOnly : σ.pushOnly = false
  block : σ.block = .idle
  attempts : ∀ a ∈ σ.attempts, a.call = .inheritance

namespace Document

def names (d : Document) : List String := d.recipes.map (·.name)

/-- The body of the requested target, empty if no recipe has its name. -/
def selected (d : Document) (target : String) : Body :=
  if target = baseTarget then d.base else ((d.recipe? target).map (·.body)).getD {}

end Document

namespace Session
variable {s : Session} {σ τ : State}

/-- How many headers come before the body of a target. -/
def lead (target : String) (names : List String) : Nat :=
  if target = baseTarget then 0 else names.findIdx (· == target) + 1

/-- The state in which the body of the requested target starts. -/
def start (s : Session) (names : List String) : State :=
  s.pass s.initial (names.take (lead s.settings.target names))

/-! ## Bodies without effect -/

theorem readBody_of_ignores (h : σ.ignores = true) (b : Body) :
    (s.readBody σ b).unlogged = σ.unlogged := by
  have hr (ts : List Statement) : (ts.foldl s.read σ).unlogged = σ.unlogged := by
    induction ts generalizing σ with
    | nil => rfl
    | cons t ts ih =>
      have hn : s.read σ t = σ.note .trace s!"{t.text} at {t.range.text}" := if_pos h
      rw [List.foldl_cons, hn]
      exact ih h
  have he : s.step σ .enterBody = σ := step_of_ignores h _ (by simp)
  have hi : (b.statements.foldl s.read σ).ignores = true :=
    (State.view_of_unlogged (hr b.statements) State.ignores fun _ => rfl).trans h
  rw [readBody, he, step_of_ignores hi _ (by simp), hr]

theorem selection_perform (s : Session) (σ : State) (t : Statement) :
    (s.perform σ t).selection = σ.selection := by
  unfold perform
  cases t.invocation with
  | error r => rfl
  | ok i => exact s.selection_conclude σ i

theorem selection_foldl_read (s : Session) (σ : State) (ts : List Statement) :
    (ts.foldl s.read σ).selection = σ.selection := by
  induction ts generalizing σ with
  | nil => rfl
  | cons t ts ih =>
    rw [List.foldl_cons, ih, read]
    split
    · rfl
    · next hi =>
      exact s.selection_perform _ t

theorem selection_readBody (s : Session) (σ : State) (b : Body) :
    (s.readBody σ b).selection = σ.selection := by
  have hx (τ : State) : (s.step τ .exitBody).selection = τ.selection := by
    rcases s.step_exitBody_cases τ with h | ⟨p, h⟩ <;> rw [h]
    rfl
  rw [readBody, hx, selection_foldl_read, step_enterBody]

theorem isSettled_readBody (h : σ.isSettled = true) (b : Body) :
    (s.readBody σ b).isSettled = true := by
  cases hp : σ.problem with
  | some p =>
    have hi : σ.ignores = true := by simp [State.ignores, hp]
    exact (State.view_of_unlogged (readBody_of_ignores hi b) State.isSettled fun _ => rfl).trans h
  | none =>
    have hf : σ.selection.found = true := by simpa [State.isSettled, hp] using h
    simp [State.isSettled, selection_readBody, hf]

/-- A header after which no body is read changes nothing but the selection and the problem. -/
theorem step_header_of_isSettled (h : σ.isSettled = true) (name : String) :
    (s.step σ (.header name)).isSettled = true ∧ (s.step σ (.header name)).ignores = true ∧
      (s.step σ (.header name)).attempts = σ.attempts := by
  rcases s.step_header_cases σ name with
    ⟨hp, hs⟩ | ⟨fault, hs⟩ | ⟨hn, hs⟩ | ⟨hp, hf, -, -⟩
  · rw [hs]
    exact ⟨h, by simp [State.ignores, hp], rfl⟩
  · rw [hs]
    exact ⟨rfl, rfl, rfl⟩
  · rw [hs]
    exact ⟨h, by simp [State.ignores, State.under, Selection.isActive, hn], rfl⟩
  · exact absurd h (by simp [State.isSettled, hp, hf])

/-- The requested header settles which body is read and leads into it. -/
theorem step_header_requested (s : Session) (σ : State) :
    (s.step σ (.header σ.selection.requested)).isSettled = true ∧
      ((s.step σ (.header σ.selection.requested)).problem = none →
        (s.step σ (.header σ.selection.requested)).selection.isActive = true) := by
  rcases s.step_header_cases σ σ.selection.requested with
    ⟨hp, hs⟩ | ⟨fault, hs⟩ | ⟨hn, -⟩ | ⟨-, -, -, hs⟩
  · rw [hs]
    exact ⟨by simp [State.isSettled, hp], fun hnone => by simp [hnone] at hp⟩
  · rw [hs]
    exact ⟨rfl, fun hnone => by cases hnone⟩
  · exact absurd rfl hn
  · rw [hs, State.isSettled, begin_selection]
    exact ⟨by simp, fun _ => by simp [Selection.isActive]⟩

theorem ignores_step_header (s : Session) {name : String} (hn : name ≠ σ.selection.requested) :
    (s.step σ (.header name)).ignores = true := by
  rcases s.step_header_cases σ name with ⟨hp, hs⟩ | ⟨fault, hs⟩ | ⟨-, hs⟩ | ⟨-, -, hr, -⟩
  · rw [hs]
    simp [State.ignores, hp]
  · rw [hs]
    rfl
  · rw [hs]
    simp [State.ignores, State.under, Selection.isActive, hn]
  · exact absurd hr hn

theorem requested_step_header (s : Session) (σ : State) (name : String) :
    (s.step σ (.header name)).selection.requested = σ.selection.requested := by
  rcases s.step_header_cases σ name with ⟨-, hs⟩ | ⟨fault, hs⟩ | ⟨-, hs⟩ | ⟨-, -, -, hs⟩
  · rw [hs]
  · rw [hs]
    rfl
  · rw [hs]
    rfl
  · rw [hs, begin_selection]

theorem readRecipe_unlogged (s : Session) (σ : State) (r : Recipe) :
    (s.readRecipe σ r).unlogged = (s.readBody (s.step σ (.header r.name)) r.body).unlogged := by
  apply readBody_unlogged
  rw [← step_unlogged_header, ← s.step_unlogged_header σ]
  rfl

/-- Once the requested target has started or there is a problem, a recipe is read as its header. -/
theorem readRecipe_of_isSettled (h : σ.isSettled = true) (r : Recipe) :
    (s.readRecipe σ r).unlogged = (s.step σ (.header r.name)).unlogged ∧
      (s.readRecipe σ r).isSettled = true := by
  obtain ⟨hs, hi, -⟩ := step_header_of_isSettled (s := s) h r.name
  have hu := (s.readRecipe_unlogged σ r).trans (readBody_of_ignores hi r.body)
  exact ⟨hu, (State.view_of_unlogged hu State.isSettled fun _ => rfl).trans hs⟩

theorem readRecipe_other (s : Session) {r : Recipe} (hn : r.name ≠ σ.selection.requested) :
    (s.readRecipe σ r).unlogged = (s.step σ (.header r.name)).unlogged ∧
      (s.readRecipe σ r).ignores = true ∧
      (s.readRecipe σ r).selection.requested = σ.selection.requested := by
  have hi := ignores_step_header s hn
  have hu := (s.readRecipe_unlogged σ r).trans (readBody_of_ignores hi r.body)
  refine ⟨hu, (State.view_of_unlogged hu State.ignores fun _ => rfl).trans hi, ?_⟩
  exact (State.view_of_unlogged hu (·.selection.requested) fun _ => rfl).trans
    (requested_step_header s σ r.name)

theorem isSettled_readRecipe (s : Session) {r : Recipe} (hn : r.name = σ.selection.requested) :
    (s.readRecipe σ r).isSettled = true := by
  have hb := isSettled_readBody (s := s) (hn ▸ (s.step_header_requested σ).1) r.body
  exact (State.view_of_unlogged (s.readRecipe_unlogged σ r) State.isSettled fun _ => rfl).trans hb

/-- Once the requested target has started or there is a problem, all bodies are without effect. -/
theorem foldl_readRecipe_of_isSettled (h : σ.isSettled = true) (rs : List Recipe) :
    (rs.foldl s.readRecipe σ).unlogged = (s.pass σ (rs.map (·.name))).unlogged := by
  induction rs generalizing σ with
  | nil => rfl
  | cons r rs ih =>
    obtain ⟨hu, hs⟩ := readRecipe_of_isSettled (s := s) h r
    rw [List.foldl_cons, ih hs, pass_unlogged hu]
    rfl

/-! ## The outline of an interpretation -/

/-- Recipes are read as their headers, apart from the body of the first that is requested. -/
theorem foldl_readRecipe (h : σ.ignores = true) (rs : List Recipe) {k : Nat}
    (hk : k = (rs.map (·.name)).findIdx (· == σ.selection.requested) + 1) :
    (rs.foldl s.readRecipe σ).unlogged =
      (s.pass (s.readBody (s.pass σ ((rs.map (·.name)).take k))
        (((rs.find? (·.name == σ.selection.requested)).map (·.body)).getD {}))
        ((rs.map (·.name)).drop k)).unlogged := by
  induction rs generalizing σ k with
  | nil =>
    subst hk
    exact (readBody_of_ignores h {}).symm
  | cons r rs ih =>
    by_cases hn : r.name = σ.selection.requested
    · have hk1 : k = 1 := by simp [hk, hn, List.findIdx_cons]
      rw [List.foldl_cons, foldl_readRecipe_of_isSettled (s.isSettled_readRecipe hn),
        pass_unlogged (s.readRecipe_unlogged σ r)]
      simp [hk1, hn, pass]
    · have hk' : k = (rs.map (·.name)).findIdx (· == σ.selection.requested) + 1 + 1 := by
        simp [hk, beq_eq_false_iff_ne.mpr hn, List.findIdx_cons]
      obtain ⟨hu, hi, hq⟩ := s.readRecipe_other hn
      rw [List.foldl_cons, ih hi (by rw [hq]), hq, hk',
        pass_unlogged (readBody_unlogged (pass_unlogged hu _) _)]
      simp [hn, pass]

theorem ignores_initial (s : Session) (ht : s.settings.target ≠ baseTarget) :
    s.initial.ignores = true := by
  have ha : s.initial.selection.isActive = false := beq_eq_false_iff_ne.mpr (Ne.symm ht)
  simp [State.ignores, ha]

theorem readBody_initial_nil (s : Session) : s.readBody s.initial {} = s.initial := by
  cases h : s.initial.ignores with
  | true =>
    have he : s.step s.initial .enterBody = s.initial := step_of_ignores h _ (by simp)
    rw [readBody, he]
    exact step_of_ignores h _ (by simp)
  | false =>
    have he : s.step s.initial .enterBody = s.initial := step_of_not_ignores h _
    rw [readBody, he]
    exact step_of_not_ignores h _

/-- Whether an empty base body is skipped or read shows in the log at most. -/
theorem base_unlogged (h : σ.unlogged = s.initial.unlogged) (b : Body) :
    (if b.isEmpty then σ else s.readBody σ b).unlogged = (s.readBody s.initial b).unlogged := by
  split
  · next he =>
    rw [Body.isEmpty, List.isEmpty_iff] at he
    obtain rfl : b = {} := by
      cases b
      exact congrArg Body.mk he
    rw [h, readBody_initial_nil]
  · exact readBody_unlogged h b

/-- An interpretation passes the headers up to the requested body, reads it and passes the rest. -/
theorem interpret_outline (s : Session) (d : Document) :
    (s.interpret d).clear.unlogged =
      (s.pass (s.readBody (s.start d.names) (d.selected s.settings.target))
        (d.names.drop (lead s.settings.target d.names))).unlogged := by
  let σ := s.initial.note .debug s!"interpreting target {s.settings.target}"
  have hd : (s.interpret d).clear = s.readDocument σ d := s.foldl_visit_document σ d
  have hb := base_unlogged (show σ.unlogged = s.initial.unlogged from rfl) d.base
  rw [hd, readDocument]
  by_cases ht : s.settings.target = baseTarget
  · have hs : (s.readBody s.initial d.base).isSettled = true := by
      have hf : s.initial.selection.found = true := beq_iff_eq.mpr ht
      exact isSettled_readBody (by simp [State.isSettled, hf]) d.base
    have hs' := (State.view_of_unlogged hb State.isSettled fun _ => rfl).trans hs
    rw [foldl_readRecipe_of_isSettled hs', pass_unlogged hb]
    simp [start, lead, Document.selected, Document.names, ht, pass]
  · have hi := s.ignores_initial ht
    have hu := hb.trans (readBody_of_ignores hi d.base)
    have hi' := (State.view_of_unlogged hu State.ignores fun _ => rfl).trans hi
    have hq := State.view_of_unlogged hu (·.selection.requested) fun _ => rfl
    have ht' : s.initial.selection.requested = s.settings.target := rfl
    rw [foldl_readRecipe hi' d.recipes rfl, hq, ht',
      pass_unlogged (readBody_unlogged (pass_unlogged hu _) _)]
    simp [start, lead, Document.selected, Document.names, Document.recipe?, ht]

/-! ## Around the requested body -/

theorem pass_of_isSettled (h : σ.isSettled = true) (names : List String) :
    (s.pass σ names).attempts = σ.attempts := by
  induction names generalizing σ with
  | nil => rfl
  | cons name names ih =>
    obtain ⟨hs, -, ha⟩ := step_header_of_isSettled (s := s) h name
    exact (ih hs).trans ha

/-- The headers up to the requested one settle which body is read and lead into it. -/
theorem pass_take {names : List String} (h : σ.selection.requested ∈ names) :
    let τ := s.pass σ (names.take (names.findIdx (· == σ.selection.requested) + 1))
    τ.isSettled = true ∧ (τ.problem = none → τ.selection.isActive = true) := by
  induction names generalizing σ with
  | nil => exact absurd h List.not_mem_nil
  | cons name names ih =>
    by_cases hn : name = σ.selection.requested
    · subst hn
      simpa [List.findIdx_cons, pass] using s.step_header_requested σ
    · have hq := requested_step_header s σ name
      have hm : (s.step σ (.header name)).selection.requested ∈ names := by
        rw [hq]
        exact (List.mem_cons.mp h).resolve_left (Ne.symm hn)
      have ht := ih hm
      rw [hq] at ht
      simpa [List.findIdx_cons, beq_eq_false_iff_ne.mpr hn, pass] using ht

theorem pass_of_notMem {names : List String} (h : σ.selection.requested ∉ names) :
    (s.pass σ names).selection.found = σ.selection.found := by
  induction names generalizing σ with
  | nil => rfl
  | cons name names ih =>
    have hn : name ≠ σ.selection.requested := fun hn => h (hn ▸ List.mem_cons_self)
    have hf : (s.step σ (.header name)).selection.found = σ.selection.found := by
      rcases s.step_header_cases σ name with ⟨-, hs⟩ | ⟨fault, hs⟩ | ⟨-, hs⟩ | ⟨-, -, hr, -⟩
      · rw [hs]
      · rw [hs]
        rfl
      · rw [hs]
        rfl
      · exact absurd hr hn
    have hm : (s.step σ (.header name)).selection.requested ∉ names := by
      rw [requested_step_header]
      exact fun hm => h (List.mem_cons_of_mem name hm)
    exact (ih hm).trans hf

/-- The requested body starts in its target, or the requested target is not found. -/
theorem start_cases (s : Session) (d : Document) :
    ((s.start d.names).isSettled = true ∧
        ((s.start d.names).problem = none → (s.start d.names).ignores = false)) ∨
      ((s.start d.names).selection.found = false ∧
        d.names.drop (lead s.settings.target d.names) = []) := by
  by_cases ht : s.settings.target = baseTarget
  · have hf : s.initial.selection.found = true := beq_iff_eq.mpr ht
    have hs : s.start d.names = s.initial := by simp [start, lead, ht, pass]
    have ha : s.initial.selection.isActive = true := beq_iff_eq.mpr ht.symm
    rw [hs]
    exact .inl ⟨by simp [State.isSettled, hf], fun hp => by simp [State.ignores, hp, ha]⟩
  · by_cases hm : s.settings.target ∈ d.names
    · rw [start, lead, if_neg ht]
      obtain ⟨hs, ha⟩ := pass_take (s := s) (σ := s.initial) hm
      exact .inl ⟨hs, fun hp => (State.ignores_eq_false_iff _).mpr ⟨hp, ha hp⟩⟩
    · have hk : d.names.findIdx (· == s.settings.target) = d.names.length := by
        rw [List.findIdx_eq_length]
        exact fun name hn => beq_eq_false_iff_ne.mpr fun he => hm (he ▸ hn)
      have hf : s.initial.selection.found = false := beq_eq_false_iff_ne.mpr ht
      rw [start, lead, if_neg ht, hk, List.take_of_length_le (Nat.le_succ _)]
      exact .inr ⟨(pass_of_notMem (σ := s.initial) hm).trans hf, by simp⟩

/-- Nothing is attempted after the requested body. -/
theorem attempts_interpret (s : Session) (d : Document) :
    (s.interpret d).attempts =
      (s.readBody (s.start d.names) (d.selected s.settings.target)).attempts := by
  have ho := State.view_of_unlogged (s.interpret_outline d) (·.attempts) fun _ => rfl
  apply ho.trans
  rcases s.start_cases d with ⟨hs, -⟩ | ⟨-, hl⟩
  · exact pass_of_isSettled (isSettled_readBody hs _) _
  · rw [hl]
    rfl

theorem pass_of_problem (h : σ.problem.isSome = true) (names : List String) :
    s.pass σ names = σ := by
  induction names with
  | nil => rfl
  | cons name names ih => rw [pass, List.foldl_cons, step_of_problem h, ← pass, ih]

theorem problem_of_pass {names : List String} (h : (s.pass σ names).problem = none) :
    σ.problem = none := by
  cases hp : σ.problem with
  | none => rfl
  | some p =>
    rw [pass_of_problem (by simp [hp])] at h
    cases hp.symm.trans h

theorem outcome_interpret {d : Document} (h : (s.interpret d).outcome = .ok ()) :
    (s.start d.names).ignores = false ∧
      (s.readBody (s.start d.names) (d.selected s.settings.target)).problem = none := by
  have ho := State.view_of_unlogged (s.interpret_outline d) State.outcome fun _ => rfl
  have hok := ho.symm.trans h
  rw [State.outcome] at hok
  split at hok
  · cases hok
  next hp =>
  have hb := problem_of_pass hp
  refine ⟨?_, hb⟩
  rcases s.start_cases d with ⟨-, hi⟩ | ⟨hf, hl⟩
  · apply hi
    cases hs : (s.start d.names).problem with
    | none => rfl
    | some p =>
      have hu := readBody_of_ignores (s := s) (σ := s.start d.names) (by simp [State.ignores, hs])
        (d.selected s.settings.target)
      have hn := (State.view_of_unlogged hu (·.problem) fun _ => rfl).symm.trans hb
      cases hs.symm.trans hn
  · rw [hl, Selection.outcome] at hok
    have hsel := selection_readBody s (s.start d.names) (d.selected s.settings.target)
    rw [pass, List.foldl_nil, hsel, hf] at hok
    cases hok

theorem fresh_step_header (h : σ.Fresh) (name : String) : (s.step σ (.header name)).Fresh := by
  rcases s.step_header_cases σ name with ⟨-, hs⟩ | ⟨fault, hs⟩ | ⟨-, hs⟩ | ⟨-, -, -, hs⟩
  · rw [hs]
    exact h
  · rw [hs]
    exact ⟨h.pushOnly, h.block, h.attempts⟩
  · rw [hs]
    exact ⟨h.pushOnly, h.block, h.attempts⟩
  · rw [hs]
    constructor
    · rw [begin_pushOnly, h.pushOnly]
    · rw [begin_block, h.block]
    · rw [begin_attempts]
      intro a ha
      rcases List.mem_append.mp ha with ha | ha
      · exact h.attempts a ha
      · rw [List.mem_singleton.mp ha]

theorem fresh_start (s : Session) (names : List String) : (s.start names).Fresh := by
  have hp (ns : List String) (σ : State) (h : σ.Fresh) : (s.pass σ ns).Fresh := by
    induction ns generalizing σ with
    | nil => exact h
    | cons name ns ih => exact ih _ (fresh_step_header h name)
  exact hp _ _ ⟨rfl, rfl, fun a ha => by cases ha⟩

/-! ## Non-interference -/

/-- Two build files with the same headers and the same statements of the requested target lead to
the same calls and to the same outcome, whatever else they contain. -/
theorem interpret_eq_of_selected (s : Session) (d e : Document)
    (hn : d.recipes.map (·.name) = e.recipes.map (·.name))
    (hb : (s.settings.target = baseTarget ∧ d.base.statements = e.base.statements) ∨
      (s.settings.target ≠ baseTarget ∧
        (d.recipe? s.settings.target).map (·.body.statements) =
          (e.recipe? s.settings.target).map (·.body.statements))) :
    (s.interpret d).attempts = (s.interpret e).attempts ∧
      (s.interpret d).outcome = (s.interpret e).outcome := by
  have hs : d.selected s.settings.target = e.selected s.settings.target := by
    have hbody (b c : Body) (h : b.statements = c.statements) : b = c := by
      cases b
      cases c
      simp_all
    rcases hb with ⟨ht, h⟩ | ⟨ht, h⟩
    · rw [Document.selected, Document.selected, if_pos ht, if_pos ht, hbody _ _ h]
    · rw [Document.selected, Document.selected, if_neg ht, if_neg ht]
      cases hd : d.recipe? s.settings.target with
      | none => cases he : e.recipe? s.settings.target <;> simp_all
      | some q =>
        cases he : e.recipe? s.settings.target with
        | none => simp_all
        | some r => exact hbody _ _ (by simpa [hd, he] using h)
  have hu : (s.interpret d).clear.unlogged = (s.interpret e).clear.unlogged := by
    have hn' : d.names = e.names := hn
    rw [interpret_outline, interpret_outline, hn', hs]
  exact ⟨State.view_of_unlogged hu (·.attempts) fun _ => rfl,
    State.view_of_unlogged hu (·.outcome) fun _ => rfl⟩

/-- Neither a malformed key nor an unbalanced block of another target has any influence. -/
theorem interpret_eq_of_selected_build :
    let s : Session := { builder := .scripted id none, settings := { target := "build" } }
    let build := Document.withRecipe {} "build" [.ofWords .workdir ["/srv"]]
    let d := build.withRecipe "lint" [.env "1" "x", .ofWords .endBlock []]
    let e := (build.withRecipe "lint" []).withBase [.ofWords .add ["x"]]
    d.recipes.map (·.name) = e.recipes.map (·.name) ∧
      (s.interpret d).attempts = (s.interpret e).attempts ∧
      (s.interpret d).outcome = (s.interpret e).outcome := by
  intro s build d e
  exact ⟨rfl, interpret_eq_of_selected s d e rfl (.inr ⟨by decide, rfl⟩)⟩

end Session
end Buildfile
