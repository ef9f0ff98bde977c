import Buildfile.Proofs.Transitions

/-! # The outcome for the requested target

A header is refused if its name is reserved, or if it is the requested one and has been written
before. The requested body is read if its header comes before the first one that is refused. If it
fails, its problem is the outcome. Otherwise the outcome is that of the first refused header, or the
requested target is missing, or there is no problem.
-/

namespace Buildfile

/-- The first header that is refused, with the number of headers before it. -/
def firstRefusal? (target : String) (earlier : List String) :
    List String → Option (Nat × Selection.Fault)
  | [] => none
  | name :: rest =>
    if name ∈ reservedTargets then some (earlier.length, .reserved)
    else if name = target ∧ target ∈ earlier then some (earlier.length, .declaredTwice name)
    else firstRefusal? target (earlier ++ [name]) rest

theorem firstRefusal?_append (target : String) (earlier first second : List String) :
    firstRefusal? target earlier (first ++ second) =
      (firstRefusal? target earlier first).or
        (firstRefusal? target (earlier ++ first) second) := by
  induction first generalizing earlier with
  | nil => simp [firstRefusal?]
  | cons name rest ih =>
    rw [List.cons_append, firstRefusal?, firstRefusal?]
    split
    · rfl
    split
    · rfl
    · rw [ih, List.append_assoc, List.singleton_append]

theorem firstRefusal?_bounds {target : String} {earlier names : List String} {k : Nat}
    {fault : Selection.Fault} (h : firstRefusal? target earlier names = some (k, fault)) :
    earlier.length ≤ k ∧ k < earlier.length + names.length := by
  induction names generalizing earlier with
  | nil => cases h
  | cons name rest ih =>
    rw [firstRefusal?] at h
    rw [List.length_cons]
    split at h
    · cases h
      omega
    split at h
    · cases h
      omega
    · have hrest := ih h
      rw [List.length_append, List.length_singleton] at hrest
      omega

namespace Document

/-- The body of the requested target, if its header comes before the first refused one. -/
def requested? (d : Document) (target : String) : Option Body :=
  if target = baseTarget then some d.base
  else
    match d.indexOf? target with
    | none => none
    | some k =>
      if (firstRefusal? target [] d.names).all (k < ·.1) then (d.recipe? target).map (·.body)
      else none

/-- The outcome if the requested body does not fail. -/
def headersOutcome (d : Document) (target : String) : Except Problem Unit :=
  match firstRefusal? target [] d.names with
  | some (_, fault) => .error (Refusal.selection fault).problem
  | none => if target = baseTarget ∨ target ∈ d.names then .ok () else .error (.notFound target)

end Document

namespace Session
variable {s : Session} {σ : State}

/-! ## Headers alone -/

theorem problem_pass {names earlier : List String} (hp : σ.problem = none)
    (hn : σ.selection.found = true ∨ σ.selection.requested ∉ names)
    (he : σ.selection.requested ∈ reservedTargets ∨
      (σ.selection.found = true ↔ σ.selection.requested ∈ earlier)) :
    (s.pass σ names).problem =
      (firstRefusal? σ.selection.requested earlier names).map fun refusal =>
        (Refusal.selection refusal.2).problem := by
  induction names generalizing σ earlier with
  | nil => exact hp
  | cons name names ih =>
    have hcons : s.pass σ (name :: names) = s.pass (s.step σ (.header name)) names := rfl
    rw [hcons, step_header hp, firstRefusal?]
    by_cases hr : name ∈ reservedTargets
    · rw [if_pos hr, if_pos hr, pass_of_problem rfl]
      rfl
    rw [if_neg hr, if_neg hr]
    by_cases hq : name = σ.selection.requested
    · -- The requested target has started before, so its name is among the earlier ones.
      have hf : σ.selection.found = true :=
        hn.resolve_right fun h => h (hq ▸ List.mem_cons_self)
      have hm : σ.selection.requested ∈ earlier := (he.resolve_left (hq ▸ hr)).mp hf
      rw [if_neg (Decidable.not_not.mpr hq), if_pos hf, if_pos ⟨hq, hm⟩, pass_of_problem rfl]
      rfl
    · rw [if_pos hq, if_neg fun h => hq h.1]
      have hm : σ.selection.requested ∈ earlier ++ [name] ↔ σ.selection.requested ∈ earlier := by
        simp [Ne.symm hq]
      exact ih (σ := σ.under name) hp (hn.imp_right fun h hm => h (List.mem_cons_of_mem _ hm))
        (he.imp_right fun h => h.trans hm.symm)

theorem problem_pass_of_found {target : String} (hp : σ.problem = none)
    (hq : σ.selection.requested = target) (hf : σ.selection.found = true) {earlier : List String}
    (he : target ∈ reservedTargets ∨ target ∈ earlier) (names : List String) :
    (s.pass σ names).problem = (firstRefusal? target earlier names).map fun refusal =>
      (Refusal.selection refusal.2).problem := by
  subst hq
  exact problem_pass hp (.inl hf) (he.imp_right (iff_of_true hf))

theorem pass_append (s : Session) (σ : State) (first second : List String) :
    s.pass σ (first ++ second) = s.pass (s.pass σ first) second := List.foldl_append

theorem requested_pass (s : Session) (σ : State) (names : List String) :
    (s.pass σ names).selection.requested = σ.selection.requested := by
  induction names generalizing σ with
  | nil => rfl
  | cons name names ih => exact (ih _).trans (requested_step_header s σ name)

theorem isSettled_of_found (h : σ.selection.found = true) : σ.isSettled = true := by
  simp [State.isSettled, h]

theorem isSettled_pass (h : σ.isSettled = true) (names : List String) :
    (s.pass σ names).isSettled = true := by
  induction names generalizing σ with
  | nil => exact h
  | cons name names ih => exact ih (step_header_of_isSettled h name).1

/-- Headers of other targets attempt nothing and lead into no body that is read. -/
theorem pass_of_others {names : List String} (hn : σ.selection.requested ∉ names)
    (hi : σ.ignores = true) :
    (s.pass σ names).attempts = σ.attempts ∧ (s.pass σ names).ignores = true := by
  induction names generalizing σ with
  | nil => exact ⟨rfl, hi⟩
  | cons name names ih =>
    have hname := List.ne_of_not_mem_cons hn
    have hnames := List.not_mem_of_not_mem_cons hn
    have ha : (s.step σ (.header name)).attempts = σ.attempts := by
      rcases s.step_header_cases σ name with ⟨-, hs⟩ | ⟨fault, hs⟩ | ⟨-, hs⟩ | ⟨-, -, hr, -⟩
      · rw [hs]
      · rw [hs]
        rfl
      · rw [hs]
        rfl
      · exact absurd hr.symm hname
    obtain ⟨hatt, hign⟩ := ih (requested_step_header s σ name ▸ hnames)
      (s.ignores_step_header (Ne.symm hname))
    exact ⟨hatt.trans ha, hign⟩

/-- Headers of other targets that are not refused only set the current target. -/
theorem under_pass {names : List String} (hn : σ.selection.requested ∉ names)
    (hp : (s.pass σ names).problem = none) (name : String) :
    (s.pass σ names).under name = σ.under name := by
  induction names generalizing σ with
  | nil => rfl
  | cons other names ih =>
    have hother := List.ne_of_not_mem_cons hn
    have hnames := List.not_mem_of_not_mem_cons hn
    have hstep : (s.step σ (.header other)).problem = none := problem_of_pass hp
    refine (ih (requested_step_header s σ other ▸ hnames) hp).trans ?_
    change (s.step σ (.header other)).under name = σ.under name
    rcases s.step_header_cases σ other with ⟨-, hs⟩ | ⟨fault, hs⟩ | ⟨-, hs⟩ | ⟨-, -, hr, -⟩
    · rw [hs]
    · rw [hs] at hstep
      cases hstep
    · rw [hs]
      rfl
    · exact absurd hr.symm hother

/-! ## The start of the requested body -/

/-- The state in which the requested body starts, with the call that lets it start. -/
def opening (s : Session) : State :=
  if s.settings.target = baseTarget then s.initial else s.begin s.initial s.settings.target

/-- The attempt that lets the requested target start from the base target. -/
def inherited (s : Session) : List Attempt :=
  if s.settings.target = baseTarget then []
  else [⟨.inheritance, s.builder.reply s.context [] .inheritance⟩]

theorem attempts_opening (s : Session) : s.opening.attempts = s.inherited := by
  unfold opening inherited
  split
  · rfl
  · exact begin_attempts s s.initial _

theorem selection_opening (s : Session) :
    s.opening.selection.requested = s.settings.target ∧ s.opening.selection.found = true := by
  unfold opening
  split
  · next ht => exact ⟨rfl, beq_iff_eq.mpr ht⟩
  · rw [begin_selection]
    exact ⟨rfl, rfl⟩

/-- The headers before and after the first one of a target. -/
structure Split (d : Document) (target : String) (before after : List String) : Prop where
  names : d.names = before ++ target :: after
  notMem : target ∉ before
  index : d.indexOf? target = some before.length
  lead : lead target d.names = before.length + 1

theorem names_cases (d : Document) {target : String} (ht : target ≠ baseTarget) :
    (target ∉ d.names ∧ d.indexOf? target = none ∧ d.names.length ≤ lead target d.names) ∨
    ∃ before after, Split d target before after := by
  have hi : d.indexOf? target = d.names.findIdx? (· == target) := by
    rw [Document.names, List.findIdx?_map]
    rfl
  have hne {names : List String} (hm : target ∉ names) : ∀ name ∈ names, (name == target) = false :=
    fun name hn => beq_eq_false_iff_ne.mpr fun he => hm (he ▸ hn)
  by_cases hm : target ∈ d.names
  · obtain ⟨before, after, hsplit, hb⟩ := List.eq_append_cons_of_mem hm
    have hidx : d.names.findIdx (· == target) = before.length := by
      rw [hsplit, List.findIdx_append, List.findIdx_eq_length.mpr (hne hb),
        if_neg (Nat.lt_irrefl _)]
      simp [List.findIdx_cons]
    refine .inr ⟨before, after, hsplit, hb, ?_, by rw [lead, if_neg ht, hidx]⟩
    rw [hi]
    exact List.findIdx?_eq_some_iff_findIdx_eq.mpr ⟨by simp [hsplit], hidx⟩
  · refine .inl ⟨hm, by rw [hi, List.findIdx?_eq_none_iff.mpr (hne hm)], ?_⟩
    rw [lead, if_neg ht, List.findIdx_eq_length.mpr (hne hm)]
    exact Nat.le_succ _

/-- The outcome of the headers, from the problem that they lead to and whether the requested target
is among them. -/
theorem headersOutcome_eq (d : Document) (target : String) (h : σ.selection.requested = target)
    (hp : σ.problem = (firstRefusal? target [] d.names).map fun refusal =>
      (Refusal.selection refusal.2).problem)
    (hf : σ.problem = none →
      (σ.selection.found = true ↔ target = baseTarget ∨ target ∈ d.names)) :
    σ.outcome = d.headersOutcome target := by
  rw [State.outcome, Document.headersOutcome]
  cases hr : firstRefusal? target [] d.names with
  | some refusal =>
    rw [hr] at hp
    rw [hp]
    rfl
  | none =>
    rw [hr, Option.map_none] at hp
    have hfound := hf hp
    rw [hp]
    dsimp only
    rw [Selection.outcome, h]
    by_cases hm : target = baseTarget ∨ target ∈ d.names
    · rw [if_pos (hfound.mpr hm), if_pos hm]
    · rw [if_neg (mt hfound.mp hm), if_neg hm]

/-- The requested body is not read, and the headers alone decide the outcome. -/
structure Unread (s : Session) (d : Document) : Prop where
  requested : d.requested? s.settings.target = none
  attempts : (s.start d.names).attempts = []
  ignores : (s.start d.names).ignores = true
  outcome : (s.pass s.initial d.names).outcome = d.headersOutcome s.settings.target

/-- The requested body starts in the opening state, and the headers after it are passed as if they
were all that is left of the file. -/
structure Opened (s : Session) (d : Document) : Prop where
  requested : d.requested? s.settings.target = some (d.selected s.settings.target)
  start : s.start d.names = s.opening
  declared : s.settings.target = baseTarget ∨ s.settings.target ∈ d.names
  later : ∃ earlier, (s.settings.target ∈ reservedTargets ∨ s.settings.target ∈ earlier) ∧
    firstRefusal? s.settings.target [] d.names =
      firstRefusal? s.settings.target earlier (d.names.drop (lead s.settings.target d.names))

section Header
variable {d : Document}

theorem opened_base (ht : s.settings.target = baseTarget) : s.Opened d := by
  refine ⟨by simp [Document.requested?, Document.selected, ht],
    by simp [start, lead, opening, ht, pass], .inl ht, [],
    .inl (by simp [ht, reservedTargets]), ?_⟩
  rw [lead, if_pos ht, List.drop_zero]

theorem unread_of_notMem (ht : s.settings.target ≠ baseTarget)
    (hm : s.settings.target ∉ d.names) (hidx : d.indexOf? s.settings.target = none)
    (hlead : d.names.length ≤ lead s.settings.target d.names) : s.Unread d := by
  have hs : s.start d.names = s.pass s.initial d.names := by
    rw [start, List.take_of_length_le hlead]
  have hfound : s.initial.selection.found = false := beq_eq_false_iff_ne.mpr ht
  have hn : s.initial.selection.requested ∉ d.names := hm
  obtain ⟨hatt, hign⟩ := pass_of_others (s := s) hn (s.ignores_initial ht)
  refine ⟨by simp [Document.requested?, ht, hidx], hs ▸ hatt, hs ▸ hign, ?_⟩
  apply headersOutcome_eq
  · exact s.requested_pass s.initial d.names
  · exact problem_pass rfl (.inr hn) (.inr (by simp [hfound]))
  · intro _
    rw [pass_of_notMem hn, hfound]
    simp [ht, hm]

/-- A header that is refused at or before the requested one keeps its body from being read. -/
theorem unread_of_refused (ht : s.settings.target ≠ baseTarget) {k : Nat} {fault : Selection.Fault}
    {index : Nat} (hidx : d.indexOf? s.settings.target = some index) (hk : k ≤ index)
    (hr : firstRefusal? s.settings.target [] d.names = some (k, fault))
    (hatt : (s.start d.names).attempts = [])
    (hp : (s.start d.names).problem = some (Refusal.selection fault).problem) : s.Unread d := by
  refine ⟨?_, hatt, by simp [State.ignores, hp], ?_⟩
  · simp [Document.requested?, ht, hidx, hr, Nat.not_lt.mpr hk]
  · have hall : s.pass s.initial d.names = s.start d.names := by
      calc s.pass s.initial d.names
          = s.pass (s.start d.names) (d.names.drop (lead s.settings.target d.names)) := by
            rw [start, ← pass_append, List.take_append_drop]
        _ = s.start d.names := pass_of_problem (by simp [hp]) _
    rw [hall, State.outcome, hp, Document.headersOutcome, hr]

theorem recipe?_isSome {target : String} (hm : target ∈ d.names) :
    (d.recipe? target).isSome = true := by
  obtain ⟨r, hr, hn⟩ := List.mem_map.mp hm
  exact List.find?_isSome.mpr ⟨r, hr, beq_iff_eq.mpr hn⟩

/-- The state before a header matters only up to the target that it is in. -/
theorem begin_under (s : Session) (σ : State) (name : String) :
    s.begin (σ.under name) name = s.begin σ name := rfl

/-! ### Up to the first header of the requested target -/

variable {before after : List String}

theorem problem_before (ht : s.settings.target ≠ baseTarget) (hb : s.settings.target ∉ before) :
    (s.pass s.initial before).problem =
      (firstRefusal? s.settings.target [] before).map fun refusal =>
        (Refusal.selection refusal.2).problem := by
  have hfound : s.initial.selection.found = false := beq_eq_false_iff_ne.mpr ht
  exact problem_pass (s := s) (σ := s.initial) rfl (.inr hb) (.inr (by simp [hfound]))

theorem start_of_split (h : Split d s.settings.target before after) :
    s.start d.names = s.step (s.pass s.initial before) (.header s.settings.target) := by
  have htake : d.names.take (before.length + 1) = before ++ [s.settings.target] := by
    rw [h.names, List.take_append, List.take_of_length_le (Nat.le_succ _)]
    simp
  rw [start, h.lead, htake, pass_append]
  rfl

theorem firstRefusal?_of_split (h : Split d s.settings.target before after) :
    firstRefusal? s.settings.target [] d.names =
      (firstRefusal? s.settings.target [] before).or
        (if s.settings.target ∈ reservedTargets then some (before.length, .reserved)
        else firstRefusal? s.settings.target (before ++ [s.settings.target]) after) := by
  rw [h.names, firstRefusal?_append, List.nil_append, firstRefusal?]
  simp only [h.notMem, and_false, if_false]

theorem unread_of_earlier (ht : s.settings.target ≠ baseTarget)
    (h : Split d s.settings.target before after) {k : Nat} {fault : Selection.Fault}
    (hr : firstRefusal? s.settings.target [] before = some (k, fault)) : s.Unread d := by
  have hp : (s.pass s.initial before).problem = some (Refusal.selection fault).problem := by
    rw [problem_before ht h.notMem, hr, Option.map_some]
  have hattempts := (pass_of_others (s := s) h.notMem (s.ignores_initial ht)).1
  have hsame : s.start d.names = s.pass s.initial before := by
    rw [start_of_split h, step_of_problem (by simp [hp])]
  have hk : k < before.length := by simpa using (firstRefusal?_bounds hr).2
  have hrefusal : firstRefusal? s.settings.target [] d.names = some (k, fault) := by
    rw [firstRefusal?_of_split h, hr, Option.some_or]
  exact unread_of_refused ht h.index (Nat.le_of_lt hk) hrefusal (hsame ▸ hattempts) (hsame ▸ hp)

theorem unread_of_reserved (ht : s.settings.target ≠ baseTarget)
    (h : Split d s.settings.target before after)
    (hr : firstRefusal? s.settings.target [] before = none)
    (hreserved : s.settings.target ∈ reservedTargets) : s.Unread d := by
  have hp : (s.pass s.initial before).problem = none := by
    rw [problem_before ht h.notMem, hr, Option.map_none]
  have hattempts := (pass_of_others (s := s) h.notMem (s.ignores_initial ht)).1
  have hstart := start_of_split h
  rw [step_header hp, if_pos hreserved] at hstart
  have hrefusal : firstRefusal? s.settings.target [] d.names = some (before.length, .reserved) := by
    rw [firstRefusal?_of_split h, hr, Option.none_or, if_pos hreserved]
  exact unread_of_refused ht h.index (Nat.le_refl _) hrefusal (hstart ▸ hattempts) (hstart ▸ rfl)

theorem opened_of_split (ht : s.settings.target ≠ baseTarget)
    (h : Split d s.settings.target before after)
    (hr : firstRefusal? s.settings.target [] before = none)
    (hreserved : s.settings.target ∉ reservedTargets) : s.Opened d := by
  have hp : (s.pass s.initial before).problem = none := by
    rw [problem_before ht h.notMem, hr, Option.map_none]
  have hfound : (s.pass s.initial before).selection.found = false :=
    (pass_of_notMem (σ := s.initial) h.notMem).trans (beq_eq_false_iff_ne.mpr ht)
  have hreq : (s.pass s.initial before).selection.requested = s.settings.target :=
    s.requested_pass s.initial before
  have hm : s.settings.target ∈ d.names := by simp [h.names]
  have hrefusal : firstRefusal? s.settings.target [] d.names =
      firstRefusal? s.settings.target (before ++ [s.settings.target]) after := by
    rw [firstRefusal?_of_split h, hr, Option.none_or, if_neg hreserved]
  refine ⟨?_, ?_, .inr hm, before ++ [s.settings.target], .inr (by simp), ?_⟩
  · -- Whatever is refused lies behind the requested header, since nothing before it is.
    have hall : (firstRefusal? s.settings.target [] d.names).all (before.length < ·.1) = true := by
      rw [hrefusal]
      cases hlater : firstRefusal? s.settings.target (before ++ [s.settings.target]) after with
      | none => rfl
      | some refusal =>
        have hbound := (firstRefusal?_bounds (k := refusal.1) hlater).1
        rw [List.length_append, List.length_singleton] at hbound
        exact decide_eq_true hbound
    obtain ⟨r, hrecipe⟩ := Option.isSome_iff_exists.mp (recipe?_isSome hm)
    simp [Document.requested?, Document.selected, ht, h.index, hall, hrecipe]
  · rw [start_of_split h, step_header hp, if_neg hreserved, if_neg (by simp [hreq]),
      if_neg (by simp [hfound]), opening, if_neg ht, ← begin_under,
      under_pass (σ := s.initial) h.notMem hp, begin_under]
  · have hdrop : d.names.drop (before.length + 1) = after := by simp [h.names, List.drop_append]
    rw [h.lead, hdrop, hrefusal]

end Header

theorem start_outline (s : Session) (d : Document) : s.Opened d ∨ s.Unread d := by
  by_cases ht : s.settings.target = baseTarget
  · exact .inl (opened_base ht)
  rcases names_cases d ht with ⟨hm, hidx, hlead⟩ | ⟨before, after, h⟩
  · exact .inr (unread_of_notMem ht hm hidx hlead)
  cases hr : firstRefusal? s.settings.target [] before with
  | some refusal => exact .inr (unread_of_earlier ht h hr)
  | none =>
    by_cases hreserved : s.settings.target ∈ reservedTargets
    · exact .inr (unread_of_reserved ht h hr hreserved)
    · exact .inl (opened_of_split ht h hr hreserved)

/-! ## Failures of the requested body -/

def failure? (s : Session) (b : Body) : Option Problem := (s.readBody s.opening b).problem

/-- The ways in which the requested body can fail. -/
inductive Fails (s : Session) (b : Body) (p : Problem) : Prop
  | inheritance (failure : Failure) (inherits : s.settings.target ≠ baseTarget)
      (reply : s.builder.reply s.context [] .inheritance = some failure)
      (problem : p = .builder "apply implicit FROM +base" failure)
  | statement (before : List Statement) (t : Statement) (after : List Statement)
      (split : b.statements = before ++ t :: after)
      (earlier : (before.foldl s.read s.opening).problem = none)
      (problem : (s.read (before.foldl s.read s.opening) t).problem = some p)
  | leftOpen (read : (b.statements.foldl s.read s.opening).problem = none)
      (isOpen : (b.statements.foldl s.read s.opening).block.isOpen = true)
      (problem : p = (Refusal.block .noEnd).problem)

theorem problem_opening_iff (s : Session) (p : Problem) :
    s.opening.problem = some p ↔ s.settings.target ≠ baseTarget ∧ ∃ failure,
      s.builder.reply s.context [] .inheritance = some failure ∧
        p = .builder "apply implicit FROM +base" failure := by
  have hc : s.initial.calls = [] := rfl
  rw [opening]
  split
  · next ht => simp [ht, initial, State.initial]
  · next ht =>
    rw [begin, hc]
    cases s.builder.reply s.context [] .inheritance with
    | none => simp [initial, State.initial, State.note]
    | some failure => simp [ht, eq_comm]

theorem isActive_opening (s : Session) : s.opening.selection.isActive = true := by
  rw [opening]
  split
  · next ht => exact beq_iff_eq.mpr ht.symm
  · rw [begin_selection]
    exact beq_self_eq_true _

theorem step_enterBody_opening (s : Session) : s.step s.opening .enterBody = s.opening := by
  have hp : s.opening.pushOnly = false := by
    rw [opening]
    split
    · rfl
    · exact begin_pushOnly s s.initial _
  rw [step_enterBody, hp, Bool.false_and, ← hp]

theorem foldl_read_of_problem {p : Problem} (h : σ.problem = some p) (ts : List Statement) :
    (ts.foldl s.read σ).problem = some p := by
  induction ts generalizing σ with
  | nil => exact h
  | cons t ts ih =>
    have hi : σ.ignores = true := by simp [State.ignores, h]
    rw [List.foldl_cons, read_of_ignores hi]
    exact ih h

/-- Statements fail where the first of them does. -/
theorem problem_foldl_read_iff (h : σ.problem = none) (ts : List Statement) (p : Problem) :
    (ts.foldl s.read σ).problem = some p ↔ ∃ before t after, ts = before ++ t :: after ∧
      (before.foldl s.read σ).problem = none ∧
        (s.read (before.foldl s.read σ) t).problem = some p := by
  constructor
  · intro hp
    induction ts generalizing σ with
    | nil => cases h.symm.trans hp
    | cons t ts ih =>
      cases hq : (s.read σ t).problem with
      | some q =>
        have hsame : some q = some p := (foldl_read_of_problem hq ts).symm.trans hp
        exact ⟨[], t, ts, rfl, h, hq.trans hsame⟩
      | none =>
        obtain ⟨before, u, after, rfl, hearlier, hproblem⟩ := ih hq hp
        exact ⟨t :: before, u, after, rfl, hearlier, hproblem⟩
  · rintro ⟨before, t, after, rfl, -, hp⟩
    rw [List.foldl_append, List.foldl_cons]
    exact foldl_read_of_problem hp after

theorem problem_exitBody_iff (ha : σ.selection.isActive = true) (p : Problem) :
    (s.step σ .exitBody).problem = some p ↔ σ.problem = some p ∨
      σ.problem = none ∧ σ.block.isOpen = true ∧ p = (Refusal.block .noEnd).problem := by
  cases hp : σ.problem with
  | some q =>
    rw [step_of_problem (by simp [hp]), hp]
    simp
  | none =>
    rw [step_of_not_ignores (by simp [State.ignores, hp, ha]), act, DockerBlock.ensureClosed]
    cases hb : σ.block.isOpen with
    | true => simp [eq_comm]
    | false => simp [hp]

theorem failure?_eq_some_iff (s : Session) (b : Body) (p : Problem) :
    s.failure? b = some p ↔ s.Fails b p := by
  have ha : (b.statements.foldl s.read s.opening).selection.isActive = true := by
    rw [selection_foldl_read]
    exact s.isActive_opening
  rw [failure?, readBody, step_enterBody_opening, problem_exitBody_iff ha]
  constructor
  · rintro (hp | ⟨hread, hopen, hp⟩)
    · cases ho : s.opening.problem with
      | some q =>
        obtain rfl : q = p := Option.some.inj ((foldl_read_of_problem ho _).symm.trans hp)
        obtain ⟨ht, failure, hreply, hq⟩ := (s.problem_opening_iff q).mp ho
        exact .inheritance failure ht hreply hq
      | none =>
        obtain ⟨before, t, after, hsplit, hearlier, hproblem⟩ :=
          (problem_foldl_read_iff ho _ p).mp hp
        exact .statement before t after hsplit hearlier hproblem
    · exact .leftOpen hread hopen hp
  · rintro (⟨failure, ht, hreply, hp⟩ | ⟨before, t, after, hsplit, hearlier, hproblem⟩ |
      ⟨hread, hopen, hp⟩)
    · exact .inl (foldl_read_of_problem ((s.problem_opening_iff p).mpr ⟨ht, failure, hreply, hp⟩) _)
    · left
      rw [hsplit, List.foldl_append, List.foldl_cons]
      exact foldl_read_of_problem hproblem after
    · exact .inr ⟨hread, hopen, hp⟩

/-! ## Whole interpretations -/

theorem outcome_of_opened {d : Document} (h : s.Opened d) :
    (s.interpret d).outcome =
      match s.failure? (d.selected s.settings.target) with
      | some p => .error p
      | none => d.headersOutcome s.settings.target := by
  have ho := State.view_of_unlogged (s.interpret_outline d) State.outcome fun _ => rfl
  refine Eq.trans ho ?_
  obtain ⟨earlier, hearlier, hrefusal⟩ := h.later
  obtain ⟨hreq, hfound⟩ := s.selection_opening
  have hsel := s.selection_readBody s.opening (d.selected s.settings.target)
  rw [← hsel] at hreq hfound
  rw [h.start, failure?]
  cases hp : (s.readBody s.opening (d.selected s.settings.target)).problem with
  | some p =>
    rw [pass_of_problem (by simp [hp]), State.outcome, hp]
  | none =>
    have hproblem := problem_pass_of_found (s := s) hp hreq hfound hearlier
      (d.names.drop (lead s.settings.target d.names))
    rw [← hrefusal] at hproblem
    apply headersOutcome_eq
    · exact (s.requested_pass _ _).trans hreq
    · exact hproblem
    · intro hnone
      have hsettled := isSettled_pass (s := s)
        (isSettled_of_found hfound) (d.names.drop (lead s.settings.target d.names))
      rw [State.isSettled, hnone, Option.isSome_none, Bool.false_or] at hsettled
      exact iff_of_true hsettled h.declared

theorem outcome_of_unread {d : Document} (h : s.Unread d) :
    (s.interpret d).outcome = d.headersOutcome s.settings.target := by
  have ho := State.view_of_unlogged (s.interpret_outline d) State.outcome fun _ => rfl
  have hbody := readBody_of_ignores (s := s) h.ignores (d.selected s.settings.target)
  have hu := pass_unlogged (s := s) hbody (d.names.drop (lead s.settings.target d.names))
  have hall : s.pass (s.start d.names) (d.names.drop (lead s.settings.target d.names)) =
      s.pass s.initial d.names := by
    rw [start, ← pass_append, List.take_append_drop]
  rw [hall] at hu
  exact ho.trans ((State.view_of_unlogged hu State.outcome fun _ => rfl).trans h.outcome)

theorem attempts_of_opened {d : Document} (h : s.Opened d) :
    (s.interpret d).attempts = s.inherited ++
      (s.transitions s.opening (d.selected s.settings.target).statements).flatMap
        Transition.attempts := by
  rw [attempts_interpret_eq, requestedTransitions, h.start, step_enterBody_opening,
    attempts_opening]

theorem attempts_of_unread {d : Document} (h : s.Unread d) : (s.interpret d).attempts = [] := by
  rw [attempts_interpret]
  have hu := readBody_of_ignores (s := s) h.ignores (d.selected s.settings.target)
  exact (State.view_of_unlogged hu (·.attempts) fun _ => rfl).trans h.attempts

/-- A problem of the requested body is the outcome, and otherwise the headers decide it. The body
fails where its target cannot start, where its first statement with a problem stands, or where it
leaves a block open. What is attempted is the call that starts the target, once and first, and then
what the statements of the body ask for. If the body is not read, nothing is attempted. -/
theorem outcome_of_headers (s : Session) (d : Document) :
    ((s.interpret d).outcome =
      match (d.requested? s.settings.target).bind s.failure? with
      | some p => .error p
      | none => d.headersOutcome s.settings.target) ∧
    (∀ b p, s.failure? b = some p ↔ s.Fails b p) ∧
    ((s.interpret d).attempts =
      match d.requested? s.settings.target with
      | some b => s.inherited ++ (s.transitions s.opening b.statements).flatMap Transition.attempts
      | none => []) ∧
    ∀ b : Body, ∀ x ∈ s.transitions s.opening b.statements, ∀ a ∈ x.attempts,
      ∃ i p, x.statement.invocation = .ok i ∧ (s.scope x.before).plan i = .ok p ∧
        a.call ∈ p.calls := by
  refine ⟨?_, s.failure?_eq_some_iff, ?_, fun b x hx a ha => ?_⟩
  · rcases s.start_outline d with h | h
    · rw [h.requested, outcome_of_opened h]
      rfl
    · rw [h.requested, outcome_of_unread h]
      rfl
  · rcases s.start_outline d with h | h
    · rw [h.requested, attempts_of_opened h]
    · rw [h.requested, attempts_of_unread h]
  · obtain ⟨us, t, vs, -, rfl⟩ := exists_of_mem_transitions hx
    obtain ⟨i, p, -, hinv, hplan, hpre⟩ := (s.transition_ends _ t).planned ha
    exact ⟨i, p, hinv, hplan, hpre.subset (List.mem_map_of_mem ha)⟩

/-- A block that is left open outweighs a later header that is refused, and each header before the
requested one is passed. -/
theorem outcome_of_headers_leftOpen :
    let s : Session := { builder := .scripted id none, settings := { target := "build" } }
    let b : Body := ⟨[.ofWords .workdir ["/srv"], .ofWords .withDocker []]⟩
    let d := ((Document.withRecipe {} "lint" [.ofWords .endBlock []]).withRecipe "build"
      b.statements).withRecipe "build" []
    let x := s.transition s.opening (.ofWords .workdir ["/srv"])
    let a : Attempt := .success (.workdir "/srv")
    (s.interpret d).outcome = .error (.state "no matching END found for WITH DOCKER") ∧
      (s.interpret d).attempts = [.success .inheritance, a] ∧
      x ∈ s.transitions s.opening b.statements ∧ a ∈ x.attempts ∧
      ∃ i p, x.statement.invocation = .ok i ∧ (s.scope x.before).plan i = .ok p ∧
        a.call ∈ p.calls := by
  intro s b d x a
  obtain ⟨houtcome, -, hattempts, hplanned⟩ := s.outcome_of_headers d
  have hx : x ∈ s.transitions s.opening b.statements := List.mem_cons_self
  have ha : a ∈ x.attempts := by decide
  have hf : (d.requested? s.settings.target).bind s.failure? =
      some (.state "no matching END found for WITH DOCKER") := by decide +kernel
  rw [hf] at houtcome
  exact ⟨houtcome, hattempts.trans (by decide +kernel), hx, ha, hplanned b x hx a ha⟩

end Session
end Buildfile
