import Buildfile.Proofs.Documents

/-! # Answers to headers

However headers follow one another, also after refusals, a selection knows the target of the last
one. A reserved name is always refused, also where it is requested. Any other requested target
starts at its first header and is refused at each later one, and it is missing until it has started.
-/

namespace Buildfile
namespace Selection
variable {s : Selection} {name : String}

def pass (s : Selection) (names : List String) : Selection :=
  names.foldl (fun s name => (s.enter name).1) s

def reported (answer : Except Fault Bool) : Except Problem Bool :=
  answer.mapError fun fault => (Refusal.selection fault).problem

/-- What is answered to a header that follows others. -/
structure Answers (requested : String) (earlier : List String) (name : String)
    (answer : Except Fault Bool) : Prop where
  reserved : name = "base" ∨ name = "secrets" →
    reported answer = .error (.state "target name cannot be \"base\" or \"secrets\"")
  other : ¬ (name = "base" ∨ name = "secrets") → name ≠ requested → answer = .ok false
  first : ¬ (name = "base" ∨ name = "secrets") → name = requested → requested ∉ earlier →
    answer = .ok true
  again : ¬ (name = "base" ∨ name = "secrets") → name = requested → requested ∈ earlier →
    reported answer = .error (.state s!"target {name} is declared twice")
  never : requested = "base" ∨ requested = "secrets" → answer ≠ .ok true

/-- What a selection knows after several headers and the answers to them. -/
structure Tracks (requested : String) (names : List String) (answers : List (Except Fault Bool))
    (s : Selection) : Prop where
  current : s.current = names.getLastD "base"
  isActive : s.isActive = true ↔ s.current = requested
  inBase : s.inBase = true ↔ s.current = "base"
  found : s.outcome = .ok () ↔ requested = "base" ∨ .ok true ∈ answers
  missing : s.outcome ≠ .ok () → s.outcome = .error (.notFound requested)
  secrets : requested = "secrets" → s.outcome = .error (.notFound requested)

/-! ## One header -/

theorem mem_reservedTargets_iff : name ∈ reservedTargets ↔ name = "base" ∨ name = "secrets" := by
  simp [reservedTargets, baseTarget]

theorem enter_found_iff :
    (s.enter name).1.found = true ↔ s.found = true ∨ (s.enter name).2 = .ok true := by
  rw [enter_eq]
  split_ifs with hreserved hother hfound
  · simp
  · simp
  · simp [hfound]
  · simp

theorem answer_eq_started_iff :
    (s.enter name).2 = .ok true ↔
      name ∉ reservedTargets ∧ name = s.requested ∧ s.found = false := by
  rw [enter_eq]
  split_ifs with hreserved hother hfound
  · simp [hreserved]
  · simp [hother]
  · simp [hfound]
  · simp_all

/-! ## Several headers -/

theorem length_enterAll (s : Selection) (names : List String) :
    (s.enterAll names).length = names.length := by
  induction names generalizing s with
  | nil => rfl
  | cons name rest ih => rw [enterAll, List.length_cons, ih, List.length_cons]

theorem enterAll_append (s : Selection) (names others : List String) :
    s.enterAll (names ++ others) = s.enterAll names ++ (s.pass names).enterAll others := by
  induction names generalizing s with
  | nil => rfl
  | cons name rest ih => exact congrArg (s.enter name :: ·) (ih _)

theorem pass_requested (s : Selection) (names : List String) :
    (s.pass names).requested = s.requested := by
  induction names generalizing s with
  | nil => rfl
  | cons name rest ih => exact (ih _).trans (enter_requested s name)

theorem pass_current (s : Selection) (names : List String) :
    (s.pass names).current = names.getLastD s.current := by
  induction names generalizing s with
  | nil => rfl
  | cons name rest ih =>
    have hrest := ih (s.enter name).1
    rw [enter_current] at hrest
    rwa [List.getLastD_cons]

/-- A target has been found if it was from the start or has been started since. -/
theorem pass_found_iff (s : Selection) (names : List String) :
    (s.pass names).found = true ↔
      s.found = true ∨ .ok true ∈ (s.enterAll names).map Prod.snd := by
  induction names generalizing s with
  | nil => simp [pass, enterAll]
  | cons name rest ih =>
    have hrest := ih (s.enter name).1
    rw [enter_found_iff, or_assoc] at hrest
    rw [enterAll, List.map_cons, List.mem_cons, eq_comm (a := Except.ok true)]
    exact hrest

/-- A target starts at its first header unless its name is reserved. -/
theorem pass_found_iff_mem (s : Selection) (names : List String) :
    (s.pass names).found = true ↔
      s.found = true ∨ s.requested ∉ reservedTargets ∧ s.requested ∈ names := by
  induction names generalizing s with
  | nil => simp [pass]
  | cons name rest ih =>
    have hrest := ih (s.enter name).1
    rw [enter_found_iff, answer_eq_started_iff, enter_requested] at hrest
    refine hrest.trans ?_
    by_cases hname : name = s.requested
    · by_cases hreserved : s.requested ∈ reservedTargets <;>
        cases s.found <;> simp [hname, hreserved]
    · simp [hname, Ne.symm hname]

/-! ## From the first header on -/

theorem found_ofRequested_iff (requested : String) :
    (ofRequested requested).found = true ↔ requested = "base" := by
  simp [ofRequested, baseTarget]

theorem found_pass_ofRequested_iff (requested : String) (names : List String) :
    ((ofRequested requested).pass names).found = true ↔
      requested = "base" ∨ requested ≠ "secrets" ∧ requested ∈ names := by
  have hrequested : (ofRequested requested).requested = requested := rfl
  rw [pass_found_iff_mem, found_ofRequested_iff, mem_reservedTargets_iff, hrequested]
  by_cases hbase : requested = "base" <;> simp [hbase]

theorem answers_enter (requested : String) (earlier : List String) (name : String) :
    Answers requested earlier name (((ofRequested requested).pass earlier).enter name).2 := by
  have hrequested : ((ofRequested requested).pass earlier).requested = requested :=
    pass_requested _ earlier
  have hfound := found_pass_ofRequested_iff requested earlier
  constructor
  · intro hreserved
    rw [enter_eq, if_pos (mem_reservedTargets_iff.mpr hreserved)]
    rfl
  · intro hplain hother
    rw [enter_eq, if_neg (mt mem_reservedTargets_iff.mp hplain), hrequested, if_pos hother]
  · intro hplain hname hfresh
    have hmissing : ¬ ((ofRequested requested).pass earlier).found = true := by
      rw [hfound, ← hname]
      exact fun h => h.elim (fun hbase => hplain (.inl hbase)) fun h => hfresh (hname ▸ h.2)
    rw [enter_eq, if_neg (mt mem_reservedTargets_iff.mp hplain), hrequested,
      if_neg (not_not_intro hname), if_neg hmissing]
  · intro hplain hname hagain
    have hstarted : ((ofRequested requested).pass earlier).found = true :=
      hfound.mpr (.inr ⟨fun hsecrets => hplain (.inr (hname.trans hsecrets)), hagain⟩)
    rw [enter_eq, if_neg (mt mem_reservedTargets_iff.mp hplain), hrequested,
      if_neg (not_not_intro hname), if_pos hstarted]
    rfl
  · intro hreserved hstarted
    obtain ⟨hplain, hname, -⟩ := answer_eq_started_iff.mp hstarted
    rw [hname, hrequested] at hplain
    exact hplain (mem_reservedTargets_iff.mpr hreserved)

theorem tracks_pass (requested : String) (names : List String) :
    Tracks requested names (((ofRequested requested).enterAll names).map Prod.snd)
      ((ofRequested requested).pass names) := by
  have hrequested : ((ofRequested requested).pass names).requested = requested :=
    pass_requested _ names
  have hfound := pass_found_iff (ofRequested requested) names
  rw [found_ofRequested_iff] at hfound
  have houtcome : ((ofRequested requested).pass names).outcome =
      if ((ofRequested requested).pass names).found then .ok ()
      else .error (.notFound requested) := by
    rw [outcome, hrequested]
  constructor
  · exact pass_current _ names
  · rw [isActive, beq_iff_eq, hrequested]
  · exact beq_iff_eq
  · rw [houtcome, ← hfound]
    split_ifs with h <;> simp [h]
  · rw [houtcome]
    split_ifs with h
    · exact fun hne => absurd rfl hne
    · exact fun _ => rfl
  · rintro rfl
    rw [houtcome, if_neg]
    rw [found_pass_ofRequested_iff]
    simp

/-- After each header the selection knows its target and whether the requested one has started, and
each header is answered by what came before it. -/
theorem headers_select_target (requested : String) (names : List String) :
    let start := ofRequested requested
    let steps := start.enterAll names
    steps.length = names.length ∧ Tracks requested [] [] start ∧
    ∀ earlier name later, names = earlier ++ name :: later →
      ∃ s answer, steps[earlier.length]? = some (s, answer) ∧
        Answers requested earlier name answer ∧
        Tracks requested (earlier ++ [name])
          ((steps.take (earlier.length + 1)).map Prod.snd) s := by
  intro start steps
  refine ⟨length_enterAll start names, tracks_pass requested [], ?_⟩
  intro earlier name later hnames
  have hsteps : steps = start.enterAll (earlier ++ [name]) ++
      (start.pass (earlier ++ [name])).enterAll later := by
    rw [← enterAll_append, List.append_assoc, List.singleton_append, ← hnames]
  have hlast : start.enterAll (earlier ++ [name]) =
      start.enterAll earlier ++ [(start.pass earlier).enter name] :=
    enterAll_append start earlier [name]
  have hafter : start.pass (earlier ++ [name]) = ((start.pass earlier).enter name).1 := by
    rw [pass, List.foldl_append]
    rfl
  have hlength := length_enterAll start earlier
  refine ⟨start.pass (earlier ++ [name]), ((start.pass earlier).enter name).2, ?_,
    answers_enter requested earlier name, ?_⟩
  · rw [hsteps, hlast, hafter, List.append_assoc,
      List.getElem?_append_right (Nat.le_of_eq hlength), hlength, Nat.sub_self]
    rfl
  · have htake : steps.take (earlier.length + 1) = start.enterAll (earlier ++ [name]) := by
      rw [hsteps]
      exact List.take_left' (by rw [length_enterAll, List.length_append, List.length_singleton])
    rw [htake]
    exact tracks_pass requested (earlier ++ [name])

example :
    ((ofRequested "build").enterAll ["test", "build", "base", "build"]).map Prod.snd =
      [.ok false, .ok true, .error .reserved, .error (.declaredTwice "build")] := by
  decide

end Selection
end Buildfile
