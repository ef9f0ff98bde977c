import Buildfile.Proofs.Transitions

/-! # Reports of deprecated forms

Whether deprecated forms are reported can be told from the warnings in the log and from nothing
else. The run that reports none is the run that reports them with its warnings taken out. There is
one warning for each saved image of the requested body that succeeds without asking the builder.
-/

namespace Buildfile

def LogEntry.isWarning (entry : LogEntry) : Bool := entry.level = .warn

namespace State

/-- The state without the warnings in its log. -/
def unwarned (σ : State) : State := { σ with log := σ.log.filter fun entry => !entry.isWarning }

def warnings (σ : State) : List LogEntry := σ.log.filter LogEntry.isWarning

variable {σ : State}

theorem unwarned_note {level : LogLevel} (h : level ≠ .warn) (message : String) :
    (σ.note level message).unwarned = σ.unwarned.note level message := by
  simp [unwarned, note, LogEntry.isWarning, h]

theorem unwarned_fail (σ : State) (p : Problem) :
    (σ.fail p).unwarned = σ.unwarned.fail p := by
  rw [fail, fail, ← unwarned_note (by decide)]
  rfl

theorem warnings_note {level : LogLevel} (h : level ≠ .warn) (message : String) :
    (σ.note level message).warnings = σ.warnings := by
  simp [warnings, note, LogEntry.isWarning, h]

theorem warnings_fail (σ : State) (p : Problem) : (σ.fail p).warnings = σ.warnings :=
  warnings_note (by decide) _

end State

namespace Session
variable {s : Session} {σ τ : State}

/-- The session that reports deprecated forms or does not, as told, and is otherwise the same. -/
def warning (s : Session) (on : Bool) : Session :=
  { s with settings := { s.settings with warnDeprecations := on } }

/-! ## Two runs side by side -/

theorem attempt_warning (s : Session) (on : Bool) (history calls : List Call) :
    (s.warning on).attempt history calls = s.attempt history calls := by
  induction calls generalizing history with
  | nil => rfl
  | cons call rest ih =>
    rw [attempt, attempt, ih]
    rfl

theorem attempted_unwarned (s : Session) (σ : State) (p : Plan) (attempts : List Attempt) :
    (s.warning false).attempted σ.unwarned p attempts = (s.attempted σ p attempts).unwarned := by
  have hoff : (s.warning false).warnings p = [] := by simp [warnings, warning]
  have hall : (s.warnings p).filter (fun entry => !entry.isWarning) = [] := by
    rw [warnings]
    split <;> rfl
  simp [attempted, State.unwarned, hoff, hall]

theorem conclude_unwarned (s : Session) (σ : State) (i : Invocation) :
    (s.warning false).conclude σ.unwarned i = (s.conclude σ i).unwarned := by
  have hscope : (s.warning false).scope σ.unwarned = s.scope σ := rfl
  have hcalls : σ.unwarned.calls = σ.calls := rfl
  cases hp : (s.scope σ).plan i with
  | error r =>
    rw [conclude_of_refusal hp, conclude_of_refusal (hscope ▸ hp), State.unwarned_fail]
  | ok p =>
    rw [conclude_of_plan hp, conclude_of_plan (hscope ▸ hp), hcalls, attempt_warning,
      attempted_unwarned]
    cases (s.attempt σ.calls p.calls).findSome? (·.failure) with
    | some failure => exact (State.unwarned_fail _ _).symm
    | none =>
      dsimp only
      rw [← State.unwarned_note (by decide)]
      rfl

theorem complete_unwarned (s : Session) (σ : State) (keyword : Keyword) (text : String) :
    (s.warning false).complete σ.unwarned keyword text = (s.complete σ keyword text).unwarned := by
  rw [complete_eq_conclude, complete_eq_conclude, ← conclude_unwarned]
  rfl

theorem settle_ask_unwarned (s : Session) (σ : State) (context : String) (call : Call) :
    settle σ.unwarned ((s.warning false).ask context call) =
      (settle σ (s.ask context call)).unwarned := by
  have hreply : (s.warning false).builder.reply (s.warning false).context σ.unwarned.calls call =
    s.builder.reply s.context σ.calls call := rfl
  rw [settle_ask, settle_ask, hreply]
  cases s.builder.reply s.context σ.calls call with
  | some failure =>
    dsimp only
    rw [State.unwarned_fail]
    rfl
  | none => rfl

theorem enterTarget_unwarned (s : Session) (σ : State) (name : String) :
    (s.warning false).enterTarget σ.unwarned name = (s.enterTarget σ name).unwarned := by
  have hselection : σ.unwarned.selection = σ.selection := rfl
  simp only [enterTarget, hselection]
  cases (σ.selection.enter name).2 with
  | error fault =>
    exact (State.unwarned_fail { σ with selection := (σ.selection.enter name).1 } _).symm
  | ok started =>
    cases started with
    | false => rfl
    | true =>
      dsimp only
      rw [← settle_ask_unwarned, State.unwarned_note (by decide)]
      rfl

theorem act_unwarned (s : Session) (σ : State) (e : Event) :
    (s.warning false).act σ.unwarned e = (s.act σ e).unwarned := by
  have hblock : σ.unwarned.block = σ.block := rfl
  cases e with
  | header name => exact s.enterTarget_unwarned σ name
  | exitStatement keyword text => exact s.complete_unwarned σ keyword text
  | exitBody =>
    simp only [act, hblock]
    cases σ.block.ensureClosed with
    | ok u => rfl
    | error fault => exact (State.unwarned_fail σ _).symm
  | array text =>
    simp only [act]
    cases Json.readStrings text <;> rfl
  | key key =>
    simp only [act]
    cases checkKey key with
    | ok u => rfl
    | error r => exact (State.unwarned_fail (σ.mapOperands fun o => { o with key }) _).symm
  | _ => rfl

theorem visit_unwarned (s : Session) (σ : State) (v : Visit) :
    (s.warning false).visit σ.unwarned v = (s.visit σ v).unwarned := by
  cases v with
  | trace message => exact (State.unwarned_note (by decide) message).symm
  | event e =>
    have hignores : σ.unwarned.ignores = σ.ignores := rfl
    have hproblem : σ.unwarned.problem = σ.problem := rfl
    simp only [visit, step, hignores, hproblem, act_unwarned]
    cases e <;> exact (apply_ite State.unwarned _ _ _).symm

/-- Without reports a build file is interpreted as with them, up to the warnings. -/
theorem interpret_unwarned (s : Session) (d : Document) :
    (s.warning false).interpret d = (s.interpret d).unwarned := by
  have hrun (vs : List Visit) (σ : State) :
      vs.foldl (s.warning false).visit σ.unwarned = (vs.foldl s.visit σ).unwarned := by
    induction vs generalizing σ with
    | nil => rfl
    | cons v vs ih => rw [List.foldl_cons, List.foldl_cons, visit_unwarned, ih]
  exact hrun d.visits (s.initial.note .debug s!"interpreting target {s.settings.target}")

end Session

/-! ## Redundant statements -/

namespace Scope
variable {sc : Scope} {i : Invocation}

theorem yields_planRun_redundant (sc : Scope) (i : Invocation) :
    sc.Yields (fun p => p.redundant = false) (sc.planRun i) := by
  simp only [planRun, yields_bind, yields_read]
  intro r hr
  rw [yields_allow_unless]
  intro hp
  split
  · simp [Yields]
  split
  · split
    · simp [Yields]
    · cases sc.block with
      | awaitingRun setup => exact rfl
      | idle => simp [DockerBlock.takeSetup, Except.mapError, Yields, bind, Except.bind]
      | ran => simp [DockerBlock.takeSetup, Except.mapError, Yields, bind, Except.bind]
  · exact rfl

theorem yields_planSaveImage_redundant (sc : Scope) (i : Invocation) :
    sc.Yields (fun p => p.redundant = true ↔ p.calls = []) (sc.planSaveImage i) := by
  simp only [planSaveImage, yields_bind, yields_read]
  intro r hr
  rw [yields_allow_unless]
  intro hp
  split
  · simp [Yields]
  split
  · simp [Yields, pure, Except.pure]
  · simp [Yields, pure, Except.pure, issue]

/-- A plan is redundant if it is that of a saved image and makes no call. -/
theorem redundant_iff {p : Plan} (h : sc.plan i = .ok p) :
    p.redundant = true ↔ i.keyword = .saveImage ∧ p.calls = [] := by
  have hshape := sc.yields_shape i
  rw [h] at hshape
  have hissue {context : String} {calls : List Call} (hk : i.keyword ≠ .saveImage)
      (hp : p = sc.issue context calls) :
      p.redundant = true ↔ i.keyword = .saveImage ∧ p.calls = [] := by
    simp [hp, hk, issue]
  cases hshape with
  | single operation hplain hops hsingle =>
    obtain ⟨-, context, call, -, hp⟩ := hsingle
    exact hissue (fun hk => hplain (by simp [hk, compound])) hp
  | copies hk _ hcopies =>
    cases hcopies with
    | artifacts _ _ _ _ _ _ _ _ hp => exact hissue (by simp [hk]) hp
    | files _ _ _ _ _ _ hp => exact hissue (by simp [hk]) hp
  | builds hk _ hbuilds =>
    obtain ⟨_, _, _, _, _, -, -, hp⟩ := hbuilds
    exact hissue (by simp [hk]) hp
  | run _ hk _ _ _ _ =>
    have hrun := sc.yields_planRun_redundant i
    have hplan : sc.planRun i = .ok p := by rw [← h, plan, hk]
    rw [hplan] at hrun
    have hfalse : p.redundant = false := hrun
    simp [hfalse, hk]
  | saveImage _ hk _ _ _ _ _ =>
    have hsave := sc.yields_planSaveImage_redundant i
    have hplan : sc.planSaveImage i = .ok p := by rw [← h, plan, hk]
    rw [hplan] at hsave
    exact hsave.trans (by simp [hk])
  | opens _ _ hk _ _ _ _ hp => simp [hp, hk]
  | closes hk _ _ hp => simp [hp, hk]

end Scope

/-- A saved image that succeeded without asking the builder. -/
def Transition.IsRedundant (x : Transition) : Prop :=
  x.keyword = .saveImage ∧ x.Succeeded ∧ x.attempts = []

instance : DecidablePred Transition.IsRedundant := fun x =>
  inferInstanceAs (Decidable (x.keyword = .saveImage ∧ x.after.ignores = false ∧ x.attempts = []))

theorem Transition.not_isRedundant_of_ignores {x : Transition} (h : x.after.ignores = true) :
    ¬ x.IsRedundant :=
  fun hx => absurd (h.symm.trans hx.2.1) (by simp)

namespace Session
variable {s : Session} {σ τ : State}

/-! ## Warnings of one statement -/

theorem warnings_eq (hs : s.settings.warnDeprecations = true) {sc : Scope} {i : Invocation}
    {p : Plan} (h : sc.plan i = .ok p) :
    s.warnings p =
      if i.keyword = .saveImage ∧ p.calls = [] then [⟨.warn, deprecation⟩] else [] := by
  simp only [warnings, hs, Bool.and_true, Scope.redundant_iff h]

theorem warnings_attempted (s : Session) (σ : State) (p : Plan) (attempts : List Attempt) :
    (s.attempted σ p attempts).warnings = σ.warnings ++ s.warnings p := by
  have hall : (s.warnings p).filter LogEntry.isWarning = s.warnings p := by
    rw [warnings]
    split <;> rfl
  rw [attempted, State.warnings, List.filter_append, hall]
  rfl

/-- A warning is logged where a saved image leads to no problem and to no attempt. -/
theorem warnings_conclude (hs : s.settings.warnDeprecations = true) (h : σ.problem = none)
    (i : Invocation) :
    (s.conclude σ i).warnings = σ.warnings ++
      if i.keyword = .saveImage ∧ (s.conclude σ i).problem = none ∧
        (s.conclude σ i).attempts = σ.attempts then [⟨.warn, deprecation⟩] else [] := by
  rcases s.conclude_cases σ i with
    ⟨r, -, hc⟩ | ⟨p, before, call, after, failure, hplan, hcalls, hc⟩ | ⟨p, hplan, hc⟩
  · rw [hc, State.warnings_fail, if_neg (by simp), List.append_nil]
  · have hnone : s.warnings p = [] := by
      rw [warnings_eq hs hplan, if_neg (by simp [hcalls])]
    rw [hc, State.warnings_fail, warnings_attempted, hnone, if_neg (by simp)]
  · have hlog : (s.applied σ i.text p).warnings = σ.warnings ++ s.warnings p := by
      rw [← s.warnings_attempted σ p (p.calls.map .success)]
      exact State.warnings_note (by decide) _
    have hproblem : (s.applied σ i.text p).problem = none := h
    have hattempts : (s.applied σ i.text p).attempts = σ.attempts ↔ p.calls = [] := by
      change σ.attempts ++ p.calls.map .success = σ.attempts ↔ p.calls = []
      rw [List.append_right_eq_self, List.map_eq_nil_iff]
    rw [hc, hlog, warnings_eq hs hplan]
    simp only [hproblem, hattempts, true_and]

theorem warnings_perform (hs : s.settings.warnDeprecations = true) (h : σ.problem = none)
    (t : Statement) :
    (s.perform σ t).warnings = σ.warnings ++
      if t.keyword = .saveImage ∧ (s.perform σ t).problem = none ∧
        (s.perform σ t).attempts = σ.attempts then [⟨.warn, deprecation⟩] else [] := by
  unfold perform
  cases ht : t.invocation with
  | error r => simp [State.warnings_fail]
  | ok i =>
    rw [← keyword_of_invocation ht]
    exact warnings_conclude hs h i

theorem isRedundant_iff (h : σ.ignores = false) (t : Statement) :
    (s.transition σ t).IsRedundant ↔ t.keyword = .saveImage ∧ (s.read σ t).problem = none ∧
      (s.read σ t).attempts = σ.attempts := by
  have hselection : (s.read σ t).selection = σ.selection := selection_foldl_read s σ [t]
  have hactive := (σ.ignores_eq_false_iff.mp h).2
  have hsucceeded : (s.transition σ t).Succeeded ↔ (s.read σ t).problem = none := by
    refine (State.ignores_eq_false_iff _).trans ?_
    change (s.read σ t).problem = none ∧ (s.read σ t).selection.isActive = true ↔ _
    simp [hselection, hactive]
  rw [Transition.IsRedundant, hsucceeded, attempts_read, List.append_right_eq_self]
  rfl

theorem warnings_read (hs : s.settings.warnDeprecations = true) (σ : State) (t : Statement) :
    (s.read σ t).warnings = σ.warnings ++
      if (s.transition σ t).IsRedundant then [⟨.warn, deprecation⟩] else [] := by
  have hnote : (σ.note .trace s!"{t.text} at {t.range.text}").warnings = σ.warnings :=
    State.warnings_note (by decide) _
  cases hi : σ.ignores with
  | true =>
    rw [if_neg (Transition.not_isRedundant_of_ignores (ignores_read hi t)), read_of_ignores hi,
      hnote, List.append_nil]
  | false =>
    have hproblem : (σ.note .trace s!"{t.text} at {t.range.text}").problem = none :=
      (σ.ignores_eq_false_iff.mp hi).1
    simp only [isRedundant_iff hi, read_of_not_ignores hi]
    rw [warnings_perform hs hproblem, hnote]
    rfl

/-! ## Warnings of bodies -/

/-- One warning for each redundant statement. -/
def notices (s : Session) (σ : State) (ts : List Statement) : List LogEntry :=
  List.replicate ((s.transitions σ ts).countP (decide <| Transition.IsRedundant ·))
    ⟨.warn, deprecation⟩

theorem warnings_foldl_read (hs : s.settings.warnDeprecations = true) (σ : State)
    (ts : List Statement) : (ts.foldl s.read σ).warnings = σ.warnings ++ s.notices σ ts := by
  induction ts generalizing σ with
  | nil => exact (List.append_nil _).symm
  | cons t ts ih =>
    rw [List.foldl_cons, ih, warnings_read hs, List.append_assoc, notices, notices, transitions,
      List.countP_cons]
    by_cases hr : (s.transition σ t).IsRedundant
    · simp [hr, List.replicate_succ]
    · simp [hr]

theorem notices_of_ignores (h : σ.ignores = true) (ts : List Statement) : s.notices σ ts = [] := by
  rw [notices, List.countP_eq_zero.mpr, List.replicate_zero]
  intro x hx
  obtain ⟨us, t, vs, -, rfl⟩ := exists_of_mem_transitions hx
  have hbefore : (us.foldl s.read σ).ignores = true := by
    rw [← Bool.not_eq_false]
    exact fun hnot => by simp [ignores_of_foldl_read hnot] at h
  simpa using Transition.not_isRedundant_of_ignores (ignores_read hbefore t)

theorem notices_congr (h : σ.unlogged = τ.unlogged) (ts : List Statement) :
    s.notices σ ts = s.notices τ ts := by
  rw [notices, notices]
  congr 1
  induction ts generalizing σ τ with
  | nil => rfl
  | cons t ts ih =>
    have hread : (s.read σ t).unlogged = (s.read τ t).unlogged := by
      rw [← read_unlogged, h, read_unlogged]
    have hignores := State.view_of_unlogged hread State.ignores fun _ => rfl
    have hafter := State.view_of_unlogged hread (·.attempts) fun _ => rfl
    have hbefore := State.view_of_unlogged h (·.attempts) fun _ => rfl
    have hsame : (s.transition σ t).IsRedundant ↔ (s.transition τ t).IsRedundant := by
      simp only [Transition.IsRedundant, Transition.Succeeded, Transition.attempts,
        Transition.keyword, transition, hignores, hafter, hbefore]
    rw [transitions, transitions, List.countP_cons, List.countP_cons, ih hread]
    simp only [hsame]

def bodyNotices (s : Session) (σ : State) (b : Body) : List LogEntry :=
  s.notices (s.step σ .enterBody) b.statements

theorem bodyNotices_of_ignores (h : σ.ignores = true) (b : Body) : s.bodyNotices σ b = [] := by
  rw [bodyNotices, step_of_ignores h _ (by simp)]
  exact notices_of_ignores h b.statements

theorem bodyNotices_congr (h : σ.unlogged = τ.unlogged) (b : Body) :
    s.bodyNotices σ b = s.bodyNotices τ b := by
  apply notices_congr
  rw [← step_unlogged_enterBody, h, step_unlogged_enterBody]

theorem warnings_readBody (hs : s.settings.warnDeprecations = true) (σ : State) (b : Body) :
    (s.readBody σ b).warnings = σ.warnings ++ s.bodyNotices σ b := by
  have henter : (s.step σ .enterBody).warnings = σ.warnings := by
    rw [step_enterBody]
    rfl
  have hexit (τ : State) : (s.step τ .exitBody).warnings = τ.warnings := by
    rcases s.step_exitBody_cases τ with h | ⟨p, h⟩
    · rw [h]
    · rw [h, State.warnings_fail]
  rw [readBody, hexit, warnings_foldl_read hs, henter, bodyNotices]

/-! ## Warnings of build files -/

theorem warnings_step_header (s : Session) (σ : State) (name : String) :
    (s.step σ (.header name)).warnings = σ.warnings := by
  have hbegin : (s.begin σ name).warnings = σ.warnings := by
    have hnote (τ : State) : (τ.note .debug s!"entering target {name}").warnings = τ.warnings :=
      State.warnings_note (by decide) _
    unfold begin
    cases s.builder.reply s.context σ.calls .inheritance with
    | some failure => exact (State.warnings_fail _ _).trans (hnote _)
    | none => exact hnote _
  rcases s.step_header_cases σ name with ⟨-, h⟩ | ⟨fault, h⟩ | ⟨-, h⟩ | ⟨-, -, -, h⟩
  · rw [h]
  · rw [h, State.warnings_fail]
    rfl
  · rw [h]
    rfl
  · rw [h, hbegin]

theorem warnings_readRecipe (hs : s.settings.warnDeprecations = true) (σ : State) (r : Recipe) :
    (s.readRecipe σ r).warnings =
      σ.warnings ++ s.bodyNotices (s.step σ (.header r.name)) r.body := by
  have hlogged : (s.step (σ.note .trace s!"target header {r.name} at {r.range.text}")
      (.header r.name)).unlogged = (s.step σ (.header r.name)).unlogged := by
    rw [← step_unlogged_header, ← s.step_unlogged_header σ]
    rfl
  rw [readRecipe, warnings_readBody hs, warnings_step_header, State.warnings_note (by decide),
    bodyNotices_congr hlogged]

theorem warnings_recipes_of_isSettled (hs : s.settings.warnDeprecations = true)
    (h : σ.isSettled = true) (rs : List Recipe) :
    (rs.foldl s.readRecipe σ).warnings = σ.warnings := by
  induction rs generalizing σ with
  | nil => rfl
  | cons r rs ih =>
    obtain ⟨-, hignores, -⟩ := step_header_of_isSettled (s := s) h r.name
    rw [List.foldl_cons, ih (readRecipe_of_isSettled h r).2, warnings_readRecipe hs,
      bodyNotices_of_ignores hignores, List.append_nil]

/-- Of all recipes, only the first that is requested can lead to warnings. -/
theorem warnings_recipes (hs : s.settings.warnDeprecations = true) (h : σ.ignores = true)
    (rs : List Recipe) {k : Nat}
    (hk : k = (rs.map (·.name)).findIdx (· == σ.selection.requested) + 1) :
    (rs.foldl s.readRecipe σ).warnings = σ.warnings ++
      s.bodyNotices (s.pass σ ((rs.map (·.name)).take k))
        (((rs.find? (·.name == σ.selection.requested)).map (·.body)).getD {}) := by
  induction rs generalizing σ k with
  | nil => exact (List.append_nil _).symm
  | cons r rs ih =>
    by_cases hn : r.name = σ.selection.requested
    · have hk1 : k = 1 := by simp [hk, hn, List.findIdx_cons]
      rw [List.foldl_cons, warnings_recipes_of_isSettled hs (s.isSettled_readRecipe hn),
        warnings_readRecipe hs]
      simp [hk1, hn, pass]
    · have hk' : k = (rs.map (·.name)).findIdx (· == σ.selection.requested) + 1 + 1 := by
        simp [hk, beq_eq_false_iff_ne.mpr hn, List.findIdx_cons]
      obtain ⟨hu, hi, hq⟩ := s.readRecipe_other hn
      rw [List.foldl_cons, ih hi (by rw [hq]), hq, hk', warnings_readRecipe hs,
        bodyNotices_of_ignores (ignores_step_header s hn), List.append_nil,
        bodyNotices_congr (pass_unlogged hu _)]
      simp [hn, pass]

theorem warnings_interpret (hs : s.settings.warnDeprecations = true) (d : Document) :
    (s.interpret d).warnings =
      s.bodyNotices (s.start d.names) (d.selected s.settings.target) := by
  let σ := s.initial.note .debug s!"interpreting target {s.settings.target}"
  have hd : (s.interpret d).clear = s.readDocument σ d := s.foldl_visit_document σ d
  have hclear : (s.interpret d).warnings = (s.readDocument σ d).warnings := by
    rw [← hd]
    rfl
  have hσ : σ.unlogged = s.initial.unlogged := rfl
  have hb := base_unlogged hσ d.base
  have hbase : (if d.base.isEmpty then σ else s.readBody σ d.base).warnings =
      s.bodyNotices s.initial d.base := by
    rw [← bodyNotices_congr hσ]
    split
    · next he =>
      rw [Body.isEmpty, List.isEmpty_iff] at he
      rw [bodyNotices, he]
      rfl
    · exact warnings_readBody hs σ d.base
  rw [hclear, readDocument]
  by_cases ht : s.settings.target = baseTarget
  · have hfound : s.initial.selection.found = true := beq_iff_eq.mpr ht
    have hsettled : (s.readBody s.initial d.base).isSettled = true :=
      isSettled_readBody (by simp [State.isSettled, hfound]) d.base
    have hsettled' := (State.view_of_unlogged hb State.isSettled fun _ => rfl).trans hsettled
    rw [warnings_recipes_of_isSettled hs hsettled', hbase]
    simp [start, lead, Document.selected, ht, pass]
  · have hignores := s.ignores_initial ht
    have hu := hb.trans (readBody_of_ignores hignores d.base)
    have hi := (State.view_of_unlogged hu State.ignores fun _ => rfl).trans hignores
    have hq := State.view_of_unlogged hu (·.selection.requested) fun _ => rfl
    have ht' : s.initial.selection.requested = s.settings.target := rfl
    rw [warnings_recipes hs hi d.recipes rfl, hbase, bodyNotices_of_ignores hignores,
      List.nil_append, bodyNotices_congr (pass_unlogged hu _), hq, ht']
    simp [start, lead, Document.selected, Document.names, Document.recipe?, ht]

/-! ## Whole runs -/

theorem shownEntries_filter (level : Option LogLevel) (log : List LogEntry)
    (keep : LogEntry → Bool) :
    shownEntries level (log.filter keep) = (shownEntries level log).filter keep := by
  cases level with
  | none => rfl
  | some greatest => exact List.filter_comm _ _ _

theorem filter_isWarning_shownEntries (greatest : LogLevel) (log : List LogEntry) :
    (shownEntries (some greatest) log).filter LogEntry.isWarning =
      log.filter LogEntry.isWarning := by
  rw [shownEntries, List.filter_filter]
  congr 1
  funext entry
  cases hw : entry.isWarning with
  | false => rfl
  | true =>
    have hlevel : entry.level = .warn := of_decide_eq_true hw
    simp [hlevel, LogLevel.rank]

/-- Whether deprecated forms are reported changes neither the attempts nor the outcome of an
interpretation. At each level the log of the run without reports is that of the run with them, less
its warnings. These are one for each statement of the requested body that saves an image and
succeeds without asking the builder. -/
theorem reports_only_observe (s : Session) (d : Document) :
    let reporting := s.warning true
    let silent := s.warning false
    (silent.interpret d).attempts = (reporting.interpret d).attempts ∧
    (silent.interpret d).outcome = (reporting.interpret d).outcome ∧
    (∀ level, shownEntries level (silent.interpret d).log =
      (shownEntries level (reporting.interpret d).log).filter (·.level ≠ .warn)) ∧
    ∀ level : LogLevel,
      (shownEntries (some level) (reporting.interpret d).log).filter (·.level = .warn) =
        List.replicate ((reporting.requestedTransitions d).countP fun x => x.IsRedundant)
          ⟨.warn, deprecation⟩ := by
  intro reporting silent
  have hsilent : silent.interpret d = (reporting.interpret d).unwarned :=
    reporting.interpret_unwarned d
  have hkeep : (fun entry => !entry.isWarning) =
      fun entry : LogEntry => decide (entry.level ≠ .warn) := by
    funext entry
    simp [LogEntry.isWarning]
  rw [hsilent]
  refine ⟨rfl, rfl, fun level => ?_, fun level => ?_⟩
  · rw [← hkeep]
    exact shownEntries_filter level _ _
  · have hwarnings := warnings_interpret (s := reporting) rfl d
    exact (filter_isWarning_shownEntries level _).trans hwarnings

/-- The image with a name goes to the builder, and the body of another target is not read. -/
example :
    let s : Session := { builder := .scripted id none, settings := { target := "build" } }
    let ts := [.ofWords .saveImage [], .ofWords .saveImage ["app"], .ofWords .saveImage []]
    let d := (Document.withRecipe {} "build" ts).withRecipe "test" ts
    (s.interpret d).warnings = List.replicate 2 ⟨.warn, deprecation⟩ := by
  decide +kernel

end Session
end Buildfile
