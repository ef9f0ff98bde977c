import Buildfile.Proofs.FirstProblem
import Buildfile.Proofs.PlanCalls

/-! # Refusals come before effects

A statement is checked to its end before the first of its calls is attempted. If its problem is no
failure of the builder, nothing has been attempted, and the modes of the body, the open block with
its setup and the target are as they were. One bad word among many holds back every call of its
statement.
-/

namespace Buildfile

/-- A refusal is the problem of the second state, and it has left all modes as they were in the
first. -/
structure Refused (σ τ : State) : Prop where
  refusal : ∃ r : Refusal, τ.problem = some r.problem
  attempts : τ.attempts = σ.attempts
  pushOnly : τ.pushOnly = σ.pushOnly
  block : τ.block = σ.block
  selection : τ.selection = σ.selection

theorem refused_fail (σ : State) (r : Refusal) : Refused σ (σ.fail r.problem) :=
  ⟨⟨r, rfl⟩, rfl, rfl, rfl, rfl⟩

theorem refused_operands_iff {σ τ : State} {o : Operands} :
    Refused σ { τ with operands := o } ↔ Refused σ τ :=
  ⟨fun ⟨hr, ha, hp, hb, hs⟩ => ⟨hr, ha, hp, hb, hs⟩,
    fun ⟨hr, ha, hp, hb, hs⟩ => ⟨hr, ha, hp, hb, hs⟩⟩

theorem Refused.problem_ne_builder {σ τ : State} (h : Refused σ τ) :
    ∃ p, τ.problem = some p ∧ p.category ≠ .builder := by
  obtain ⟨r, hr⟩ := h.refusal
  exact ⟨r.problem, hr, r.category_ne_builder⟩

namespace Scope.Accounts
variable {sc : Scope} {i : Invocation} {calls : List Call} {r : Flag.Reading}

/-- A build makes its calls only if each of its platforms can be read. -/
theorem givesPlatform (h : sc.Accounts i calls) (hk : i.keyword = .build)
    (hr : i.read buildFlags = .ok r) {raw : String} (hm : raw ∈ r.list "platform") :
    ∃ platform, sc.GivesPlatform raw platform := by
  obtain ⟨q, target, buildArgs, hq, hcalls⟩ := h.platforms hk
  obtain rfl : r = q := Except.ok.inj (hr.symm.trans hq)
  rcases hcalls with ⟨hnone, -⟩ | hall
  · rw [hnone] at hm
    cases hm
  · obtain ⟨k, hlt, rfl⟩ := List.getElem_of_mem hm
    obtain ⟨platform, hplatform, -⟩ := hall.get hlt (hall.length_eq ▸ hlt)
    exact ⟨platform, hplatform⟩

/-- A copy makes its calls only if its sources are all of one kind. -/
theorem namesArtifact (h : sc.Accounts i calls) (hk : i.keyword = .copy)
    (hr : i.read copyFlags = .ok r) {word other : String} (hw : word ∈ r.arguments.dropLast)
    (ho : other ∈ r.arguments.dropLast) (hnames : sc.NamesArtifact word) :
    sc.NamesArtifact other := by
  obtain ⟨q, hq, hcalls⟩ := h.sources hk
  obtain rfl : r = q := Except.ok.inj (hr.symm.trans hq)
  rcases hcalls with ⟨hall, -⟩ | ⟨hnone, -⟩
  · exact hall other ho
  · exact absurd hnames (hnone word hw)

end Scope.Accounts

namespace Session
variable {s : Session} {σ : State}

/-! ## Complete statements -/

/-- A handler that ends with a problem of its own has not touched the state, although it works in
place. -/
theorem eq_of_handle_refused {i : Invocation} {p : Problem} {τ : State}
    (h : (s.handle i).run.run σ = (.error p, τ)) (hp : p.category ≠ .builder) : τ = σ := by
  rw [s.enacts_handle] at h
  cases hplan : (s.scope σ).plan i with
  | error r =>
    rw [hplan] at h
    exact (Prod.mk.inj h).2.symm
  | ok plan =>
    rw [hplan, ends, carryOut] at h
    split at h
    · obtain ⟨hproblem, -⟩ := Prod.mk.inj h
      cases hproblem
      exact absurd rfl hp
    · cases (Prod.mk.inj h).1

theorem refused_conclude {i : Invocation} (h : ∀ p, (s.scope σ).plan i ≠ .ok p) :
    Refused σ (s.conclude σ i) := by
  cases hp : (s.scope σ).plan i with
  | ok p => exact absurd hp (h p)
  | error r =>
    rw [conclude_of_refusal hp]
    exact refused_fail σ r

/-- The problem of a statement with a plan comes from the builder. -/
theorem refused_conclude_iff (h : σ.problem = none) (i : Invocation) :
    Refused σ (s.conclude σ i) ↔
      ∃ p, (s.conclude σ i).problem = some p ∧ p.category ≠ .builder := by
  refine ⟨Refused.problem_ne_builder, fun ⟨p, hp, hc⟩ => ?_⟩
  rcases conclude_ends (s := s) h i with ⟨r, -, hr⟩ | ⟨plan, -, -, hplan⟩
  · rw [hr]
    exact refused_fail σ r
  · obtain ⟨failure, -, rfl⟩ := Option.map_eq_some_iff.mp (hplan.symm.trans hp)
    exact absurd rfl hc

theorem refused_of_platform {i : Invocation} {r : Flag.Reading} (hk : i.keyword = .build)
    (hr : i.read Scope.buildFlags = .ok r) {raw : String} (hm : raw ∈ r.list "platform")
    (hne : (s.scope σ).literal raw ≠ "") {fault : Platform.Fault}
    (hf : Platform.parse ((s.scope σ).literal raw) = .error fault) :
    Refused σ (s.conclude σ i) := by
  apply refused_conclude
  intro p hp
  obtain ⟨platform, hplatform⟩ := (Scope.accounts_of_plan hp).givesPlatform hk hr hm
  cases hplatform with
  | none hempty => exact hne hempty
  | some hparsed => cases hf.symm.trans hparsed

theorem refused_of_sources {i : Invocation} {r : Flag.Reading} (hk : i.keyword = .copy)
    (hr : i.read Scope.copyFlags = .ok r) {word other : String}
    (hw : word ∈ r.arguments.dropLast) (ho : other ∈ r.arguments.dropLast) {a : Artifact}
    (ha : Artifact.parse ((s.scope σ).reference word) = .ok a) {fault : ReferenceFault}
    (hf : Artifact.parse ((s.scope σ).reference other) = .error fault) :
    Refused σ (s.conclude σ i) := by
  apply refused_conclude
  intro p hp
  obtain ⟨b, hb⟩ := (Scope.accounts_of_plan hp).namesArtifact hk hr hw ho ⟨a, ha⟩
  cases hf.symm.trans hb

/-! ## Statements and their events -/

theorem refused_perform_iff (h : σ.problem = none) (t : Statement) :
    Refused σ (s.perform σ t) ↔
      ∃ p, (s.perform σ t).problem = some p ∧ p.category ≠ .builder := by
  unfold perform
  cases t.invocation with
  | ok i => exact refused_conclude_iff h i
  | error r => exact iff_of_true (refused_fail σ r) (refused_fail σ r).problem_ne_builder

theorem refused_events_iff (h : σ.ignores = false) (t : Statement) :
    Refused σ (t.events.foldl s.step σ) ↔ Refused σ (s.perform σ t) := by
  rw [foldl_step_statement h]
  exact refused_operands_iff

/-- A statement that meets a problem other than a failure of the builder is refused: it has
attempted nothing and has left the modes, the block and the target as they were. Its handler, which
undoes nothing, leaves the very state that it started from. This holds for whole statements and for
whatever operands a statement is completed with. A build with a platform that cannot be read is
refused in this way, whatever its other words are, and so is a copy of artifacts and files at
once. -/
theorem refusals_precede_effects (s : Session) (σ : State) (h : σ.ignores = false) :
    (∀ (i : Invocation) (p : Problem) (τ : State),
      (s.handle i).run.run σ = (.error p, τ) → p.category ≠ .builder → τ = σ) ∧
    (∀ t : Statement, Refused σ (t.events.foldl s.step σ) ↔
      ∃ p, (t.events.foldl s.step σ).problem = some p ∧ p.category ≠ .builder) ∧
    (∀ keyword text, Refused σ (s.step σ (.exitStatement keyword text)) ↔
      ∃ p, (s.step σ (.exitStatement keyword text)).problem = some p ∧ p.category ≠ .builder) ∧
    ∀ (t : Statement) (i : Invocation) (r : Flag.Reading), t.invocation = .ok i →
      (i.keyword = .build → i.read Scope.buildFlags = .ok r →
        ∀ raw ∈ r.list "platform", (s.scope σ).literal raw ≠ "" →
          ∀ fault, Platform.parse ((s.scope σ).literal raw) = .error fault →
            Refused σ (t.events.foldl s.step σ)) ∧
      (i.keyword = .copy → i.read Scope.copyFlags = .ok r →
        ∀ word ∈ r.arguments.dropLast, ∀ other ∈ r.arguments.dropLast,
          ∀ a fault, Artifact.parse ((s.scope σ).reference word) = .ok a →
            Artifact.parse ((s.scope σ).reference other) = .error fault →
              Refused σ (t.events.foldl s.step σ)) := by
  have hp : σ.problem = none := (σ.ignores_eq_false_iff.mp h).1
  refine ⟨fun i p τ => eq_of_handle_refused, fun t => ?_, fun keyword text => ?_,
    fun t i r hi => ?_⟩
  · rw [refused_events_iff h, refused_perform_iff hp, foldl_step_statement h]
  · rw [step_exitStatement h, refused_operands_iff]
    exact refused_conclude_iff hp _
  · have hperform : s.perform σ t = s.conclude σ i := by rw [perform, hi]
    rw [refused_events_iff h, hperform]
    constructor
    · intro hk hr raw hm hne fault hf
      exact refused_of_platform hk hr hm hne hf
    · intro hk hr word hw other ho a fault ha hf
      exact refused_of_sources hk hr hw ho ha hf

/-- The second of two platforms cannot be read, and the last of three sources is a file. Nothing is
built or copied, and the open block keeps its setup. -/
theorem refusals_precede_effects_last :
    let s : Session := { builder := .scripted id none }
    let block : DockerBlock := .awaitingRun { composeFiles := ["compose.yml"] }
    let σ : State := { State.initial {} with block }
    let build := Statement.ofWords .build
      ["--platform", "linux/amd64", "--platform", "linux//amd64", "+test"]
    let copy := Statement.ofWords .copy ["+lib/a", "+lib/b", "notes.txt", "/srv"]
    σ.ignores = false ∧
      Refused σ (build.events.foldl s.step σ) ∧ (build.events.foldl s.step σ).attempts = [] ∧
      (build.events.foldl s.step σ).block = block ∧
      Refused σ (copy.events.foldl s.step σ) ∧ (copy.events.foldl s.step σ).attempts = [] ∧
      (copy.events.foldl s.step σ).block = block := by
  intro s block σ build copy
  let given : Flag.Reading :=
    { values := [("platform", .list ["linux/amd64", "linux//amd64"]),
        ("platform", .list ["linux/amd64"]), ("build-arg", .list []), ("platform", .list [])],
      arguments := ["+test"] }
  let sources : Flag.Reading :=
    { values := Flag.initialValues Scope.copyFlags,
      arguments := ["+lib/a", "+lib/b", "notes.txt", "/srv"] }
  have hgiven : Invocation.read ⟨.build, build.text, build.arguments.operands⟩ Scope.buildFlags =
    .ok given := by decide +kernel
  have hsources : Invocation.read ⟨.copy, copy.text, copy.arguments.operands⟩ Scope.copyFlags =
    .ok sources := by decide +kernel
  have hplatform : Platform.parse ((s.scope σ).literal "linux//amd64") =
    .error ⟨.emptyComponent, "linux//amd64"⟩ := by decide +kernel
  have hartifact : Artifact.parse ((s.scope σ).reference "+lib/a") =
    .ok ⟨⟨.here, "lib"⟩, "a"⟩ := by decide +kernel
  have hfile : Artifact.parse ((s.scope σ).reference "notes.txt") =
    .error (.missingMarker "notes.txt") := by decide +kernel
  obtain ⟨-, -, -, hstatement⟩ := s.refusals_precede_effects σ rfl
  have hbuild := (hstatement build _ given rfl).1 rfl hgiven "linux//amd64" (by decide)
    (by decide +kernel) _ hplatform
  have hcopy := (hstatement copy _ sources rfl).2 rfl hsources "+lib/a" (by decide) "notes.txt"
    (by decide) _ _ hartifact hfile
  exact ⟨rfl, hbuild, hbuild.attempts, hbuild.block, hcopy, hcopy.attempts, hcopy.block⟩

end Session
end Buildfile
