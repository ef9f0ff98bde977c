import Buildfile.Proofs.PlanModes
import Buildfile.Proofs.References
import Mathlib.Data.List.Forall2

/-! # The calls of a plan

Which calls a statement makes, and how many, follows from its keyword, its flags and its sources.
Most statements make one call. A copy of artifacts makes one for each source, a build one for each
platform, and some statements make none.
-/

namespace Buildfile

def Keyword.refused : List Keyword :=
  [.add, .stopsignal, .shell, .onbuild, .dockerLoad, .dockerPull, .other]

theorem forall₂_of_mapM {α β ε : Type} {f : α → Except ε β} {xs : List α} {ys : List β}
    (h : xs.mapM f = .ok ys) : List.Forall₂ (fun x y => f x = .ok y) xs ys := by
  induction xs generalizing ys with
  | nil =>
    cases h
    exact .nil
  | cons x xs ih =>
    rw [List.mapM_cons] at h
    cases hx : f x with
    | error e =>
      rw [hx] at h
      cases h
    | ok y =>
      rw [hx] at h
      cases hxs : xs.mapM f with
      | error e =>
        rw [hxs] at h
        cases h
      | ok rest =>
        rw [hxs] at h
        cases h
        exact .cons hx (ih hxs)

namespace Scope
variable {sc : Scope} {i : Invocation} {p : Plan}

/-! ## What a word gives -/

/-- The expansion of the word as a reference can be read as an artifact. -/
def NamesArtifact (sc : Scope) (word : String) : Prop :=
  ∃ a, Artifact.parse (sc.reference word) = .ok a

theorem source_of_namesArtifact {word : String} (h : sc.NamesArtifact word) :
    sc.source word = .artifact (sc.reference word) := by
  obtain ⟨a, ha⟩ := h
  simp only [source, ha, Artifact.text_of_parse ha]

theorem source_of_not_namesArtifact {word : String} (h : ¬ sc.NamesArtifact word) :
    sc.source word = .path (sc.literal word) := by
  unfold source
  split
  next a ha => exact absurd ⟨a, ha⟩ h
  · rfl

theorem isArtifact_source_iff {word : String} :
    (sc.source word).isArtifact = true ↔ sc.NamesArtifact word := by
  by_cases h : sc.NamesArtifact word
  · simp [source_of_namesArtifact h, h, Source.isArtifact]
  · simp [source_of_not_namesArtifact h, h, Source.isArtifact]

instance (sc : Scope) : DecidablePred sc.NamesArtifact := fun _ =>
  decidable_of_iff _ isArtifact_source_iff

theorem text_source (sc : Scope) (word : String) :
    (sc.source word).text =
      if sc.NamesArtifact word then sc.reference word else sc.literal word := by
  by_cases h : sc.NamesArtifact word
  · rw [source_of_namesArtifact h, if_pos h]
    rfl
  · rw [source_of_not_namesArtifact h, if_neg h]
    rfl

theorem all_isArtifact_iff {words : List String} :
    (words.map sc.source).all Source.isArtifact = true ↔ ∀ word ∈ words, sc.NamesArtifact word := by
  simp [isArtifact_source_iff]

theorem any_isArtifact_iff {words : List String} :
    (words.map sc.source).any Source.isArtifact = true ↔ ∃ word ∈ words, sc.NamesArtifact word := by
  simp [isArtifact_source_iff]

/-- The platform that the expansion of a word gives, which may be empty. -/
inductive GivesPlatform (sc : Scope) (raw : String) : Option Platform → Prop
  | none (empty : sc.literal raw = "") : GivesPlatform sc raw none
  | some {platform : Platform} (parsed : Platform.parse (sc.literal raw) = .ok platform) :
    GivesPlatform sc raw (some platform)

theorem givesPlatform_of_platform {raw : String} {platform : Option Platform}
    (h : sc.platform raw = .ok platform) : sc.GivesPlatform raw platform := by
  unfold Scope.platform at h
  dsimp only at h
  split at h
  · next hempty =>
    cases h
    exact .none (String.isEmpty_iff.mp hempty)
  · split at h
    · next parsed =>
      cases h
      exact .some parsed
    · cases h

/-! ## Counting calls -/

/-- The number of calls that a statement makes unless it is refused. -/
def callCount (sc : Scope) (i : Invocation) : Nat :=
  let counted (flags : List Flag) (count : Flag.Reading → Nat) : Nat :=
    match i.read flags with
    | .ok r => count r
    | .error _ => 0
  match i.keyword with
  | .withDocker | .endBlock => 0
  | .saveImage => counted saveImageFlags fun r => if savesNothing r then 0 else 1
  | .copy => counted copyFlags fun r =>
      if ∀ word ∈ r.arguments.dropLast, sc.NamesArtifact word then r.arguments.dropLast.length
      else 1
  | .build => counted buildFlags fun r => max 1 (r.list "platform").length
  | _ => 1

/-- The calls are those that a statement has to make. -/
structure Accounts (sc : Scope) (i : Invocation) (calls : List Call) : Prop where
  supported : i.keyword ∉ Keyword.refused
  operations : ∀ c ∈ calls, c.operation ∈ i.keyword.operations
  length : calls.length = sc.callCount i
  /-- A copy asks for each artifact in order, or once for all files. -/
  sources : i.keyword = .copy → ∃ r, i.read copyFlags = .ok r ∧
    ((∀ word ∈ r.arguments.dropLast, sc.NamesArtifact word) ∧
        (∃ dest platform buildArgs options ifExists,
          calls = r.arguments.dropLast.map fun word =>
            .copyArtifact (sc.reference word) dest platform buildArgs options ifExists) ∨
      (∀ word ∈ r.arguments.dropLast, ¬ sc.NamesArtifact word) ∧
        ∃ c, calls = [c] ∧ c.operation = .copyFiles)
  /-- A build is made for each given platform in order, or once if none is given. -/
  platforms : i.keyword = .build → ∃ r target buildArgs, i.read buildFlags = .ok r ∧
    (r.list "platform" = [] ∧ calls = [.build target none buildArgs] ∨
      List.Forall₂ (fun raw c => ∃ platform, sc.GivesPlatform raw platform ∧
        c = .build target platform buildArgs) (r.list "platform") calls)

theorem Single.accounts {operation : Operation} (h : sc.Single operation p)
    (hk : i.keyword.operations = [operation])
    (hm : i.keyword ∉ compound) : sc.Accounts i p.calls := by
  obtain ⟨-, context, call, hop, rfl⟩ := h
  simp only [compound, List.mem_cons, List.not_mem_nil, or_false, not_or] at hm
  refine ⟨?_, ?_, ?_, fun hc => absurd hc hm.2.2.1, fun hb => absurd hb hm.2.2.2.1⟩
  · intro hr
    simp only [Keyword.refused, List.mem_cons, List.not_mem_nil, or_false] at hr
    rcases hr with hr | hr | hr | hr | hr | hr | hr <;> rw [hr] at hk <;> cases hk
  · simp [issue, hk, hop]
  · unfold callCount
    cases hkey : i.keyword <;> simp_all [issue]

theorem Copies.accounts (h : sc.Copies i p) (hk : i.keyword = .copy) : sc.Accounts i p.calls := by
  have hr : i.keyword ∉ Keyword.refused := by simp [hk, Keyword.refused]
  have hb : i.keyword ≠ .build := by simp [hk]
  have hcount {r : Flag.Reading} (hread : i.read copyFlags = .ok r) : sc.callCount i =
      if ∀ word ∈ r.arguments.dropLast, sc.NamesArtifact word then r.arguments.dropLast.length
      else 1 := by
    simp only [callCount, hk, hread]
  cases h with
  | artifacts r dest platform buildArgs options ifExists hread hall hplan =>
    subst hplan
    have hsources := all_isArtifact_iff.mp hall
    refine ⟨hr, ?_, ?_, fun _ => ⟨r, hread, .inl ⟨hsources, dest, platform, buildArgs, options,
      ifExists, ?_⟩⟩, fun h => absurd h hb⟩
    · intro c hc
      obtain ⟨source, -, rfl⟩ := List.mem_map.mp hc
      simp [hk, Keyword.operations, Call.operation]
    · rw [hcount hread, if_pos hsources]
      simp [issue]
    · rw [issue, List.map_map]
      refine List.map_congr_left fun word hword => ?_
      rw [Function.comp_apply, text_source, if_pos (hsources word hword)]
  | files r hread hall hany call hop hplan =>
    subst hplan
    have hsources : ∀ word ∈ r.arguments.dropLast, ¬ sc.NamesArtifact word :=
      fun word hword hnames =>
        Bool.eq_false_iff.mp hany (any_isArtifact_iff.mpr ⟨word, hword, hnames⟩)
    refine ⟨hr, ?_, ?_, fun _ => ⟨r, hread, .inr ⟨hsources, call, rfl, hop⟩⟩, fun h => absurd h hb⟩
    · simp [issue, hk, hop, Keyword.operations]
    · rw [hcount hread, if_neg (mt all_isArtifact_iff.mpr (Bool.eq_false_iff.mp hall))]
      rfl

theorem Builds.accounts (h : sc.Builds i p) (hk : i.keyword = .build) : sc.Accounts i p.calls := by
  obtain ⟨r, given, target, buildArgs, context, hread, hgiven, rfl⟩ := h
  have hf := forall₂_of_mapM hgiven
  have hcount : sc.callCount i = max 1 (r.list "platform").length := by
    simp only [callCount, hk, hread]
  have hc : i.keyword ≠ .copy := by simp [hk]
  refine ⟨by simp [hk, Keyword.refused], ?_, ?_, fun h => absurd h hc,
    fun _ => ⟨r, target, buildArgs, hread, ?_⟩⟩
  · intro c hc
    obtain ⟨platform, -, rfl⟩ := List.mem_map.mp hc
    simp [hk, Keyword.operations, Call.operation]
  · rw [hcount, hf.length_eq]
    cases given <;> simp [issue]
  · cases given with
    | nil => exact .inl ⟨List.forall₂_nil_right_iff.mp hf, rfl⟩
    | cons platform rest =>
      right
      exact List.forall₂_map_right_iff.mpr (hf.imp fun raw platform h =>
        ⟨platform, givesPlatform_of_platform h, rfl⟩)

theorem Runs.accounts {r : Flag.Reading} (h : sc.Runs i r p) (hk : i.keyword = .run) :
    sc.Accounts i p.calls := by
  obtain ⟨call, hcalls, hop⟩ :
      ∃ call, p.calls = [call] ∧ call.operation ∈ i.keyword.operations := by
    rw [hk]
    cases h with
    | alone options _ _ hc _ => exact ⟨_, hc, by simp [Keyword.operations, Call.operation]⟩
    | inBlock setup _ _ hc _ => exact ⟨_, hc, by simp [Keyword.operations, Call.operation]⟩
  refine ⟨by simp [hk, Keyword.refused], by simpa [hcalls] using hop, ?_, by simp [hk],
    by simp [hk]⟩
  simp only [hcalls, callCount, hk, List.length_singleton]

theorem accounts_of_saveImage {r : Flag.Reading} (hk : i.keyword = .saveImage)
    (hread : i.read saveImageFlags = .ok r)
    (hc : savesNothing r = true ∧ p.calls = [] ∨ savesNothing r = false ∧
      ∃ names options, p.calls = [.saveImage names options]) : sc.Accounts i p.calls := by
  refine ⟨by simp [hk, Keyword.refused], ?_, ?_, by simp [hk], by simp [hk]⟩
  · rcases hc with ⟨-, hcalls⟩ | ⟨-, names, options, hcalls⟩
    · simp [hcalls]
    · simp [hcalls, hk, Keyword.operations, Call.operation]
  · simp only [callCount, hk, hread]
    rcases hc with ⟨hs, hcalls⟩ | ⟨hs, names, options, hcalls⟩
    · simp [hs, hcalls]
    · simp [hs, hcalls]

/-- The two ends of a block make no call. -/
theorem accounts_nil (hk : i.keyword = .withDocker ∨ i.keyword = .endBlock) :
    sc.Accounts i [] := by
  rcases hk with hk | hk <;>
    exact ⟨by simp [hk, Keyword.refused], by simp, by simp [callCount, hk], by simp [hk],
      by simp [hk]⟩

theorem Shape.accounts (h : sc.Shape i p) : sc.Accounts i p.calls := by
  cases h with
  | single operation hplain hops hs => exact hs.accounts hops hplain
  | copies hk _ hc => exact hc.accounts hk
  | builds hk _ hb => exact hb.accounts hk
  | run r hk _ _ _ hruns => exact hruns.accounts hk
  | saveImage r hk hread _ _ _ hc =>
    exact accounts_of_saveImage hk hread <| hc.imp (fun ⟨hs, hcalls, _⟩ => ⟨hs, hcalls⟩)
      fun ⟨hs, names, options, hcalls, _⟩ => ⟨hs, names, options, hcalls⟩
  | opens r platform hk _ _ _ _ hp =>
    rw [hp]
    exact accounts_nil (.inl hk)
  | closes hk _ _ hp =>
    rw [hp]
    exact accounts_nil (.inr hk)

/-- A statement that is not refused makes the calls that it has to make. -/
theorem accounts_of_plan (h : sc.plan i = .ok p) : sc.Accounts i p.calls := by
  have hy := sc.yields_shape i
  rw [h] at hy
  exact hy.accounts

end Scope
end Buildfile
