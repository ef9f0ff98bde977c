import Buildfile.Proofs.Specifiers

/-! # Other names of systems and architectures

A specifier with another name of its system or its architecture is read like the specifier with the
usual name, whatever the letter case and the variant. There are two exceptions: `macos` is no system
where it stands alone, and `aarch64` keeps the variants `8` and `v8`, which `arm64` drops.
-/

namespace Buildfile
namespace Platform
variable {host os usual other : String} {variant : Option String}

/-- Names of one system, the usual one first. -/
def systemNames : List (String × String) := [("darwin", "macos")]

def architectureNames : List (String × String) :=
  [("386", "i386"), ("amd64", "x86_64"), ("amd64", "x86-64"), ("arm64", "aarch64")]

/-- Written components of which the first have a usual name, in any letter case, where the second
have another name. -/
inductive Renamed : List String → List String → Prop
  | system {usual other : String} (rest : List String)
      (h : (lower usual, lower other) ∈ systemNames) : Renamed (usual :: rest) (other :: rest)
  | alone {usual other : String} (h : (lower usual, lower other) ∈ architectureNames) :
      Renamed [usual] [other]
  | architecture {usual other : String} (os : String) (rest : List String)
      (h : (lower usual, lower other) ∈ architectureNames) :
      Renamed (os :: usual :: rest) (os :: other :: rest)

/-- Components of the 64-bit ARM architecture of a known system, with a variant that only the usual
name drops. -/
structure KeepsVariant (usual other : List String) (os variant : String) : Prop where
  usual : usual = [os, "arm64", variant]
  other : other = [os, "aarch64", variant]
  known : canonicalSystem os ∈ knownSystems
  redundant : Redundant "arm64" (some variant)

/-! ## Names of architectures -/

theorem architectureNames_cases (h : (usual, other) ∈ architectureNames) :
    usual = "386" ∧ other = "i386" ∨ usual = "amd64" ∧ other = "x86_64" ∨
      usual = "amd64" ∧ other = "x86-64" ∨ usual = "arm64" ∧ other = "aarch64" := by
  simpa [architectureNames] using h

/-- What the names of architectures have in common. -/
structure Synonyms (usual other : String) : Prop where
  known : usual ∈ knownArchitectures
  ne_arm : usual ≠ "arm"
  usual_ne_empty : usual ≠ ""
  other_ne_empty : other ≠ ""
  usual_notMem : usual ∉ knownSystems
  other_notMem : other ∉ knownSystems
  other_ne_macos : other ≠ "macos"
  other_eq : usual = "arm64" → other = "aarch64"

theorem synonyms_of_mem (h : (usual, other) ∈ architectureNames) : Synonyms usual other := by
  rcases architectureNames_cases h with
    ⟨rfl, rfl⟩ | ⟨rfl, rfl⟩ | ⟨rfl, rfl⟩ | ⟨rfl, rfl⟩ <;>
  constructor <;> decide

theorem canonicalArchitecture_other (h : (usual, other) ∈ architectureNames) :
    canonicalArchitecture other variant = (usual, variant) := by
  rcases architectureNames_cases h with ⟨rfl, rfl⟩ | ⟨rfl, rfl⟩ | ⟨rfl, rfl⟩ | ⟨rfl, rfl⟩ <;> rfl

theorem onSystem_other (h : (usual, other) ∈ architectureNames) :
    onSystem os other variant = .ok ⟨os, usual, variant⟩ := by
  rw [onSystem_eq_ok_iff, canonicalArchitecture_other h]
  exact ⟨(synonyms_of_mem h).known, rfl⟩

theorem onSystem_usual (h : (usual, other) ∈ architectureNames) :
    onSystem os usual variant =
      .ok ⟨os, usual, if Redundant usual variant then none else variant⟩ := by
  have hnames := synonyms_of_mem h
  rw [onSystem_eq_ok_iff,
    canonicalArchitecture_of_known hnames.known fun harm => absurd harm hnames.ne_arm]
  exact ⟨hnames.known, rfl⟩

theorem onSystem_usual_eq_other_iff (h : (usual, other) ∈ architectureNames) :
    onSystem os usual variant = onSystem os other variant ↔ ¬ Redundant usual variant := by
  rw [onSystem_usual h, onSystem_other h]
  by_cases hr : Redundant usual variant
  · rcases hr.2 with hv | hv <;> simp [hv]
  · simp [hr]

/-! ## Components with other names -/

theorem ofParts_usual_eq_other_iff (h : (usual, other) ∈ architectureNames) :
    ofParts os usual variant = ofParts os other variant ↔
      ¬ (canonicalSystem os ∈ knownSystems ∧ Redundant usual variant) := by
  rw [ofParts, ofParts]
  by_cases hos : canonicalSystem os ∈ knownSystems
  · simp [hos, onSystem_usual_eq_other_iff h]
  · simp [hos]

theorem ne_of_canonicalSystem (h : canonicalSystem os ∈ knownSystems) : "" ≠ os := by
  rintro rfl
  revert h
  decide

theorem ne_of_redundant {architecture v : String} (h : Redundant architecture (some v)) :
    "" ≠ v := by
  rintro rfl
  exact absurd h.2 (by decide)

theorem not_redundant_none (architecture : String) : ¬ Redundant architecture none := by
  simp [Redundant]

theorem ofComponents_usual_eq_other_iff (h : (usual, other) ∈ architectureNames)
    (rest : List String) :
    ofComponents (os :: usual :: rest) host = ofComponents (os :: other :: rest) host ↔
      ∀ v, rest = [v] → ¬ (canonicalSystem os ∈ knownSystems ∧ Redundant usual (some v)) := by
  have hnames := synonyms_of_mem h
  have hempty : "" ∈ os :: usual :: rest ↔ "" ∈ os :: other :: rest := by
    simp [hnames.usual_ne_empty.symm, hnames.other_ne_empty.symm]
  by_cases hleft : "" ∈ os :: usual :: rest
  · rw [ofComponents_of_empty hleft, ofComponents_of_empty (hempty.mp hleft)]
    refine iff_of_true rfl ?_
    rintro v rfl ⟨hos, hr⟩
    simp [ne_of_canonicalSystem hos, ne_of_redundant hr, hnames.usual_ne_empty.symm] at hleft
  · have hright := fun hmem => hleft (hempty.mpr hmem)
    match rest, hleft, hright with
    | [], hleft, hright =>
      rw [ofComponents_two hleft, ofComponents_two hright, ofParts_usual_eq_other_iff h]
      simp [not_redundant_none]
    | [v], hleft, hright =>
      rw [ofComponents_three hleft, ofComponents_three hright, ofParts_usual_eq_other_iff h]
      simp
    | _ :: _ :: _, hleft, hright =>
      rw [ofComponents_of_many hleft (by simp), ofComponents_of_many hright (by simp)]
      simp

theorem ofComponents_alone (h : (usual, other) ∈ architectureNames) :
    ofComponents [usual] host = ofComponents [other] host := by
  have hnames := synonyms_of_mem h
  rw [ofComponents_one (by simp [hnames.usual_ne_empty.symm]),
    ofComponents_one (by simp [hnames.other_ne_empty.symm]), if_neg hnames.usual_notMem,
    if_neg hnames.other_notMem, onSystem_usual_eq_other_iff h]
  exact not_redundant_none usual

theorem ofComponents_darwin : ofComponents ["darwin"] host = .ok ⟨"darwin", host, none⟩ := rfl

theorem ofComponents_macos : ofComponents ["macos"] host = .error .unknown := rfl

theorem ofComponents_darwin_eq_macos_iff (rest : List String) :
    ofComponents ("darwin" :: rest) host = ofComponents ("macos" :: rest) host ↔ rest ≠ [] := by
  have hempty : "" ∈ "darwin" :: rest ↔ "" ∈ "macos" :: rest := by simp
  by_cases hleft : "" ∈ "darwin" :: rest
  · rw [ofComponents_of_empty hleft, ofComponents_of_empty (hempty.mp hleft)]
    refine iff_of_true rfl ?_
    rintro rfl
    simp at hleft
  · have hright := fun hmem => hleft (hempty.mpr hmem)
    match rest, hleft, hright with
    | [], _, _ => simp [ofComponents_darwin, ofComponents_macos]
    | [_], hleft, hright =>
      rw [ofComponents_two hleft, ofComponents_two hright]
      simp [ofParts, canonicalSystem]
    | [_, _], hleft, hright =>
      rw [ofComponents_three hleft, ofComponents_three hright]
      simp [ofParts, canonicalSystem]
    | _ :: _ :: _ :: _, hleft, hright =>
      rw [ofComponents_of_many hleft (by simp), ofComponents_of_many hright (by simp)]
      simp

/-! ## Specifiers with other names -/

theorem eq_of_mem_systemNames (h : (usual, other) ∈ systemNames) :
    usual = "darwin" ∧ other = "macos" := by
  simpa [systemNames] using h

theorem ofComponents_renamed_iff {xs ys : List String} (h : Renamed xs ys) :
    ofComponents (xs.map lower) host = ofComponents (ys.map lower) host ↔
      ys.map lower ≠ ["macos"] ∧
        ∀ os variant, ¬ KeepsVariant (xs.map lower) (ys.map lower) os variant := by
  cases h with
  | @system usual other rest h =>
    obtain ⟨husual, hother⟩ := eq_of_mem_systemNames h
    rw [List.map_cons, List.map_cons, husual, hother, ofComponents_darwin_eq_macos_iff]
    constructor
    · intro hrest
      refine ⟨by simpa using hrest, fun os variant hkeeps => ?_⟩
      have hos := (List.cons.inj hkeeps.usual).1.trans (List.cons.inj hkeeps.other).1.symm
      exact absurd hos (by decide)
    · rintro ⟨hmacos, -⟩ hrest
      exact hmacos (by rw [hrest])
  | @alone usual other h =>
    refine iff_of_true (ofComponents_alone h) ⟨fun hmacos => ?_, fun os variant hkeeps => ?_⟩
    · exact (synonyms_of_mem h).other_ne_macos (List.cons.inj hmacos).1
    · have husual := (List.cons.inj hkeeps.usual).2
      cases husual
  | @architecture usual other os rest h =>
    rw [List.map_cons, List.map_cons, List.map_cons, List.map_cons,
      ofComponents_usual_eq_other_iff h]
    constructor
    · intro hall
      refine ⟨by simp, fun os' variant hkeeps => ?_⟩
      obtain ⟨hos, hparts⟩ := List.cons.inj hkeeps.usual
      obtain ⟨husual, hrest⟩ := List.cons.inj hparts
      exact hall variant hrest ⟨hos ▸ hkeeps.known, husual ▸ hkeeps.redundant⟩
    · rintro ⟨-, hall⟩ variant hrest ⟨hos, hr⟩
      have husual : lower usual = "arm64" := hr.1
      have hother := (synonyms_of_mem h).other_eq husual
      exact hall (lower os) variant
        ⟨by rw [husual, hrest], by rw [hother, hrest], hos, husual ▸ hr⟩

theorem Renamed.map_lower_eq_darwin {xs ys : List String} (h : Renamed xs ys)
    (hmacos : ys.map lower = ["macos"]) : xs.map lower = ["darwin"] := by
  cases h with
  | @system usual other rest h =>
    obtain ⟨husual, -⟩ := eq_of_mem_systemNames h
    obtain ⟨-, hrest⟩ := List.cons.inj hmacos
    rw [List.map_cons, husual, hrest]
  | alone h =>
    exact absurd (List.cons.inj hmacos).1 (synonyms_of_mem h).other_ne_macos
  | architecture os rest h =>
    have hrest := (List.cons.inj hmacos).2
    cases hrest

theorem KeepsVariant.ofComponents {xs ys : List String} {os variant : String}
    (h : KeepsVariant xs ys os variant) :
    Platform.ofComponents xs host = .ok ⟨canonicalSystem os, "arm64", none⟩ ∧
      Platform.ofComponents ys host = .ok ⟨canonicalSystem os, "arm64", some variant⟩ := by
  obtain ⟨rfl, rfl, hos, hr⟩ := h
  have hnames : ("arm64", "aarch64") ∈ architectureNames := by decide
  have hne := ne_of_canonicalSystem hos
  have hv := ne_of_redundant hr
  constructor
  · rw [ofComponents_three (by simp [hne, hv]), ofParts, if_pos hos, onSystem_usual hnames,
      if_pos hr]
  · rw [ofComponents_three (by simp [hne, hv]), ofParts, if_pos hos, onSystem_other hnames]

/-- Specifiers that differ in the name of a system or an architecture are read alike, unless the
other name is `macos` alone, which is refused, or `aarch64` with a variant that `arm64` drops. -/
theorem other_names_are_read_alike (processor usual other : String)
    (h : Renamed (written usual) (written other)) :
    let host := hostArchitecture processor
    (ReadAlike host usual other ↔
      components other ≠ ["macos"] ∧
        ∀ os variant, ¬ KeepsVariant (components usual) (components other) os variant) ∧
    (components other = ["macos"] →
      parse usual host = .ok ⟨"darwin", host, none⟩ ∧
        parse other host = .error ⟨.unknown, other⟩) ∧
    ∀ os variant, KeepsVariant (components usual) (components other) os variant →
      parse usual host = .ok ⟨canonicalSystem os, "arm64", none⟩ ∧
        parse other host = .ok ⟨canonicalSystem os, "arm64", some variant⟩ := by
  intro host
  refine ⟨?_, fun hmacos => ?_, fun os variant hkeeps => ?_⟩
  · rw [readAlike_iff, components_eq_map_written, components_eq_map_written]
    exact ofComponents_renamed_iff h
  · have hdarwin : components usual = ["darwin"] := by
      rw [components_eq_map_written] at hmacos ⊢
      exact h.map_lower_eq_darwin hmacos
    rw [parse_eq_ok_iff, parse_eq_error_iff, hdarwin, hmacos]
    exact ⟨ofComponents_darwin, ofComponents_macos, rfl⟩
  · rw [parse_eq_ok_iff, parse_eq_ok_iff]
    exact hkeeps.ofComponents

/-- A variant that `arm64` does not drop is the same under both names. -/
theorem other_names_are_read_alike_variant :
    let usual := "Linux/ARM64/v8.2"
    let other := "Linux/AArch64/v8.2"
    Renamed (written usual) (written other) ∧
      ReadAlike (hostArchitecture "riscv64") usual other := by
  intro usual other
  have husual : written usual = ["Linux", "ARM64", "v8.2"] := by decide +kernel
  have hother : written other = ["Linux", "AArch64", "v8.2"] := by decide +kernel
  have h : Renamed (written usual) (written other) := by
    rw [husual, hother]
    exact .architecture "Linux" ["v8.2"] (by decide +kernel)
  refine ⟨h, (other_names_are_read_alike "riscv64" usual other h).1.mpr ⟨?_, ?_⟩⟩
  · decide +kernel
  · intro os variant hkeeps
    have hparts : components usual = ["linux", "arm64", "v8.2"] := by decide +kernel
    have hvariant := hparts.symm.trans hkeeps.usual
    simp only [List.cons.injEq, and_true] at hvariant
    exact absurd hkeeps.redundant (hvariant.2.2 ▸ by decide)

/-- Not every other name is read like the usual one. -/
theorem exists_other_name_refused :
    ¬ ∀ (processor usual other : String) (p : Platform),
      Renamed (written usual) (written other) →
        parse usual (hostArchitecture processor) = .ok p →
          parse other (hostArchitecture processor) = .ok p := by
  intro hall
  have hdarwin : written "darwin" = ["darwin"] := by decide +kernel
  have hmacos : written "macos" = ["macos"] := by decide +kernel
  have h : Renamed (written "darwin") (written "macos") := by
    rw [hdarwin, hmacos]
    exact .system [] (by decide +kernel)
  have hread : parse "darwin" (hostArchitecture "x86_64") = .ok ⟨"darwin", "amd64", none⟩ := by
    decide +kernel
  have hrefused : parse "macos" (hostArchitecture "x86_64") = .error ⟨.unknown, "macos"⟩ := by
    decide +kernel
  cases hrefused.symm.trans (hall "x86_64" "darwin" "macos" _ h hread)

end Platform
end Buildfile
