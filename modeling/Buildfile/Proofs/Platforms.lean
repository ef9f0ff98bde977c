import Buildfile.Platform
import Mathlib

/-! # Printing and reading platforms again

A platform that was read prints as its system, its architecture and its variant. Reading that text
finds the same system and the same architecture under their usual names. It finds the same variant
too, except that the usual name of an architecture drops a variant which its other name keeps.
-/

namespace Buildfile
namespace Platform
variable {specifier os architecture : String} {variant : Option String} {p : Platform}

/-! ## Components -/

/-- A text that can be one component of a specifier in lower case. -/
def IsComponent (text : String) : Prop :=
  text ≠ "" ∧ '/' ∉ text.toList ∧ text.toList.map Char.toLower = text.toList

theorem isComponent_of_system (h : os ∈ knownSystems) : IsComponent os := by
  have hall : ∀ os ∈ knownSystems, IsComponent os := by
    simp [knownSystems, IsComponent, Char.toLower]
  exact hall os h

theorem isComponent_of_architecture (h : architecture ∈ knownArchitectures) :
    IsComponent architecture := by
  have hall : ∀ name ∈ knownArchitectures, IsComponent name := by
    simp [knownArchitectures, IsComponent, Char.toLower]
  exact hall architecture h

theorem IsComponent.append_v {text : String} (h : IsComponent text) :
    IsComponent ("v" ++ text) := by
  obtain ⟨-, hslash, hlower⟩ := h
  rw [IsComponent, String.toList_append, List.map_append, hlower]
  refine ⟨by simp, ?_, rfl⟩
  rw [List.mem_append, not_or]
  exact ⟨by decide, hslash⟩

theorem of_mem_splitOn {separator : Char} {text piece : List Char}
    (h : piece ∈ text.splitOn separator) : separator ∉ piece ∧ piece ⊆ text := by
  induction text generalizing piece with
  | nil =>
    obtain rfl : piece = [] := by simpa using h
    exact ⟨List.not_mem_nil, List.Subset.refl []⟩
  | cons c rest ih =>
    rw [List.splitOn_cons_eq_if_modifyHead] at h
    split at h
    next hc =>
      rcases List.mem_cons.mp h with rfl | hmem
      · exact ⟨List.not_mem_nil, List.nil_subset _⟩
      · exact ⟨(ih hmem).1, List.subset_cons_of_subset c (ih hmem).2⟩
    next hc =>
      obtain ⟨first, others, hsplit⟩ :=
        List.exists_cons_of_ne_nil (List.splitOn_ne_nil separator rest)
      rw [hsplit, List.modifyHead_cons] at h
      rcases List.mem_cons.mp h with rfl | hmem
      · obtain ⟨hnotMem, hsub⟩ := ih (hsplit ▸ List.mem_cons_self)
        have hne : separator ≠ c := fun heq => hc (by simp [heq])
        exact ⟨List.not_mem_cons_of_ne_of_not_mem hne hnotMem, List.cons_subset_cons c hsub⟩
      · obtain ⟨hnotMem, hsub⟩ := ih (hsplit ▸ List.mem_cons_of_mem first hmem)
        exact ⟨hnotMem, List.subset_cons_of_subset c hsub⟩

theorem isComponent_of_mem {part : String} (h : part ∈ components specifier) (hne : part ≠ "") :
    IsComponent part := by
  obtain ⟨piece, hpiece, rfl⟩ := List.mem_map.mp h
  obtain ⟨hslash, hsub⟩ := of_mem_splitOn hpiece
  rw [IsComponent, String.toList_ofList]
  refine ⟨hne, hslash, ?_⟩
  have hlower : ∀ c ∈ piece, c.toLower = id c := by
    intro c hc
    obtain ⟨d, -, rfl⟩ := List.mem_map.mp (hsub hc)
    exact Char.toLower_toLower_eq_toLower d
  rw [List.map_congr_left hlower, List.map_id]

theorem map_toLower_intercalate {parts : List String} (h : ∀ part ∈ parts, IsComponent part) :
    (['/'].intercalate (parts.map String.toList)).map Char.toLower =
      ['/'].intercalate (parts.map String.toList) := by
  induction parts with
  | nil => rfl
  | cons first others ih =>
    have hfirst := (h first List.mem_cons_self).2.2
    have hothers := ih fun part hpart => h part (List.mem_cons_of_mem first hpart)
    cases others with
    | nil => simpa using hfirst
    | cons next rest =>
      simp only [List.map_cons, List.intercalate_cons_cons, List.map_append] at hothers ⊢
      rw [hfirst, hothers]
      rfl

theorem components_eq {parts : List String} {text : String} (hne : parts ≠ [])
    (h : ∀ part ∈ parts, IsComponent part)
    (ht : text.toList = ['/'].intercalate (parts.map String.toList)) : components text = parts := by
  have hpieces : (['/'].intercalate (parts.map String.toList)).splitOn '/' =
      parts.map String.toList := by
    refine List.splitOn_intercalate '/' (fun piece hpiece => ?_) (by simpa using hne)
    obtain ⟨part, hpart, rfl⟩ := List.mem_map.mp hpiece
    exact (h part hpart).2.1
  rw [components, ht, map_toLower_intercalate h, hpieces, List.map_map]
  simp [Function.comp_def]

/-! ## Usual names -/

/-- The architecture has the variant anyway, so its usual name drops it. -/
def Redundant (architecture : String) (variant : Option String) : Prop :=
  architecture = "arm64" ∧ (variant = some "8" ∨ variant = some "v8")

instance (architecture : String) (variant : Option String) :
    Decidable (Redundant architecture variant) :=
  inferInstanceAs (Decidable (_ ∧ _))

theorem canonicalArchitecture_of_known (h : architecture ∈ knownArchitectures)
    (harm : architecture = "arm" → ∀ v ∈ variant, v.toList.head? = some 'v') :
    canonicalArchitecture architecture variant =
      (architecture, if Redundant architecture variant then none else variant) := by
  have hne {name : String} (hname : name ∉ knownArchitectures) : architecture ≠ name :=
    ne_of_mem_of_not_mem h hname
  have h386 : architecture ≠ "i386" := hne (by decide)
  have hx86 : architecture ≠ "x86_64" := hne (by decide)
  have hdash : architecture ≠ "x86-64" := hne (by decide)
  have haarch : architecture ≠ "aarch64" := hne (by decide)
  have hhf : architecture ≠ "armhf" := hne (by decide)
  have hel : architecture ≠ "armel" := hne (by decide)
  simp only [canonicalArchitecture, h386, hx86, hdash, haarch, hhf, hel, or_self, false_and,
    if_false]
  by_cases hr : Redundant architecture variant
  · have hdrop : architecture = "arm64" ∧ (variant = some "8" ∨ variant = some "v8") := hr
    rw [if_pos hdrop, if_pos hr, hdrop.1]
  · have hkeep : ¬ (architecture = "arm64" ∧ (variant = some "8" ∨ variant = some "v8")) := hr
    rw [if_neg hkeep, if_neg hr]
    split_ifs with hname
    · cases variant with
      | none => rw [hname, Option.map_none]
      | some v => rw [hname, Option.map_some, if_pos (harm hname v rfl)]
    · rfl

theorem forall_mem_canonicalArchitecture (h : ∀ v ∈ variant, IsComponent v) :
    ∀ v ∈ (canonicalArchitecture architecture variant).2, IsComponent v := by
  unfold canonicalArchitecture
  split_ifs
  · exact h
  · exact h
  · exact h
  · simp
  · simp [IsComponent, Char.toLower]
  · simp [IsComponent, Char.toLower]
  · intro v hv
    obtain ⟨w, hw, rfl⟩ := Option.mem_map.mp hv
    split_ifs
    · exact h w hw
    · exact (h w hw).append_v
  · exact h

theorem canonicalArchitecture_arm
    (h : (canonicalArchitecture architecture variant).1 = "arm") :
    ∀ v ∈ (canonicalArchitecture architecture variant).2, v.toList.head? = some 'v' := by
  unfold canonicalArchitecture at h ⊢
  split_ifs at h ⊢
  · simp at h
  · simp at h
  · simp at h
  · simp
  · simp
  · simp
  · intro v hv
    obtain ⟨w, hw, rfl⟩ := Option.mem_map.mp hv
    split_ifs with hhead
    · exact hhead
    · simp
  next harm => exact absurd h harm

/-- Only the other name of the 64-bit ARM architecture keeps a variant that is redundant. -/
theorem redundant_canonicalArchitecture_iff :
    Redundant (canonicalArchitecture architecture variant).1
        (canonicalArchitecture architecture variant).2 ↔
      architecture = "aarch64" ∧ (variant = some "8" ∨ variant = some "v8") := by
  unfold canonicalArchitecture Redundant
  split_ifs with h386 hx86 haarch hdrop hhf hel harm
  · simp [h386]
  · rcases hx86 with hx86 | hx86 <;> simp [hx86]
  · simp [haarch]
  · simp [hdrop.1]
  · simp [hhf.1]
  · simp [hel.1]
  · simp [harm]
  · exact iff_of_false hdrop fun h => haarch h.1

/-! ## Platforms that were read -/

/-- What every platform that was read is like. -/
structure Usual (p : Platform) : Prop where
  os : p.os ∈ knownSystems
  architecture : p.architecture ∈ knownArchitectures
  variant : ∀ v ∈ p.variant, IsComponent v
  arm : p.architecture = "arm" → ∀ v ∈ p.variant, v.toList.head? = some 'v'

/-- The platform without a variant that its architecture has anyway. -/
def reduced (p : Platform) : Platform :=
  { p with variant := if Redundant p.architecture p.variant then none else p.variant }

theorem reduced_of_not_redundant (h : ¬ Redundant p.architecture p.variant) : p.reduced = p := by
  rw [reduced, if_neg h]

theorem reduced_of_redundant (h : Redundant p.architecture p.variant) :
    p.reduced = { p with variant := none } := by
  rw [reduced, if_pos h]

theorem reduced_eq_self_iff : p.reduced = p ↔ ¬ Redundant p.architecture p.variant := by
  refine ⟨fun h hr => ?_, reduced_of_not_redundant⟩
  have hnone : p.variant = none := by rw [← h, reduced_of_redundant hr]
  rcases hr.2 with hv | hv <;> cases hnone.symm.trans hv

theorem Usual.reduced (h : p.Usual) : p.reduced.Usual := by
  by_cases hr : Redundant p.architecture p.variant
  · rw [reduced_of_redundant hr]
    exact ⟨h.os, h.architecture, by simp, by simp⟩
  · rwa [reduced_of_not_redundant hr]

theorem reduced_reduced (p : Platform) : p.reduced.reduced = p.reduced := by
  by_cases hr : Redundant p.architecture p.variant
  · rw [reduced_of_redundant hr]
    exact reduced_of_not_redundant (by simp [Redundant])
  · rw [reduced_of_not_redundant hr, reduced_of_not_redundant hr]

theorem toList_text (p : Platform) : p.text.toList =
    ['/'].intercalate ((p.os :: p.architecture :: p.variant.toList).map String.toList) := by
  obtain ⟨os, architecture, variant⟩ := p
  cases variant with
  | none =>
    change (os ++ "/" ++ architecture).toList = _
    simp [List.intercalate_cons_cons]
  | some v =>
    change (os ++ "/" ++ architecture ++ "/" ++ v).toList = _
    simp [List.intercalate_cons_cons]

theorem Usual.isComponent (h : p.Usual) :
    ∀ part ∈ p.os :: p.architecture :: p.variant.toList, IsComponent part := by
  intro part hpart
  rcases List.mem_cons.mp hpart with rfl | hpart
  · exact isComponent_of_system h.os
  rcases List.mem_cons.mp hpart with rfl | hpart
  · exact isComponent_of_architecture h.architecture
  · exact h.variant part (Option.mem_toList.mp hpart)

theorem Usual.components_text (h : p.Usual) :
    components p.text = p.os :: p.architecture :: p.variant.toList :=
  components_eq (List.cons_ne_nil _ _) h.isComponent (toList_text p)

theorem Usual.ofParts_eq (h : p.Usual) : ofParts p.os p.architecture p.variant = .ok p.reduced := by
  have hos : canonicalSystem p.os = p.os := if_neg (ne_of_mem_of_not_mem h.os (by decide))
  rw [ofParts, hos, if_pos h.os, onSystem, canonicalArchitecture_of_known h.architecture h.arm]
  exact if_pos h.architecture

/-- The text of a platform that was read is read as the reduced platform. -/
theorem Usual.parse_text (h : p.Usual) : parse p.text = .ok p.reduced := by
  have hne : "" ∉ components p.text := by
    rw [h.components_text]
    exact fun hmem => (h.isComponent "" hmem).1 rfl
  have hparts : ofComponents (components p.text) = ofParts p.os p.architecture p.variant := by
    unfold ofComponents
    rw [if_neg hne, h.components_text]
    cases p.variant <;> rfl
  rw [parse, hparts, h.ofParts_eq]
  rfl

/-! ## Reading -/

theorem onSystem_eq_ok_iff :
    onSystem os architecture variant = .ok p ↔
      (canonicalArchitecture architecture variant).1 ∈ knownArchitectures ∧
        p = ⟨os, (canonicalArchitecture architecture variant).1,
          (canonicalArchitecture architecture variant).2⟩ := by
  unfold onSystem
  obtain ⟨name, v⟩ := canonicalArchitecture architecture variant
  by_cases h : name ∈ knownArchitectures
  · simp [h, eq_comm]
  · simp [h]

theorem os_of_onSystem (h : onSystem os architecture variant = .ok p) : p.os = os := by
  rw [(onSystem_eq_ok_iff.mp h).2]

theorem onSystem_of_ofParts (h : ofParts os architecture variant = .ok p) :
    p.os ∈ knownSystems ∧ onSystem p.os architecture variant = .ok p := by
  rw [ofParts] at h
  split_ifs at h with hos
  rw [os_of_onSystem h]
  exact ⟨hos, h⟩

theorem parse_eq_ok_iff {host : String} :
    parse specifier host = .ok p ↔ ofComponents (components specifier) host = .ok p := by
  rw [parse]
  cases ofComponents (components specifier) host <;> simp [Except.mapError]

/-- The components that a platform is read from on some host. -/
inductive ReadFrom (p : Platform) : List String → Prop
  | system {os host : String} (hos : os ∈ knownSystems) (hhost : host ∈ knownArchitectures)
      (hp : p = { os, architecture := host }) : ReadFrom p [os]
  | architecture {name : String} (hos : p.os ∈ knownSystems)
      (h : onSystem p.os name none = .ok p) : ReadFrom p [name]
  | full {written name : String} (variant : Option String) (hos : p.os ∈ knownSystems)
      (hv : ∀ v ∈ variant, IsComponent v) (h : onSystem p.os name variant = .ok p) :
      ReadFrom p (written :: name :: variant.toList)

theorem readFrom_of_parse {host : String} (h : parse specifier host = .ok p)
    (hhost : host ∈ knownArchitectures := by decide) : ReadFrom p (components specifier) := by
  have hparts := parse_eq_ok_iff.mp h
  unfold ofComponents at hparts
  split_ifs at hparts with hne
  split at hparts
  next single heq =>
    rw [heq]
    split_ifs at hparts with hos
    · exact .system hos hhost (Except.ok.inj hparts).symm
    · have hp := os_of_onSystem hparts
      exact .architecture (hp ▸ by decide) (hp ▸ hparts)
  next written name heq =>
    rw [heq]
    obtain ⟨hos, h⟩ := onSystem_of_ofParts hparts
    exact .full none hos (by simp) h
  next written name variant heq =>
    obtain ⟨hos, h⟩ := onSystem_of_ofParts hparts
    have hmem : variant ∈ components specifier := by simp [heq]
    have hv := isComponent_of_mem hmem (ne_of_mem_of_not_mem hmem hne)
    rw [heq]
    exact .full (some variant) hos (by simpa using hv) h
  · cases hparts

theorem usual_of_onSystem (hos : p.os ∈ knownSystems) (hv : ∀ v ∈ variant, IsComponent v)
    (h : onSystem p.os architecture variant = .ok p) : p.Usual := by
  obtain ⟨hknown, hp⟩ := onSystem_eq_ok_iff.mp h
  refine ⟨hos, hp ▸ hknown, ?_, ?_⟩
  · rw [hp]
    exact forall_mem_canonicalArchitecture hv
  · rw [hp]
    exact canonicalArchitecture_arm

theorem ReadFrom.usual {parts : List String} (h : ReadFrom p parts) : p.Usual := by
  cases h with
  | system hos hhost hp =>
    subst hp
    exact ⟨hos, hhost, by simp, by simp⟩
  | architecture hos h => exact usual_of_onSystem hos (by simp) h
  | full _ hos hv h => exact usual_of_onSystem hos hv h

/-- Only the other name of the 64-bit ARM architecture leaves a redundant variant. -/
theorem ReadFrom.redundant_iff {parts : List String} (h : ReadFrom p parts) :
    Redundant p.architecture p.variant ↔
      ∃ os v, parts = [os, "aarch64", v] ∧ (v = "8" ∨ v = "v8") := by
  cases h with
  | system hos hhost hp =>
    subst hp
    simp [Redundant]
  | architecture hos h =>
    rw [(onSystem_eq_ok_iff.mp h).2, redundant_canonicalArchitecture_iff]
    simp
  | @full written name variant hos hv h =>
    rw [(onSystem_eq_ok_iff.mp h).2, redundant_canonicalArchitecture_iff]
    constructor
    · rintro ⟨rfl, rfl | rfl⟩
      · exact ⟨written, "8", rfl, .inl rfl⟩
      · exact ⟨written, "v8", rfl, .inr rfl⟩
    · rintro ⟨os, v, heq, hdropped⟩
      obtain ⟨-, hrest⟩ := List.cons.inj heq
      obtain ⟨rfl, hvariant⟩ := List.cons.inj hrest
      obtain rfl := Option.toList_eq_singleton_iff.mp hvariant
      exact ⟨rfl, by simpa using hdropped⟩

/-- A platform that was read prints as a specifier that is read as the reduced platform, and from
then on as the same platform again. This is the platform itself unless the specifier was for
`aarch64` with the variant `8` or `v8`. -/
theorem printed_platform_reduces (specifier : String) (p : Platform)
    (h : parse specifier = .ok p) :
    (parse p.text = .ok p ↔
      ∀ os v, components specifier = [os, "aarch64", v] → v ≠ "8" ∧ v ≠ "v8") ∧
    parse p.text = .ok p.reduced ∧ parse p.reduced.text = .ok p.reduced := by
  have hread := readFrom_of_parse h
  have htext := hread.usual.parse_text
  have hagain : parse p.reduced.text = .ok p.reduced := by
    rw [hread.usual.reduced.parse_text, reduced_reduced]
  refine ⟨?_, htext, hagain⟩
  have hsame : parse p.text = .ok p ↔ p.reduced = p := by
    rw [htext, Except.ok.injEq]
  rw [hsame, reduced_eq_self_iff, hread.redundant_iff]
  simp only [not_exists, not_and, not_or, ne_eq]

/-- A variant that is not redundant stays, under the other names of its system and architecture. -/
theorem printed_platform_reduces_darwin :
    let specifier := "MacOS/AArch64/v8.2"
    let p : Platform := ⟨"darwin", "arm64", some "v8.2"⟩
    parse specifier = .ok p ∧ p.text = "darwin/arm64/v8.2" ∧ parse p.text = .ok p := by
  intro specifier p
  have h : parse specifier = .ok p := by decide +kernel
  obtain ⟨hsame, -, -⟩ := printed_platform_reduces specifier p h
  refine ⟨h, by decide +kernel, hsame.mpr fun os v hv => ?_⟩
  have hc : components specifier = ["macos", "aarch64", "v8.2"] := by decide +kernel
  rw [hc] at hv
  cases hv
  decide

/-- Not every platform that was read is read again from its own text. -/
theorem exists_printed_platform_ne :
    ¬ ∀ (specifier : String) (p : Platform), parse specifier = .ok p → parse p.text = .ok p := by
  intro hall
  have hread : parse "linux/aarch64/v8" = .ok ⟨"linux", "arm64", some "v8"⟩ := by decide +kernel
  have htext : parse (text ⟨"linux", "arm64", some "v8"⟩) = .ok ⟨"linux", "arm64", none⟩ := by
    decide +kernel
  cases htext.symm.trans (hall _ _ hread)

end Platform
end Buildfile
