import Buildfile.Proofs.Platforms

/-! # Specifiers that are read alike

Two specifiers are read alike if both give the same platform, or if both are refused for the same
flaw. This is so if they differ only in the case of ASCII letters. Whatever is read names a known
system and a known architecture, and an empty component is the first flaw that is looked for.
-/

namespace Buildfile
namespace Platform
variable {specifier host os : String} {p : Platform}

/-- A text with its ASCII letters in lower case. -/
def lower (text : String) : String := String.ofList (text.toList.map Char.toLower)

def written (specifier : String) : List String :=
  (specifier.toList.splitOn '/').map String.ofList

/-- Both specifiers give the same platform, or both are refused for the same flaw. -/
inductive ReadAlike (host left right : String) : Prop
  | read (p : Platform) (hl : parse left host = .ok p) (hr : parse right host = .ok p)
  | refused (flaw : Flaw) (hl : parse left host = .error ⟨flaw, left⟩)
      (hr : parse right host = .error ⟨flaw, right⟩)

/-! ## Components and letter case -/

theorem toLower_eq_slash_iff (c : Char) : c.toLower = '/' ↔ c = '/' := by
  constructor
  · intro h
    have halpha : c.isAlpha = false := by
      rw [← Char.isLower_toLower_eq_isAlpha, h]
      rfl
    have hupper : c.isUpper = false := by
      rw [Char.isAlpha, Bool.or_eq_false_iff] at halpha
      exact halpha.1
    rwa [Char.toLower_eq_of_not_isUpper (by simp [hupper])] at h
  · rintro rfl
    rfl

theorem splitOn_map {separator : Char} {f : Char → Char}
    (hf : ∀ c, f c = separator ↔ c = separator) (text : List Char) :
    (text.map f).splitOn separator = (text.splitOn separator).map (List.map f) := by
  induction text with
  | nil => rfl
  | cons c rest ih =>
    rw [List.map_cons, List.splitOn_cons_eq_if_modifyHead, List.splitOn_cons_eq_if_modifyHead, ih]
    by_cases hc : c = separator
    · simp [hc, (hf separator).mpr rfl]
    · have hfc : f c ≠ separator := fun h => hc ((hf c).mp h)
      obtain ⟨first, others, hsplit⟩ :=
        List.exists_cons_of_ne_nil (List.splitOn_ne_nil separator rest)
      simp [hc, hfc, hsplit]

theorem components_eq_map_written (specifier : String) :
    components specifier = (written specifier).map lower := by
  rw [components, written, splitOn_map toLower_eq_slash_iff, List.map_map, List.map_map]
  refine List.map_congr_left fun piece _ => ?_
  rw [Function.comp_apply, Function.comp_apply, lower, String.toList_ofList]

theorem lower_eq_empty_iff (text : String) : lower text = "" ↔ text = "" := by
  rw [lower, ← String.toList_inj, String.toList_ofList]
  simp

theorem empty_mem_components_iff : "" ∈ components specifier ↔ "" ∈ written specifier := by
  rw [components_eq_map_written, List.mem_map]
  simp only [lower_eq_empty_iff, exists_eq_right]

theorem components_ne_nil (specifier : String) : components specifier ≠ [] := by
  rw [components, ne_eq, List.map_eq_nil_iff]
  exact List.splitOn_ne_nil _ _

theorem components_eq_of_lower {left right : String} (h : lower left = lower right) :
    components left = components right := by
  rw [components, components, String.ofList_injective h]

/-! ## Reading and refusing -/

theorem parse_eq_error_iff {fault : Fault} :
    parse specifier host = .error fault ↔
      ofComponents (components specifier) host = .error fault.flaw ∧
        fault.specifier = specifier := by
  obtain ⟨flaw, text⟩ := fault
  rw [parse]
  cases ofComponents (components specifier) host with
  | error other => simp [Except.mapError, eq_comm]
  | ok p => simp [Except.mapError]

theorem readAlike_iff {left right : String} :
    ReadAlike host left right ↔
      ofComponents (components left) host = ofComponents (components right) host := by
  constructor
  · rintro (⟨p, hl, hr⟩ | ⟨flaw, hl, hr⟩)
    · rw [parse_eq_ok_iff.mp hl, parse_eq_ok_iff.mp hr]
    · rw [(parse_eq_error_iff.mp hl).1, (parse_eq_error_iff.mp hr).1]
  · intro h
    cases hr : ofComponents (components right) host with
    | ok p => exact .read p (parse_eq_ok_iff.mpr (h.trans hr)) (parse_eq_ok_iff.mpr hr)
    | error flaw =>
      exact .refused flaw (parse_eq_error_iff.mpr ⟨h.trans hr, rfl⟩)
        (parse_eq_error_iff.mpr ⟨hr, rfl⟩)

theorem flaw_of_onSystem {architecture : String} {variant : Option String} {flaw : Flaw}
    (h : onSystem os architecture variant = .error flaw) : flaw = .unknown := by
  rcases hc : canonicalArchitecture architecture variant with ⟨name, v⟩
  rw [onSystem, hc] at h
  dsimp only at h
  split_ifs at h
  exact (Except.error.inj h).symm

theorem flaw_of_ofParts {architecture : String} {variant : Option String} {flaw : Flaw}
    (h : ofParts os architecture variant = .error flaw) : flaw = .unknown := by
  rw [ofParts] at h
  split at h
  · exact flaw_of_onSystem h
  · exact (Except.error.inj h).symm

theorem ofComponents_of_empty {parts : List String} (h : "" ∈ parts) :
    ofComponents parts host = .error .emptyComponent :=
  if_pos h

theorem ofComponents_one {single : String} (h : "" ∉ [single]) :
    ofComponents [single] host =
      if single ∈ knownSystems then .ok ⟨single, host, none⟩ else onSystem "linux" single none :=
  if_neg h

theorem ofComponents_two {architecture : String} (h : "" ∉ [os, architecture]) :
    ofComponents [os, architecture] host = ofParts os architecture none :=
  if_neg h

theorem ofComponents_three {architecture variant : String}
    (h : "" ∉ [os, architecture, variant]) :
    ofComponents [os, architecture, variant] host = ofParts os architecture (some variant) :=
  if_neg h

theorem ofComponents_of_many {parts : List String} (hempty : "" ∉ parts)
    (hmany : 3 < parts.length) : ofComponents parts host = .error .tooManyComponents := by
  match parts, hempty, hmany with
  | _ :: _ :: _ :: _ :: _, hempty, _ => exact if_neg hempty

theorem flaw_of_few {parts : List String} {flaw : Flaw} (hempty : "" ∉ parts)
    (hnil : parts ≠ []) (hfew : ¬ 3 < parts.length)
    (h : ofComponents parts host = .error flaw) : flaw = .unknown := by
  match parts, hempty, hnil, hfew, h with
  | [_], hempty, _, _, h =>
    rw [ofComponents_one hempty] at h
    split_ifs at h
    exact flaw_of_onSystem h
  | [_, _], hempty, _, _, h =>
    rw [ofComponents_two hempty] at h
    exact flaw_of_ofParts h
  | [_, _, _], hempty, _, _, h =>
    rw [ofComponents_three hempty] at h
    exact flaw_of_ofParts h
  | _ :: _ :: _ :: _ :: _, _, _, hfew, _ =>
    simp only [List.length_cons] at hfew
    omega

/-- An empty component is found before the components are counted. -/
theorem flaw_of_ofComponents {parts : List String} {flaw : Flaw} (hnil : parts ≠ [])
    (h : ofComponents parts host = .error flaw) :
    flaw = if "" ∈ parts then .emptyComponent
      else if 3 < parts.length then .tooManyComponents else .unknown := by
  split_ifs with hempty hmany
  · rw [ofComponents_of_empty hempty] at h
    exact (Except.error.inj h).symm
  · rw [ofComponents_of_many hempty hmany] at h
    exact (Except.error.inj h).symm
  · exact flaw_of_few hempty hnil hmany h

theorem hostArchitecture_mem (processor : String) :
    hostArchitecture processor ∈ knownArchitectures := by
  have hall : ∀ host ∈ hostArchitectures, host.2 ∈ knownArchitectures := by decide
  rw [hostArchitecture]
  cases h : hostArchitectures.lookup processor with
  | none => decide
  | some host =>
    obtain ⟨before, after, hsplit, -⟩ := List.lookup_eq_some_iff.mp h
    exact hall (processor, host) (by simp [hsplit])

theorem IsComponent.isUpper_eq_false {text : String} (h : IsComponent text) :
    ∀ c ∈ text.toList, c.isUpper = false := by
  intro c hc
  rw [← h.2.2] at hc
  obtain ⟨d, -, rfl⟩ := List.mem_map.mp hc
  exact Char.isUpper_toLower_eq_false d

/-- What is read is a known system and a known architecture with a variant that is written in
lower case, on every host. Letter case changes nothing but how a refused specifier is reported, and
an empty component is reported even if there are too many. -/
theorem platforms_ignore_letter_case (processor specifier : String) :
    (∀ p, parse specifier (hostArchitecture processor) = .ok p →
      p.os ∈ knownSystems ∧ p.architecture ∈ knownArchitectures ∧
      ∀ v ∈ p.variant, v ≠ "" ∧ '/' ∉ v.toList ∧ (∀ c ∈ v.toList, c.isUpper = false) ∧
        (p.architecture = "arm" → v.toList.head? = some 'v')) ∧
    (∀ other, lower specifier = lower other →
      ReadAlike (hostArchitecture processor) specifier other) ∧
    (parse specifier (hostArchitecture processor) = .error ⟨.emptyComponent, specifier⟩ ↔
      "" ∈ written specifier) ∧
    (parse specifier (hostArchitecture processor) = .error ⟨.tooManyComponents, specifier⟩ ↔
      "" ∉ written specifier ∧ 3 < (written specifier).length) := by
  have hlength : (components specifier).length = (written specifier).length := by
    rw [components_eq_map_written, List.length_map]
  refine ⟨fun p hp => ?_, fun other hother => ?_, ?_, ?_⟩
  · have husual := (readFrom_of_parse hp (hostArchitecture_mem processor)).usual
    refine ⟨husual.os, husual.architecture, fun v hv => ?_⟩
    have hcomponent := husual.variant v hv
    exact ⟨hcomponent.1, hcomponent.2.1, hcomponent.isUpper_eq_false,
      fun harm => husual.arm harm v hv⟩
  · exact readAlike_iff.mpr (congrArg (ofComponents · _) (components_eq_of_lower hother))
  · rw [parse_eq_error_iff, ← empty_mem_components_iff]
    refine ⟨fun ⟨h, _⟩ => ?_, fun h => ⟨ofComponents_of_empty h, rfl⟩⟩
    have hflaw := flaw_of_ofComponents (components_ne_nil specifier) h
    by_contra hempty
    rw [if_neg hempty] at hflaw
    split_ifs at hflaw
  · rw [parse_eq_error_iff, ← empty_mem_components_iff, ← hlength]
    refine ⟨fun ⟨h, _⟩ => ?_, fun h => ⟨ofComponents_of_many h.1 h.2, rfl⟩⟩
    have hflaw := flaw_of_ofComponents (components_ne_nil specifier) h
    split_ifs at hflaw with hempty hmany
    exact ⟨hempty, hmany⟩

end Platform
end Buildfile
