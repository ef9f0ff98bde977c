import Buildfile.Flag.Reading
import Mathlib.Tactic.SplitIfs

/-! # Forms of words

A word at the place of a flag is an argument, the double dash, a flag, or neither of these. Which
one it is can be told from its spelling alone, and a flag can be told apart from its value if its
name starts with no dash and has no equals sign.
-/

namespace Buildfile.Flag

/-- A name that can be told apart from the dashes before it and the equals sign after it. -/
structure ProperName (name : String) : Prop where
  nonempty : name ≠ ""
  noDash : name.toList.head? ≠ some '-'
  noEquals : '=' ∉ name.toList

instance (name : String) : Decidable (ProperName name) :=
  decidable_of_iff (name ≠ "" ∧ name.toList.head? ≠ some '-' ∧ '=' ∉ name.toList)
    ⟨fun ⟨hne, hdash, hequals⟩ => ⟨hne, hdash, hequals⟩,
      fun h => ⟨h.nonempty, h.noDash, h.noEquals⟩⟩

def dashes : List String := ["-", "--"]

def spelled (name : String) : Option String → String
  | none => name
  | some raw => name ++ "=" ++ raw

/-- A word that is an argument wherever a flag may stand. -/
def IsArgument (word : String) : Prop := word.toList.head? ≠ some '-' ∨ word = "-"

/-! ## Flags -/

theorem properName_iff {name : String} :
    ProperName name ↔ ∃ c chars, name.toList = c :: chars ∧ c ≠ '-' ∧ '=' ∉ c :: chars := by
  constructor
  · rintro ⟨hne, hdash, hequals⟩
    cases hl : name.toList with
    | nil => exact absurd (String.toList_eq_nil_iff.mp hl) hne
    | cons c chars =>
      rw [hl] at hdash hequals
      exact ⟨c, chars, rfl, by simpa using hdash, hequals⟩
  · rintro ⟨c, chars, hl, hdash, hequals⟩
    refine ⟨?_, by simpa [hl] using hdash, by rwa [hl]⟩
    rintro rfl
    cases hl

theorem ProperName.toList_spelled {name : String} (h : ProperName name) (written : Option String) :
    ∃ c rest, (spelled name written).toList = c :: rest ∧ c ≠ '-' ∧ c ≠ '=' := by
  obtain ⟨c, chars, hl, hdash, hequals⟩ := properName_iff.mp h
  have hc : c ≠ '=' := fun h => hequals (h ▸ List.mem_cons_self)
  cases written with
  | none => exact ⟨c, chars, hl, hdash, hc⟩
  | some raw => exact ⟨c, chars ++ '=' :: raw.toList, by simp [spelled, hl], hdash, hc⟩

theorem cutFirst_spelled {name : String} (h : ProperName name) (written : Option String) :
    Text.cutFirst '=' (spelled name written).toList =
      written.map fun raw => (name.toList, raw.toList) := by
  cases written with
  | none => exact Text.cutFirst_of_notMem h.noEquals
  | some raw =>
    have hl : (spelled name (some raw)).toList = name.toList ++ '=' :: raw.toList := by
      simp [spelled]
    rw [hl, Text.cutFirst_append _ h.noEquals]
    rfl

theorem formOfBody_eq_occurrence_iff {body : List Char} {name : String}
    {written : Option String} :
    formOfBody body = .occurrence name written ↔
      ProperName name ∧ body = (spelled name written).toList := by
  constructor
  · intro h
    cases body with
    | nil => cases h
    | cons c rest =>
      rw [formOfBody] at h
      split_ifs at h with hc
      rw [not_or] at hc
      cases hcut : Text.cutFirst '=' (c :: rest) with
      | none =>
        rw [hcut] at h
        cases h
        have hequals := Text.cutFirst_eq_none_iff.mp hcut
        refine ⟨properName_iff.mpr ⟨c, rest, String.toList_ofList, hc.1, hequals⟩, ?_⟩
        exact String.toList_ofList.symm
      | some parts =>
        obtain ⟨chars, value⟩ := parts
        rw [hcut] at h
        cases h
        obtain ⟨heq, hequals⟩ := Text.cutFirst_eq_some_iff.mp hcut
        cases chars with
        | nil => exact absurd (List.cons.inj heq).1 hc.2
        | cons d chars =>
          obtain ⟨rfl, rfl⟩ := List.cons.inj heq
          refine ⟨properName_iff.mpr ⟨c, chars, String.toList_ofList, hc.1, hequals⟩, ?_⟩
          simp [spelled]
  · rintro ⟨hname, rfl⟩
    obtain ⟨c, rest, hl, hdash, hequals⟩ := hname.toList_spelled written
    have hcut := cutFirst_spelled hname written
    rw [hl] at hcut
    rw [hl, formOfBody]
    simp only [hdash, hequals, or_self, if_false, hcut]
    cases written with
    | none =>
      rw [Option.map_none, ← hl]
      exact congrArg (Form.occurrence · none) String.ofList_toList
    | some raw => simp

theorem form_eq_occurrence_iff {word name : String} {written : Option String} :
    form word = .occurrence name written ↔
      ProperName name ∧ ∃ dash ∈ dashes, word = dash ++ spelled name written := by
  constructor
  · intro h
    unfold form at h
    split at h
    · cases h
    · cases h
    next body hl =>
      obtain ⟨hname, rfl⟩ := formOfBody_eq_occurrence_iff.mp h
      refine ⟨hname, "--", by simp [dashes], String.toList_inj.mp ?_⟩
      simpa using hl
    next body hl =>
      obtain ⟨hname, rfl⟩ := formOfBody_eq_occurrence_iff.mp h
      refine ⟨hname, "-", by simp [dashes], String.toList_inj.mp ?_⟩
      simpa using hl
    · cases h
  · rintro ⟨hname, dash, hdash, rfl⟩
    obtain ⟨c, rest, hl, hc, -⟩ := hname.toList_spelled written
    have hform := formOfBody_eq_occurrence_iff.mpr ⟨hname, hl.symm⟩
    simp only [dashes, List.mem_cons, List.not_mem_nil, or_false] at hdash
    rcases hdash with rfl | rfl
    · have hword : ("-" ++ spelled name written).toList = '-' :: c :: rest := by simp [hl]
      rw [form, hword]
      split
      next heq => cases heq
      next heq => exact absurd (List.cons.inj (List.cons.inj heq).2).1 hc
      next heq => exact absurd (List.cons.inj (List.cons.inj heq).2).1 hc
      next body _ _ heq => exact (List.cons.inj heq).2 ▸ hform
      next hno => exact absurd rfl (hno _)
    · have hword : ("--" ++ spelled name written).toList = '-' :: '-' :: c :: rest := by simp [hl]
      rw [form, hword]
      exact hform

/-! ## Arguments -/

theorem formOfBody_cases (body : List Char) :
    formOfBody body = .malformed ∨ ∃ name written, formOfBody body = .occurrence name written := by
  unfold formOfBody
  split
  · exact .inl rfl
  · split_ifs
    · exact .inl rfl
    · split
      · exact .inr ⟨_, _, rfl⟩
      · exact .inr ⟨_, _, rfl⟩

theorem form_eq_argument_iff {word : String} : form word = .argument ↔ IsArgument word := by
  have hbody (body : List Char) : formOfBody body ≠ .argument := by
    rcases formOfBody_cases body with h | ⟨name, written, h⟩ <;> simp [h]
  constructor
  · intro h
    unfold form at h
    split at h
    next hl => exact .inr (String.toList_inj.mp hl)
    · cases h
    · exact absurd h (hbody _)
    · exact absurd h (hbody _)
    next hno =>
      refine .inl fun hhead => ?_
      obtain ⟨body, hl⟩ := List.head?_eq_some_iff.mp hhead
      exact hno body hl
  · rintro (h | rfl)
    · unfold form
      split <;> simp_all
    · rfl

theorem form_eq_terminator_iff {word : String} : form word = .terminator ↔ word = "--" := by
  have hbody (body : List Char) : formOfBody body ≠ .terminator := by
    rcases formOfBody_cases body with h | ⟨name, written, h⟩ <;> simp [h]
  constructor
  · intro h
    unfold form at h
    split at h
    · cases h
    next hl => exact String.toList_inj.mp hl
    · exact absurd h (hbody _)
    · exact absurd h (hbody _)
    · cases h
  · rintro rfl
    rfl

end Buildfile.Flag
