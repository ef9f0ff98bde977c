import Buildfile.Proofs.Markers
import Buildfile.Reference

/-! # Reading and printing references

A reference is cut at its first marker, and an artifact once more at the first slash after it. What
is read prints as the text that it was read from. In the other direction a reference that is built
from its parts may print as a text with another meaning, and the parts tell which ones do.
-/

namespace Buildfile
open Text

namespace Location

def StartsAsPath (text : String) : Prop :=
  text.toList.head? = some '.' ∨ text.toList.head? = some '/'

theorem toList_text_tagged (name tag : String) :
    (repository name (some tag)).text.toList = name.toList ++ ':' :: tag.toList := by
  change (name ++ ":" ++ tag).toList = _
  simp

/-! ## What a text means -/

theorem text_ofRepository (text : List Char) : (ofRepository text).text = String.ofList text := by
  unfold ofRepository
  split
  next name tag hcut =>
    split
    · rfl
    · apply String.toList_inj.mp
      rw [toList_text_tagged, String.toList_ofList, String.toList_ofList, String.toList_ofList]
      exact append_of_cutLast hcut
  · rfl

theorem text_ofText (text : List Char) : (ofText text).text = String.ofList text := by
  unfold ofText
  split
  · rfl
  · split
    · rfl
    · exact text_ofRepository _

theorem ofText_toList_of_path {text : String} (h : StartsAsPath text) :
    ofText text.toList = directory text := by
  unfold StartsAsPath at h
  cases hl : text.toList with
  | nil => simp [hl] at h
  | cons c rest =>
    simp only [hl, List.head?_cons, Option.some.injEq] at h
    rw [ofText, if_pos h, ← hl, String.ofList_toList]

theorem ofText_toList_of_not_path {text : String} (hne : text ≠ "") (h : ¬ StartsAsPath text) :
    ofText text.toList = ofRepository text.toList := by
  unfold StartsAsPath at h
  cases hl : text.toList with
  | nil => exact absurd (String.toList_eq_nil_iff.mp hl) hne
  | cons c rest =>
    simp only [hl, List.head?_cons, Option.some.injEq] at h
    rw [ofText, if_neg h]

theorem ofText_eq_directory_iff {text path : String} :
    ofText text.toList = directory path ↔ text = path ∧ StartsAsPath path := by
  constructor
  · intro h
    have htext : text = path := by
      rw [← String.ofList_toList (s := text), ← text_ofText, h]
      rfl
    subst htext
    refine ⟨rfl, Classical.byContradiction fun hpath => ?_⟩
    by_cases hne : text = ""
    · subst hne
      cases h
    · rw [ofText_toList_of_not_path hne hpath, ofRepository] at h
      split at h
      · split at h <;> cases h
      · cases h
  · rintro ⟨rfl, h⟩
    exact ofText_toList_of_path h

/-- The last colon separates a tag unless a slash comes after it. -/
theorem ofRepository_eq_tagged_iff {text : List Char} {name tag : String} :
    ofRepository text = repository name (some tag) ↔
      text = name.toList ++ ':' :: tag.toList ∧ ':' ∉ tag.toList ∧ '/' ∉ tag.toList := by
  constructor
  · intro h
    rw [ofRepository] at h
    split at h
    next l r hcut =>
      split at h
      · cases h
      next hslash =>
        cases h
        rw [String.toList_ofList, String.toList_ofList]
        exact ⟨(append_of_cutLast hcut).symm, notMem_of_cutLast hcut, hslash⟩
    · cases h
  · rintro ⟨rfl, hcolon, hslash⟩
    rw [ofRepository, cutLast_append _ hcolon]
    simp [hslash]

/-- There is no tag if a slash comes after every colon. -/
theorem ofRepository_eq_untagged_iff {text name : String} :
    ofRepository text.toList = repository name none ↔
      text = name ∧ ∀ l r, name.toList = l ++ ':' :: r → '/' ∈ r := by
  constructor
  · intro h
    have htext : text = name := by
      rw [← String.ofList_toList (s := text), ← text_ofRepository, h]
      rfl
    subst htext
    refine ⟨rfl, fun l r hsplit => Classical.byContradiction fun hslash => ?_⟩
    have hcolon : ':' ∈ text.toList := by simp [hsplit]
    obtain ⟨⟨name, tag⟩, hcut⟩ :=
      Option.ne_none_iff_exists'.mp fun hnone => cutLast_eq_none_iff.mp hnone hcolon
    have htag : '/' ∉ tag := fun hm => hslash ((suffix_of_cutLast hcut hsplit).subset hm)
    rw [ofRepository, hcut] at h
    simp [htag] at h
  · rintro ⟨rfl, h⟩
    rw [ofRepository]
    split
    next l r hcut =>
      rw [if_pos (h l r (append_of_cutLast hcut).symm), String.ofList_toList]
    · rw [String.ofList_toList]

/-- Only a text that is not empty and does not start as a path names a repository. -/
theorem ofText_eq_repository_iff {text name : String} {tag : Option String} :
    ofText text.toList = repository name tag ↔
      text ≠ "" ∧ ¬ StartsAsPath text ∧ ofRepository text.toList = repository name tag := by
  constructor
  · intro h
    have hne : text ≠ "" := by
      rintro rfl
      cases h
    have hpath : ¬ StartsAsPath text := fun hp => by
      rw [ofText_toList_of_path hp] at h
      cases h
    exact ⟨hne, hpath, ofText_toList_of_not_path hne hpath ▸ h⟩
  · rintro ⟨hne, hpath, h⟩
    rw [ofText_toList_of_not_path hne hpath, h]

/-! ## Locations that a text gives back -/

/-- A location whose text, in front of a marker, is read as the same location. -/
def ReadsBack : Location → Prop
  | here => True
  | directory path => StartsAsPath path ∧ Unmarked path.toList ∧ Unescaped path.toList
  | repository name tag =>
    let text := (repository name tag).text
    text ≠ "" ∧ ¬ StartsAsPath text ∧ Unmarked text.toList ∧ Unescaped text.toList ∧
      match tag with
      | none => ∀ l r, name.toList = l ++ ':' :: r → '/' ∈ r
      | some tag => ':' ∉ tag.toList ∧ '/' ∉ tag.toList

theorem readsBack_iff (location : Location) :
    location.ReadsBack ↔ Unmarked location.text.toList ∧ Unescaped location.text.toList ∧
      ofText location.text.toList = location := by
  cases location with
  | here => simp [ReadsBack, Location.text, Unmarked, ofText]
  | directory path =>
    rw [ReadsBack, Location.text, ofText_eq_directory_iff]
    tauto
  | repository name tag =>
    rw [ofText_eq_repository_iff]
    cases tag with
    | none =>
      simp only [ReadsBack, Location.text, ofRepository_eq_untagged_iff]
      tauto
    | some tag =>
      simp only [ReadsBack, ofRepository_eq_tagged_iff, toList_text_tagged]
      tauto

/-- A location is read back exactly if the marker after its text is the first one. -/
theorem firstMarker_text_iff {location : Location} {rest before after : List Char} :
    FirstMarker (location.text.toList ++ '+' :: rest) before after ∧ ofText before = location ↔
      location.ReadsBack ∧ before = location.text.toList ∧ after = rest := by
  rw [readsBack_iff]
  constructor
  · rintro ⟨⟨hsplit, hunescaped, hunmarked⟩, hlocation⟩
    obtain rfl : before = location.text.toList := by
      rw [← hlocation, text_ofText, String.toList_ofList]
    obtain ⟨-, rfl⟩ := List.cons.inj (List.append_cancel_left hsplit)
    exact ⟨⟨hunmarked, hunescaped, hlocation⟩, rfl, rfl⟩
  · rintro ⟨⟨hunmarked, hunescaped, hlocation⟩, rfl, rfl⟩
    exact ⟨⟨rfl, hunescaped, hunmarked⟩, hlocation⟩

end Location

/-! ## Targets -/

namespace Target

theorem toList_text (t : Target) :
    t.text.toList = t.location.text.toList ++ '+' :: t.name.toList := by
  change (t.location.text ++ "+" ++ t.name).toList = _
  simp

/-- A target is read from the two parts around the first marker if the second is not empty. -/
theorem parse_eq_ok_iff {text : String} {t : Target} :
    parse text = .ok t ↔ ∃ location name, FirstMarker text.toList location name ∧ name ≠ [] ∧
      t = ⟨.ofText location, String.ofList name⟩ := by
  simp only [← cutMarker_eq_some_iff]
  unfold parse
  split
  next h => simp [h]
  next location h => simp [h]
  next location name hname h =>
    rw [h]
    constructor
    · intro hok
      exact ⟨location, name, rfl, hname, (Except.ok.inj hok).symm⟩
    · rintro ⟨l, r, hcut, -, rfl⟩
      cases hcut
      rfl

/-- A target is read from the text around a marker in the same parts. -/
theorem parse_around_marker_eq_ok_iff {text location after name : List Char} {t : Target}
    (h : FirstMarker text location after) :
    parse (String.ofList (location ++ '+' :: name)) = .ok t ↔
      name ≠ [] ∧ t = ⟨.ofText location, String.ofList name⟩ := by
  have hmarker := h.followed_by name
  rw [parse_eq_ok_iff, String.toList_ofList]
  constructor
  · rintro ⟨before, rest, hother, hne, rfl⟩
    have hcut := (cutMarker_eq_some_iff.mpr hother).symm.trans (cutMarker_eq_some_iff.mpr hmarker)
    cases hcut
    exact ⟨hne, rfl⟩
  · rintro ⟨hne, rfl⟩
    exact ⟨location, name, hmarker, hne, rfl⟩

theorem text_of_parse {text : String} {t : Target} (h : parse text = .ok t) : t.text = text := by
  obtain ⟨location, name, hcut, -, rfl⟩ := parse_eq_ok_iff.mp h
  apply String.toList_inj.mp
  rw [toList_text, Location.text_ofText, String.toList_ofList, String.toList_ofList, hcut.split]

def ReadsBack (t : Target) : Prop := t.name ≠ "" ∧ t.location.ReadsBack

theorem parse_text_iff (t : Target) : parse t.text = .ok t ↔ t.ReadsBack := by
  obtain ⟨location, name⟩ := t
  rw [parse_eq_ok_iff, toList_text]
  constructor
  · rintro ⟨before, after, hmarker, hne, heq⟩
    obtain ⟨hlocation, rfl⟩ := Target.mk.inj heq
    obtain ⟨hreads, -, -⟩ := Location.firstMarker_text_iff.mp ⟨hmarker, hlocation.symm⟩
    exact ⟨fun h => hne (String.ofList_eq_empty_iff.mp h), hreads⟩
  · rintro ⟨hname, hreads⟩
    obtain ⟨hmarker, hlocation⟩ := Location.firstMarker_text_iff.mpr ⟨hreads, rfl, rfl⟩
    refine ⟨_, _, hmarker, fun h => hname (String.toList_eq_nil_iff.mp h), ?_⟩
    rw [hlocation, String.ofList_toList]

end Target

/-! ## Artifacts -/

namespace Artifact

theorem toList_text (a : Artifact) :
    a.text.toList = a.target.text.toList ++ '/' :: a.path.toList := by
  change (a.target.text ++ "/" ++ a.path).toList = _
  simp

/-- An artifact is read from the part before the first marker and from the parts around the first
slash after it, if these are not empty. -/
theorem parse_eq_ok_iff {text : String} {a : Artifact} :
    parse text = .ok a ↔ ∃ location name path,
      FirstMarker text.toList location (name ++ '/' :: path) ∧ '/' ∉ name ∧ name ≠ [] ∧ path ≠ [] ∧
      a = ⟨⟨.ofText location, String.ofList name⟩, String.ofList path⟩ := by
  constructor
  · intro h
    unfold parse at h
    split at h
    · cases h
    next location rest hcut =>
      have hmarker := cutMarker_eq_some_iff.mp hcut
      split at h
      · cases h
      · cases h
      next name path hpath hslash =>
        obtain ⟨rfl, hnotMem⟩ := cutFirst_eq_some_iff.mp hslash
        cases htarget : Target.parse (String.ofList (location ++ '+' :: name)) with
        | error fault =>
          rw [htarget] at h
          cases h
        | ok t =>
          obtain ⟨hname, rfl⟩ := (Target.parse_around_marker_eq_ok_iff hmarker).mp htarget
          rw [htarget] at h
          cases h
          exact ⟨location, name, path, hmarker, hnotMem, hname, hpath, rfl⟩
  · rintro ⟨location, name, path, hmarker, hnotMem, hname, hpath, rfl⟩
    have htarget := (Target.parse_around_marker_eq_ok_iff hmarker).mpr ⟨hname, rfl⟩
    rw [parse, cutMarker_eq_some_iff.mpr hmarker]
    simp only [cutFirst_append path hnotMem, htarget]
    rfl

theorem text_of_parse {text : String} {a : Artifact} (h : parse text = .ok a) : a.text = text := by
  obtain ⟨location, name, path, hcut, -, -, -, rfl⟩ := parse_eq_ok_iff.mp h
  apply String.toList_inj.mp
  rw [toList_text, Target.toList_text, Location.text_ofText, String.toList_ofList,
    String.toList_ofList, String.toList_ofList, hcut.split, List.append_assoc, List.cons_append]

theorem parse_text_iff (a : Artifact) :
    parse a.text = .ok a ↔ a.target.ReadsBack ∧ '/' ∉ a.target.name.toList ∧ a.path ≠ "" := by
  obtain ⟨⟨location, name⟩, path⟩ := a
  rw [parse_eq_ok_iff, toList_text, Target.toList_text, List.append_assoc, List.cons_append]
  constructor
  · rintro ⟨before, word, rest, hmarker, hslash, hword, hrest, heq⟩
    obtain ⟨htarget, rfl⟩ := Artifact.mk.inj heq
    obtain ⟨hlocation, rfl⟩ := Target.mk.inj htarget
    obtain ⟨hreads, -, -⟩ := Location.firstMarker_text_iff.mp ⟨hmarker, hlocation.symm⟩
    refine ⟨⟨fun h => hword (String.ofList_eq_empty_iff.mp h), hreads⟩, ?_,
      fun h => hrest (String.ofList_eq_empty_iff.mp h)⟩
    rwa [String.toList_ofList]
  · rintro ⟨⟨hname, hreads⟩, hslash, hpath⟩
    obtain ⟨hmarker, hlocation⟩ := Location.firstMarker_text_iff.mpr ⟨hreads, rfl, rfl⟩
    refine ⟨_, _, _, hmarker, hslash, fun h => hname (String.toList_eq_nil_iff.mp h),
      fun h => hpath (String.toList_eq_nil_iff.mp h), ?_⟩
    rw [hlocation, String.ofList_toList, String.ofList_toList]

end Artifact

/-! ## Both directions -/

/-- A text is a target reference exactly if it has an unescaped plus sign and something after the
first one. It is an artifact reference exactly if a slash comes after that sign, with a name before
it and a path after it. What is read prints as the same text, whatever its parts contain. -/
theorem references_lose_nothing (text : String) :
    ((∃ t, Target.parse text = .ok t) ↔
      ∃ location name, FirstMarker text.toList location name ∧ name ≠ []) ∧
    ((∃ a, Artifact.parse text = .ok a) ↔
      ∃ location name path, FirstMarker text.toList location (name ++ '/' :: path) ∧ '/' ∉ name ∧
        name ≠ [] ∧ path ≠ []) ∧
    (∀ t, Target.parse text = .ok t → t.text = text) ∧
    ∀ a, Artifact.parse text = .ok a → a.text = text := by
  refine ⟨⟨?_, ?_⟩, ⟨?_, ?_⟩, fun t => Target.text_of_parse, fun a => Artifact.text_of_parse⟩
  · rintro ⟨t, ht⟩
    obtain ⟨location, name, hmarker, hname, -⟩ := Target.parse_eq_ok_iff.mp ht
    exact ⟨location, name, hmarker, hname⟩
  · rintro ⟨location, name, hmarker, hname⟩
    exact ⟨_, Target.parse_eq_ok_iff.mpr ⟨location, name, hmarker, hname, rfl⟩⟩
  · rintro ⟨a, ha⟩
    obtain ⟨location, name, path, hmarker, hslash, hname, hpath, -⟩ :=
      Artifact.parse_eq_ok_iff.mp ha
    exact ⟨location, name, path, hmarker, hslash, hname, hpath⟩
  · rintro ⟨location, name, path, hmarker, hslash, hname, hpath⟩
    exact ⟨_, Artifact.parse_eq_ok_iff.mpr
      ⟨location, name, path, hmarker, hslash, hname, hpath, rfl⟩⟩

/-- A port, an escaped marker, a backslash that is itself escaped and further markers after the
first one. -/
theorem references_lose_nothing_port :
    let text := "git.example.com:8080/c\\+\\+:v1\\\\+build/out+\\é/x"
    let location := Location.repository "git.example.com:8080/c\\+\\+" (some "v1\\\\")
    let a : Artifact := ⟨⟨location, "build"⟩, "out+\\é/x"⟩
    let t : Target := ⟨location, "build/out+\\é/x"⟩
    Artifact.parse text = .ok a ∧ a.text = text ∧ Target.parse text = .ok t ∧ t.text = text := by
  intro text location a t
  have ha : Artifact.parse text = .ok a := by decide +kernel
  have ht : Target.parse text = .ok t := by decide +kernel
  obtain ⟨-, -, htarget, hartifact⟩ := references_lose_nothing text
  exact ⟨ha, hartifact a ha, ht, htarget t ht⟩

/-- The text of a target is read as the same target exactly if the name is not empty and the
location is of the kind that its text shows, with no marker in the text and none escaped by its
end. For an artifact the name must not have a slash either, and the path must not be empty. -/
theorem references_read_back_iff :
    (∀ t : Target, Target.parse t.text = .ok t ↔ t.ReadsBack) ∧
    ∀ a : Artifact, Artifact.parse a.text = .ok a ↔
      a.target.ReadsBack ∧ '/' ∉ a.target.name.toList ∧ a.path ≠ "" :=
  ⟨Target.parse_text_iff, Artifact.parse_text_iff⟩

/-- A port after the last slash is read as a tag. -/
example :
    Target.parse (Target.text ⟨.repository "localhost:5000" none, "build"⟩) =
      .ok ⟨.repository "localhost" (some "5000"), "build"⟩ := by decide +kernel

end Buildfile
