import Buildfile.Text.Marker
import Mathlib.Algebra.Group.Nat.Even
import Mathlib.Data.List.DropRight

/-! # The first marker of a text

A plus sign is a marker if an even number of backslashes stands directly before it. The scan for
the first marker only keeps whether the characters read so far end in an escaping backslash, which
is the parity of the backslashes at their end.
-/

namespace Buildfile.Text

def trailingBackslashes (text : List Char) : Nat := (text.rtakeWhile (· = '\\')).length

/-- A plus sign directly after the text is not escaped. -/
def Unescaped (before : List Char) : Prop := Even (trailingBackslashes before)

/-- All plus signs of the text are escaped. -/
def Unmarked (text : List Char) : Prop := ∀ l r, text = l ++ '+' :: r → ¬ Unescaped l

/-- The first plus sign of a text that is not escaped stands between two parts. -/
structure FirstMarker (text before after : List Char) : Prop where
  split : text = before ++ '+' :: after
  unescaped : Unescaped before
  unmarked : Unmarked before

@[simp] theorem unescaped_nil : Unescaped [] := ⟨0, rfl⟩

@[simp] theorem unescaped_append_backslash (text : List Char) :
    Unescaped (text ++ ['\\']) ↔ ¬ Unescaped text := by
  simp [Unescaped, trailingBackslashes, Nat.even_add_one]

theorem unescaped_append_of_ne {c : Char} (text : List Char) (h : c ≠ '\\') :
    Unescaped (text ++ [c]) := by
  simp [Unescaped, trailingBackslashes, h]

/-! ## The scan -/

/-- A first marker among the characters that follow those already read. -/
structure MarkerAfter (done text before after : List Char) : Prop where
  split : text = before ++ '+' :: after
  unescaped : Unescaped (done ++ before)
  unmarked : ∀ l r, before = l ++ '+' :: r → ¬ Unescaped (done ++ l)

theorem markerAfter_nil_iff {text before after : List Char} :
    MarkerAfter [] text before after ↔ FirstMarker text before after :=
  ⟨fun ⟨hs, hu, hm⟩ => ⟨hs, hu, hm⟩, fun ⟨hs, hu, hm⟩ => ⟨hs, hu, hm⟩⟩

theorem markerAfter_plus_iff {done rest before after : List Char} (h : Unescaped done) :
    MarkerAfter done ('+' :: rest) before after ↔ before = [] ∧ after = rest := by
  constructor
  · rintro ⟨hs, -, hm⟩
    cases before with
    | nil => exact ⟨rfl, (List.cons.inj hs).2.symm⟩
    | cons c l =>
      obtain ⟨rfl, -⟩ := List.cons.inj hs
      exact absurd (by simpa using h) (hm [] l rfl)
  · rintro ⟨rfl, rfl⟩
    exact ⟨rfl, by simpa using h, by simp⟩

theorem markerAfter_cons_iff {done rest before after : List Char} {c : Char}
    (h : c = '+' → ¬ Unescaped done) :
    MarkerAfter done (c :: rest) before after ↔
      ∃ l, before = c :: l ∧ MarkerAfter (done ++ [c]) rest l after := by
  constructor
  · rintro ⟨hs, hu, hm⟩
    cases before with
    | nil =>
      obtain ⟨rfl, -⟩ := List.cons.inj hs
      exact absurd (by simpa using hu) (h rfl)
    | cons d l =>
      obtain ⟨rfl, hrest⟩ := List.cons.inj hs
      refine ⟨l, rfl, hrest, by simpa using hu, fun l₁ l₂ hl => ?_⟩
      simpa using hm (c :: l₁) l₂ (by rw [hl, List.cons_append])
  · rintro ⟨l, rfl, hs, hu, hm⟩
    refine ⟨by rw [hs, List.cons_append], by simpa using hu, fun l₁ l₂ hl => ?_⟩
    cases l₁ with
    | nil =>
      obtain ⟨rfl, -⟩ := List.cons.inj hl
      simpa using h rfl
    | cons d l₁ =>
      obtain ⟨rfl, htail⟩ := List.cons.inj hl
      simpa using hm l₁ l₂ htail

/-- The flag of the scan is the parity of the backslashes at the end of what is read. -/
theorem cutMarkerFrom_eq_some_iff {escaped : Bool} {done text before after : List Char}
    (h : escaped = false ↔ Unescaped done) :
    cutMarkerFrom escaped text = some (before, after) ↔ MarkerAfter done text before after := by
  induction text generalizing escaped done before with
  | nil => exact ⟨fun hn => (by cases hn), fun ⟨hs, _, _⟩ => by simp at hs⟩
  | cons c rest ih =>
    have hrest {flag : Bool} (hflag : flag = false ↔ Unescaped (done ++ [c])) :
        (∃ l, before = c :: l ∧ cutMarkerFrom flag rest = some (l, after)) ↔
          ∃ l, before = c :: l ∧ MarkerAfter (done ++ [c]) rest l after :=
      exists_congr fun l => and_congr_right fun _ => ih hflag
    rw [cutMarkerFrom]
    split
    next hc =>
      subst hc
      rw [map_cons_eq_some_iff, markerAfter_cons_iff (by simp)]
      exact hrest (by rw [unescaped_append_backslash, ← h]; cases escaped <;> simp)
    next hc =>
      split
      next hplus =>
        simp only [Bool.and_eq_true, decide_eq_true_eq, Bool.not_eq_true'] at hplus
        obtain ⟨rfl, hflag⟩ := hplus
        rw [markerAfter_plus_iff (h.mp hflag)]
        simp [eq_comm]
      next hplus =>
        have hesc : c = '+' → ¬ Unescaped done := by
          rintro rfl hu
          exact hplus (by simp [h.mpr hu])
        rw [map_cons_eq_some_iff, markerAfter_cons_iff hesc]
        exact hrest (by simp [unescaped_append_of_ne done hc])

/-- A text is cut at its first marker. -/
theorem cutMarker_eq_some_iff {text before after : List Char} :
    cutMarker text = some (before, after) ↔ FirstMarker text before after := by
  have hstart : false = false ↔ Unescaped [] := by simp
  rw [cutMarker, cutMarkerFrom_eq_some_iff hstart, markerAfter_nil_iff]

/-- Whatever follows a first marker, it is the first one. -/
theorem FirstMarker.followed_by {text before after : List Char} (h : FirstMarker text before after)
    (rest : List Char) : FirstMarker (before ++ '+' :: rest) before rest :=
  ⟨rfl, h.unescaped, h.unmarked⟩

end Buildfile.Text
