/-! # Cutting a text in two at a separator

The separator itself belongs to neither part. A text without the separator cannot be cut.
-/

namespace Buildfile.Text

/-- The parts before and after the first separator. -/
def cutFirst (separator : Char) : List Char → Option (List Char × List Char)
  | [] => none
  | c :: rest =>
    if c = separator then some ([], rest)
    else (cutFirst separator rest).map fun (l, r) => (c :: l, r)

def cutLast (separator : Char) : List Char → Option (List Char × List Char)
  | [] => none
  | c :: rest =>
    match cutLast separator rest with
    | some (l, r) => some (c :: l, r)
    | none => if c = separator then some ([], rest) else none

theorem append_of_cutFirst {separator : Char} {text l r : List Char}
    (h : cutFirst separator text = some (l, r)) : l ++ separator :: r = text := by
  induction text generalizing l with
  | nil => simp [cutFirst] at h
  | cons c rest ih =>
    rw [cutFirst] at h
    split at h
    · cases h; simp_all
    · obtain ⟨⟨l', r'⟩, h', heq⟩ := Option.map_eq_some_iff.mp h
      cases heq
      rw [List.cons_append, ih h']

theorem append_of_cutLast {separator : Char} {text l r : List Char}
    (h : cutLast separator text = some (l, r)) : l ++ separator :: r = text := by
  induction text generalizing l with
  | nil => simp [cutLast] at h
  | cons c rest ih =>
    rw [cutLast] at h
    split at h
    · next l' r' h' => cases h; rw [List.cons_append, ih h']
    · split at h
      · cases h; simp_all
      · simp at h

theorem cutFirst_of_notMem {separator : Char} {text : List Char} (h : separator ∉ text) :
    cutFirst separator text = none := by
  induction text with
  | nil => rfl
  | cons c rest ih =>
    rw [List.mem_cons, not_or] at h
    rw [cutFirst, if_neg (Ne.symm h.1), ih h.2]
    rfl

theorem cutFirst_append {separator : Char} {l : List Char} (r : List Char) (h : separator ∉ l) :
    cutFirst separator (l ++ separator :: r) = some (l, r) := by
  induction l with
  | nil => exact if_pos rfl
  | cons c rest ih =>
    rw [List.mem_cons, not_or] at h
    rw [List.cons_append, cutFirst, if_neg (Ne.symm h.1), ih h.2]
    rfl

theorem cutFirst_eq_none_iff {separator : Char} {text : List Char} :
    cutFirst separator text = none ↔ separator ∉ text := by
  refine ⟨fun h hm => ?_, cutFirst_of_notMem⟩
  obtain ⟨l, r, rfl, hl⟩ := List.eq_append_cons_of_mem hm
  rw [cutFirst_append r hl] at h
  cases h

theorem notMem_of_cutFirst {separator : Char} {text l r : List Char}
    (h : cutFirst separator text = some (l, r)) : separator ∉ l := by
  induction text generalizing l with
  | nil => simp [cutFirst] at h
  | cons c rest ih =>
    rw [cutFirst] at h
    split at h
    · cases h
      exact List.not_mem_nil
    next hc =>
      obtain ⟨⟨l', r'⟩, h', heq⟩ := Option.map_eq_some_iff.mp h
      cases heq
      exact List.not_mem_cons_of_ne_of_not_mem (Ne.symm hc) (ih h')

/-- The first separator is the one that no other comes before. -/
theorem cutFirst_eq_some_iff {separator : Char} {text l r : List Char} :
    cutFirst separator text = some (l, r) ↔ text = l ++ separator :: r ∧ separator ∉ l := by
  constructor
  · intro h
    exact ⟨(append_of_cutFirst h).symm, notMem_of_cutFirst h⟩
  · rintro ⟨rfl, h⟩
    exact cutFirst_append r h

theorem cutLast_of_notMem {separator : Char} {text : List Char} (h : separator ∉ text) :
    cutLast separator text = none := by
  induction text with
  | nil => rfl
  | cons c rest ih =>
    rw [List.mem_cons, not_or] at h
    rw [cutLast, ih h.2]
    exact if_neg (Ne.symm h.1)

theorem cutLast_append {separator : Char} (l : List Char) {r : List Char} (h : separator ∉ r) :
    cutLast separator (l ++ separator :: r) = some (l, r) := by
  induction l with
  | nil =>
    rw [List.nil_append, cutLast, cutLast_of_notMem h]
    exact if_pos rfl
  | cons c rest ih => rw [List.cons_append, cutLast, ih]

theorem cutLast_eq_none_iff {separator : Char} {text : List Char} :
    cutLast separator text = none ↔ separator ∉ text := by
  refine ⟨fun h hm => ?_, cutLast_of_notMem⟩
  induction text with
  | nil => cases hm
  | cons c rest ih =>
    rw [cutLast] at h
    split at h
    · cases h
    next hrest =>
      split at h
      · cases h
      next hc =>
        rcases List.mem_cons.mp hm with heq | hmem
        · exact hc heq.symm
        · exact ih hrest hmem

theorem notMem_of_cutLast {separator : Char} {text l r : List Char}
    (h : cutLast separator text = some (l, r)) : separator ∉ r := by
  induction text generalizing l with
  | nil => simp [cutLast] at h
  | cons c rest ih =>
    rw [cutLast] at h
    split at h
    next l' r' h' =>
      cases h
      exact ih h'
    next hrest =>
      split at h
      · cases h
        exact cutLast_eq_none_iff.mp hrest
      · cases h

/-- What comes after the last separator comes after every separator. -/
theorem suffix_of_cutLast {separator : Char} {text l r before after : List Char}
    (h : cutLast separator text = some (l, r)) (ht : text = before ++ separator :: after) :
    r <:+ after := by
  have hr : r <:+ text := ⟨l ++ [separator], by simpa using append_of_cutLast h⟩
  have hafter : separator :: after <:+ text := ⟨before, ht.symm⟩
  rcases List.suffix_or_suffix_of_suffix hr hafter with hsuffix | hsuffix
  · rcases List.suffix_cons_iff.mp hsuffix with heq | hsuffix
    · exact absurd (heq ▸ List.mem_cons_self) (notMem_of_cutLast h)
    · exact hsuffix
  · exact absurd (hsuffix.subset List.mem_cons_self) (notMem_of_cutLast h)

end Buildfile.Text
