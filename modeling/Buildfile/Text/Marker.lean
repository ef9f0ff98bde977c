/-! # The reference marker

A plus sign marks a reference. A backslash in front of it makes it an ordinary character, unless
that backslash is itself escaped. Doubling the backslash of an escaped marker protects it from a
substitution that consumes one level of escapes, and dropping it yields the plain sign.
-/

namespace Buildfile.Text

/-- Doubles the backslash directly before each plus sign. -/
def protectMarkers : List Char → List Char
  | [] => []
  | '\\' :: '+' :: rest => '\\' :: '\\' :: '+' :: protectMarkers rest
  | c :: rest => c :: protectMarkers rest

/-- Drops the backslash directly before each plus sign. -/
def bareMarkers : List Char → List Char
  | [] => []
  | '\\' :: '+' :: rest => '+' :: bareMarkers rest
  | c :: rest => c :: bareMarkers rest

/-- Cuts a text at its first plus sign that is not escaped. The flag tells whether the characters
before the text end in an escaping backslash. -/
def cutMarkerFrom : Bool → List Char → Option (List Char × List Char)
  | _, [] => none
  | escaped, c :: rest =>
    if c = '\\' then (cutMarkerFrom (!escaped) rest).map fun (l, r) => (c :: l, r)
    else if c = '+' && !escaped then some ([], rest)
    else (cutMarkerFrom false rest).map fun (l, r) => (c :: l, r)

theorem map_cons_eq_some_iff {c : Char} {cut : Option (List Char × List Char)}
    {before after : List Char} :
    (cut.map fun (l, r) => (c :: l, r)) = some (before, after) ↔
      ∃ l, before = c :: l ∧ cut = some (l, after) := by
  rw [Option.map_eq_some_iff]
  constructor
  · rintro ⟨⟨l, r⟩, rfl, heq⟩
    cases heq
    exact ⟨l, rfl, rfl⟩
  · rintro ⟨l, rfl, rfl⟩
    exact ⟨(l, after), rfl, rfl⟩

/-- The texts before and after the first plus sign with an even number of backslashes directly
before it. -/
def cutMarker (text : List Char) : Option (List Char × List Char) := cutMarkerFrom false text

end Buildfile.Text
