import Mathlib.Data.String.Basic
import Mathlib.Tactic.SplitIfs

/-! # The order of texts and the order of their bytes

Texts are compared character by character. Encoded in UTF-8 they compare the same way byte by byte:
the encodings of two characters differ at a place where both have a byte, and the smaller byte
belongs to the smaller character.
-/

namespace Buildfile.Text

/-- The bytes of a text in UTF-8. -/
def bytes (text : String) : List UInt8 := text.toUTF8.data.toList

theorem bytes_eq (text : String) : bytes text = text.toList.flatMap String.utf8EncodeChar := by
  rw [bytes, String.toUTF8_eq_toByteArray, ← String.utf8Encode_toList, List.utf8Encode,
    List.toList_data_toByteArray]

/-- At the first place where they differ, both lists have a byte and the first one's is less. -/
inductive Precedes : List UInt8 → List UInt8 → Prop where
  | head {x y : UInt8} {xs ys : List UInt8} (h : x < y) : Precedes (x :: xs) (y :: ys)
  | tail {x : UInt8} {xs ys : List UInt8} (h : Precedes xs ys) : Precedes (x :: xs) (x :: ys)

theorem precedes_cons_iff {x y : UInt8} {xs ys : List UInt8} :
    Precedes (x :: xs) (y :: ys) ↔ x < y ∨ x = y ∧ Precedes xs ys := by
  constructor
  · intro h
    cases h with
    | head h => exact .inl h
    | tail h => exact .inr ⟨rfl, h⟩
  · rintro (h | ⟨rfl, h⟩)
    · exact .head h
    · exact .tail h

/-- What follows has no part in the order. -/
theorem Precedes.append_lt {xs ys : List UInt8} (h : Precedes xs ys) (as bs : List UInt8) :
    xs ++ as < ys ++ bs := by
  induction h with
  | head h => exact .rel h
  | tail h ih => exact .cons ih

theorem not_precedes_nil {xs : List UInt8} : ¬ Precedes [] xs := by
  intro h
  cases h

/-- The encodings of a character and of a greater one. Every byte holds one digit to the base 64,
the first one also the length of the encoding. -/
theorem precedes_utf8EncodeChar {c d : Char} (h : c < d) :
    Precedes (String.utf8EncodeChar c) (String.utf8EncodeChar d) := by
  have hlt : c.val.toNat < d.val.toNat := UInt32.lt_iff_toNat_lt.mp h
  have hd : d.val.toNat < 0x110000 := by
    have hvalid : d.val.toNat.isValidChar := d.valid
    simp only [Nat.isValidChar] at hvalid
    omega
  simp only [String.utf8EncodeChar]
  generalize c.val.toNat = m at *
  generalize d.val.toNat = n at *
  have hdigits (k : Nat) : k / 4096 = k / 64 / 64 ∧ k / 262144 = k / 64 / 64 / 64 := by omega
  rw [(hdigits m).1, (hdigits m).2, (hdigits n).1, (hdigits n).2]
  split_ifs
  all_goals
    simp only [precedes_cons_iff, UInt8.lt_iff_toNat_lt, ← UInt8.toNat_inj, UInt8.toNat_ofNat',
      not_precedes_nil]
    omega

theorem flatMap_utf8EncodeChar_lt {cs ds : List Char} (h : cs < ds) :
    cs.flatMap String.utf8EncodeChar < ds.flatMap String.utf8EncodeChar := by
  induction h with
  | @nil d ds =>
    have hne : String.utf8EncodeChar d ≠ [] := by
      rw [← List.length_pos_iff, String.length_utf8EncodeChar]
      exact d.utf8Size_pos
    obtain ⟨x, xs, hx⟩ := List.exists_cons_of_ne_nil hne
    rw [List.flatMap_cons, hx]
    exact .nil
  | rel h => exact (precedes_utf8EncodeChar h).append_lt _ _
  | cons h ih => exact List.append_left_lt ih

/-- Texts are in the order of their bytes. -/
theorem bytes_lt_iff {a b : String} : bytes a < bytes b ↔ a < b := by
  have hlt {a b : String} (h : a < b) : bytes a < bytes b := by
    rw [bytes_eq, bytes_eq]
    exact flatMap_utf8EncodeChar_lt h
  refine ⟨fun h => ?_, hlt⟩
  rcases lt_trichotomy a b with hab | rfl | hba
  · exact hab
  · exact absurd h (List.lt_irrefl _)
  · exact absurd h (List.lt_asymm (hlt hba))

end Buildfile.Text
