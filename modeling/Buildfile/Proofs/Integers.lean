import Buildfile.Text.Integer
import Mathlib.Data.List.Induction
import Mathlib.Data.Nat.Digits.Defs
import Mathlib.Tactic.Ring

/-! # Integers that can be read

The digits of an integer are added up from the left, and the reading stops as soon as the value
leaves the range. A value never shrinks by one more digit, so the reading gets to the end exactly if
the whole value lies in the range.
-/

namespace Buildfile.Text

section Success
variable {ε α β : Type} {x : Except ε α}

theorem bind_eq_ok_iff {f : α → Except ε β} {b : β} :
    (x >>= f) = .ok b ↔ ∃ a, x = .ok a ∧ f a = .ok b := by
  cases x with
  | error e => simp [bind, Except.bind]
  | ok a => simp [bind, Except.bind]

theorem map_eq_ok_iff {f : α → β} {b : β} : x.map f = .ok b ↔ ∃ a, x = .ok a ∧ f a = b := by
  cases x <;> simp [Except.map]

end Success

structure DigitRun (digits : List Char) : Prop where
  nonempty : digits ≠ []
  digit : ∀ c ∈ digits, c.isDigit = true

def digitsValue (digits : List Char) : Nat := Nat.ofDigits 10 (digits.map digitValue).reverse

/-- An integer in decimal: at most one sign, then the digits of its magnitude. -/
inductive Numeral : List Char → Int → Prop
  | unsigned {digits : List Char} (h : DigitRun digits) : Numeral digits (digitsValue digits)
  | plus {digits : List Char} (h : DigitRun digits) :
      Numeral ('+' :: digits) (digitsValue digits)
  | minus {digits : List Char} (h : DigitRun digits) :
      Numeral ('-' :: digits) (-digitsValue digits)

section Reading
variable {limit value n : Nat} {exceeded : IntegerFault} {digits : List Char} {c : Char}

theorem digitsValue_append :
    digitsValue (digits ++ [c]) = digitsValue digits * 10 + digitValue c := by
  simp only [digitsValue, List.map_append, List.reverse_append, List.map_singleton,
    List.reverse_singleton, List.singleton_append, Nat.ofDigits_cons]
  ring

theorem addDigit_eq_ok_iff :
    addDigit limit exceeded value c = .ok n ↔
      c.isDigit = true ∧ n = value * 10 + digitValue c ∧ n ≤ limit := by
  by_cases hc : c.isDigit = true
  · by_cases hlimit : value * 10 + digitValue c ≤ limit
    · rw [addDigit, if_pos hc]
      simp only [if_pos hlimit, Except.ok.injEq, hc, true_and]
      constructor
      · rintro rfl
        exact ⟨rfl, hlimit⟩
      · rintro ⟨rfl, -⟩
        rfl
    · rw [addDigit, if_pos hc]
      simp only [if_neg hlimit, reduceCtorEq, false_iff]
      rintro ⟨-, rfl, hle⟩
      exact hlimit hle
  · simp [addDigit, hc]

/-- The digits meet no limit that their whole value respects. The induction is from the right, since
the value before the last digit is at most the whole one. -/
theorem foldlM_addDigit_eq_ok_iff :
    digits.foldlM (addDigit limit exceeded) 0 = .ok n ↔
      (∀ c ∈ digits, c.isDigit = true) ∧ n = digitsValue digits ∧ n ≤ limit := by
  induction digits using List.reverseRecOn generalizing n with
  | nil =>
    simp only [List.foldlM_nil, pure, Except.pure, Except.ok.injEq, List.not_mem_nil,
      IsEmpty.forall_iff, implies_true, true_and]
    constructor
    · rintro rfl
      exact ⟨rfl, Nat.zero_le _⟩
    · rintro ⟨rfl, -⟩
      rfl
  | append_singleton digits c ih =>
    have hlast : ∀ value, [c].foldlM (addDigit limit exceeded) value =
        addDigit limit exceeded value c := fun value => bind_pure _
    simp only [List.foldlM_append, hlast]
    rw [bind_eq_ok_iff]
    constructor
    · rintro ⟨value, hvalue, h⟩
      obtain ⟨hd, rfl, -⟩ := ih.mp hvalue
      obtain ⟨hc, hn, hle⟩ := addDigit_eq_ok_iff.mp h
      refine ⟨?_, hn.trans digitsValue_append.symm, hle⟩
      exact List.forall_mem_append.mpr ⟨hd, by simpa using hc⟩
    · rintro ⟨hd, hn, hle⟩
      obtain ⟨hd, hc⟩ := List.forall_mem_append.mp hd
      rw [digitsValue_append] at hn
      have hbefore : digitsValue digits ≤ limit := by omega
      refine ⟨digitsValue digits, ih.mpr ⟨hd, rfl, hbefore⟩, ?_⟩
      exact addDigit_eq_ok_iff.mpr ⟨hc c List.mem_cons_self, hn, hle⟩

theorem readDigits_eq_ok_iff :
    readDigits limit exceeded digits = .ok n ↔
      DigitRun digits ∧ n = digitsValue digits ∧ n ≤ limit := by
  cases digits with
  | nil =>
    simp only [readDigits, List.isEmpty_nil, if_true, reduceCtorEq, false_iff, not_and]
    exact fun h => absurd rfl h.nonempty
  | cons c rest =>
    rw [readDigits, List.isEmpty_cons, if_neg Bool.false_ne_true, foldlM_addDigit_eq_ok_iff]
    exact and_congr_left fun _ => ⟨fun h => ⟨List.cons_ne_nil _ _, h⟩, fun h => h.digit⟩

theorem map_readDigits_eq_ok_iff {sign : Nat → Int} {m : Int} :
    (readDigits limit exceeded digits).map sign = .ok m ↔
      DigitRun digits ∧ m = sign (digitsValue digits) ∧ digitsValue digits ≤ limit := by
  rw [map_eq_ok_iff]
  constructor
  · rintro ⟨n, hread, rfl⟩
    obtain ⟨hrun, rfl, hle⟩ := readDigits_eq_ok_iff.mp hread
    exact ⟨hrun, rfl, hle⟩
  · rintro ⟨hrun, rfl, hle⟩
    exact ⟨_, readDigits_eq_ok_iff.mpr ⟨hrun, rfl, hle⟩, rfl⟩

end Reading

section Signs
variable {digits : List Char} {c : Char} {n : Int}

theorem not_digitRun_cons (hc : c.isDigit = false) : ¬ DigitRun (c :: digits) := by
  intro h
  rw [h.digit c List.mem_cons_self] at hc
  cases hc

theorem numeral_minus_iff :
    Numeral ('-' :: digits) n ↔ DigitRun digits ∧ n = -digitsValue digits := by
  constructor
  · rintro (h | h | h)
    · exact absurd h (not_digitRun_cons rfl)
    · exact ⟨h, rfl⟩
  · rintro ⟨h, rfl⟩
    exact .minus h

theorem numeral_plus_iff :
    Numeral ('+' :: digits) n ↔ DigitRun digits ∧ n = digitsValue digits := by
  constructor
  · rintro (h | h | h)
    · exact absurd h (not_digitRun_cons rfl)
    · exact ⟨h, rfl⟩
  · rintro ⟨h, rfl⟩
    exact .plus h

theorem numeral_unsigned_iff (hminus : ∀ rest, digits ≠ '-' :: rest)
    (hplus : ∀ rest, digits ≠ '+' :: rest) :
    Numeral digits n ↔ DigitRun digits ∧ n = digitsValue digits := by
  constructor
  · rintro (h | h | h)
    · exact ⟨h, rfl⟩
    · exact absurd rfl (hplus _)
    · exact absurd rfl (hminus _)
  · rintro ⟨h, rfl⟩
    exact .unsigned h

end Signs

/-- Exactly the numerals of signed 64-bit words are read. -/
theorem readInteger_eq_ok_iff {text : String} {n : Int} :
    readInteger text = .ok n ↔ Numeral text.toList n ∧ -2 ^ 63 ≤ n ∧ n ≤ 2 ^ 63 - 1 := by
  rw [readInteger]
  split
  next h =>
    rw [h, numeral_unsigned_iff (by simp) (by simp)]
    simp only [reduceCtorEq, false_iff]
    rintro ⟨⟨hrun, -⟩, -⟩
    exact hrun.nonempty rfl
  next digits h =>
    rw [h, map_readDigits_eq_ok_iff, numeral_minus_iff, and_assoc]
    refine and_congr_right fun _ => ?_
    rw [integerLimit, Int.negOfNat_eq, Int.ofNat_eq_natCast]
    omega
  next digits h =>
    rw [h, map_readDigits_eq_ok_iff, numeral_plus_iff, and_assoc]
    refine and_congr_right fun _ => ?_
    rw [integerLimit, Int.ofNat_eq_natCast]
    omega
  next hne hminus hplus =>
    rw [map_readDigits_eq_ok_iff, numeral_unsigned_iff hminus hplus, and_assoc]
    refine and_congr_right fun _ => ?_
    rw [integerLimit, Int.ofNat_eq_natCast]
    omega

end Buildfile.Text
