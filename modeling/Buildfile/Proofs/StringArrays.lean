import Buildfile.Json.Array
import Buildfile.Proofs.Integers
import Mathlib.Data.List.TakeWhile
import Mathlib.Tactic.SplitIfs

/-! # The grammar of string arrays

What the reader of string arrays accepts, stated as a grammar. Blank characters may stand around
every bracket, comma and string. A character may be spelled as itself, by a one-letter escape, by
the UTF-16 unit that it is, or by two such units that are a surrogate pair.
-/

namespace Buildfile.Json

/-! ## Grammar -/

def HexDigit (c : Char) (n : Nat) : Prop := n < 16 ∧ (c = n.digitChar ∨ c = n.digitChar.toUpper)

instance (c : Char) (n : Nat) : Decidable (HexDigit c n) :=
  inferInstanceAs (Decidable (n < 16 ∧ (c = n.digitChar ∨ c = n.digitChar.toUpper)))

/-- Four hexadecimal digits name a unit, the most significant one first. -/
inductive NamesUnit : List Char → Nat → Prop where
  | digits {a b c d : Char} {i j k l : Nat} (ha : HexDigit a i) (hb : HexDigit b j)
      (hc : HexDigit c k) (hd : HexDigit d l) :
      NamesUnit [a, b, c, d] (((i * 16 + j) * 16 + k) * 16 + l)

def shortEscapes : List (Char × Char) :=
  [('"', '"'), ('\\', '\\'), ('/', '/'), ('b', '\x08'), ('f', '\x0c'), ('n', '\n'), ('r', '\r'),
    ('t', '\t')]

def IsHigh (unit : Nat) : Prop := 0xD800 ≤ unit ∧ unit < 0xDC00

def IsLow (unit : Nat) : Prop := 0xDC00 ≤ unit ∧ unit < 0xE000

/-- How a character of a string may be written. -/
inductive Spelling (c : Char) : List Char → Prop where
  | plain (hquote : c ≠ '"') (hslash : c ≠ '\\') (hcontrol : 0x20 ≤ c.toNat) : Spelling c [c]
  | escape {letter : Char} (h : (letter, c) ∈ shortEscapes) : Spelling c ['\\', letter]
  | unit {digits : List Char} (h : NamesUnit digits c.toNat) : Spelling c ('\\' :: 'u' :: digits)
  | pair {digits more : List Char} {high low : Nat} (hd : NamesUnit digits high)
      (hm : NamesUnit more low) (hhigh : IsHigh high) (hlow : IsLow low)
      (hc : c.toNat = 0x10000 + (high - 0xD800) * 0x400 + (low - 0xDC00)) :
      Spelling c ('\\' :: 'u' :: digits ++ '\\' :: 'u' :: more)

/-- The text spells the characters one after the other. -/
inductive Spells : List Char → List Char → Prop where
  | nil : Spells [] []
  | cons {c : Char} {piece : List Char} {cs body : List Char} (hc : Spelling c piece)
      (hcs : Spells cs body) : Spells (c :: cs) (piece ++ body)

inductive Quoted (x : String) : List Char → Prop where
  | quotes {body : List Char} (h : Spells x.toList body) : Quoted x ('"' :: body ++ ['"'])

def Blanks (text : List Char) : Prop := ∀ c ∈ text, isBlank c = true

/-- What stands before an element of an array, which may be the first one. -/
inductive Separator : Bool → List Char → Prop where
  | first {blanks : List Char} (h : Blanks blanks) : Separator true blanks
  | comma {before after : List Char} (hb : Blanks before) (ha : Blanks after) :
      Separator false (before ++ ',' :: after)

/-- Strings between the brackets of an array, of which the first one here may be the first one of
the array. -/
inductive Elements : Bool → List String → List Char → Prop where
  | nil {first : Bool} {blanks : List Char} (h : Blanks blanks) : Elements first [] blanks
  | cons {first : Bool} {separator quoted inner : List Char} {x : String} {xs : List String}
      (hs : Separator first separator) (hx : Quoted x quoted) (hxs : Elements false xs inner) :
      Elements first (x :: xs) (separator ++ quoted ++ inner)

/-- A text is an array of these strings and nothing else. -/
inductive StringArray (strings : List String) : List Char → Prop where
  | brackets {before inner after : List Char} (hb : Blanks before)
      (hi : Elements true strings inner) (ha : Blanks after) :
      StringArray strings (before ++ '[' :: inner ++ ']' :: after)

/-! ## Units and escapes -/

theorem hexValue?_digitChar : ∀ n < 16, hexValue? n.digitChar = some n ∧
    hexValue? n.digitChar.toUpper = some n := by
  decide

theorem hexDigit_of_hexValue? : ∀ m < 128, ∀ n ∈ hexValue? (.ofNat m), HexDigit (.ofNat m) n := by
  decide

theorem toNat_lt_of_hexValue? {c : Char} {n : Nat} (h : hexValue? c = some n) : c.toNat < 128 := by
  by_contra hc
  have hdigit : c.isDigit = false := by
    simp only [Char.isDigit, Bool.and_eq_false_iff, decide_eq_false_iff_not, UInt32.le_iff_toNat_le]
    exact .inr fun hle => hc (Nat.lt_of_le_of_lt hle (by decide))
  have hnot (last : Char) (hlast : last.toNat < 128) : ¬ c ≤ last := fun hle =>
    hc (Nat.lt_of_le_of_lt (UInt32.le_iff_toNat_le.mp hle) hlast)
  rw [hexValue?, hdigit, if_neg (by decide), if_neg fun hf => hnot 'f' (by decide) hf.2,
    if_neg fun hf => hnot 'F' (by decide) hf.2] at h
  cases h

theorem hexValue?_eq_some_iff {c : Char} {n : Nat} : hexValue? c = some n ↔ HexDigit c n := by
  constructor
  · intro h
    have hdigit := hexDigit_of_hexValue? c.toNat (toNat_lt_of_hexValue? h) n
    rw [Char.ofNat_toNat] at hdigit
    exact hdigit h
  · rintro ⟨hn, rfl | rfl⟩
    · exact (hexValue?_digitChar n hn).1
    · exact (hexValue?_digitChar n hn).2

theorem unit?_eq_some_iff {a b c d : Char} {unit : Nat} :
    unit? a b c d = some unit ↔ NamesUnit [a, b, c, d] unit := by
  constructor
  · intro h
    obtain ⟨i, ha, j, hb, k, hc, l, hd, rfl⟩ : ∃ i, hexValue? a = some i ∧
        ∃ j, hexValue? b = some j ∧ ∃ k, hexValue? c = some k ∧ ∃ l, hexValue? d = some l ∧
          ((i * 16 + j) * 16 + k) * 16 + l = unit := by
      simpa [unit?, Option.bind_eq_some_iff] using h
    exact .digits (hexValue?_eq_some_iff.mp ha) (hexValue?_eq_some_iff.mp hb)
      (hexValue?_eq_some_iff.mp hc) (hexValue?_eq_some_iff.mp hd)
  · rintro ⟨ha, hb, hc, hd⟩
    simp [unit?, hexValue?_eq_some_iff.mpr ha, hexValue?_eq_some_iff.mpr hb,
      hexValue?_eq_some_iff.mpr hc, hexValue?_eq_some_iff.mpr hd]

theorem NamesUnit.lt {digits : List Char} {unit : Nat} (h : NamesUnit digits unit) :
    unit < 0x10000 := by
  obtain ⟨⟨hi, -⟩, ⟨hj, -⟩, ⟨hk, -⟩, ⟨hl, -⟩⟩ := h
  omega

theorem shortEscape?_eq_some_iff {letter c : Char} :
    shortEscape? letter = some c ↔ (letter, c) ∈ shortEscapes := by
  constructor
  · intro h
    unfold shortEscape? at h
    split at h <;> cases h <;> decide
  · intro h
    simp only [shortEscapes, List.mem_cons, List.not_mem_nil, Prod.mk.injEq, or_false] at h
    rcases h with ⟨rfl, rfl⟩ | ⟨rfl, rfl⟩ | ⟨rfl, rfl⟩ | ⟨rfl, rfl⟩ | ⟨rfl, rfl⟩ | ⟨rfl, rfl⟩ |
      ⟨rfl, rfl⟩ | ⟨rfl, rfl⟩ <;> rfl

theorem toNat_not_half (c : Char) : ¬ IsHigh c.toNat ∧ ¬ IsLow c.toNat := by
  have hvalid : c.toNat < 0xD800 ∨ (0xDFFF < c.toNat ∧ c.toNat < 0x110000) := c.valid
  simp only [IsHigh, IsLow]
  omega

theorem toNat_ofNat_of_valid {n : Nat} (h : n.isValidChar) : (Char.ofNat n).toNat = n := by
  rw [Char.ofNat, dif_pos h]
  rfl

theorem isValidChar_pair {high low : Nat} (hhigh : IsHigh high) (hlow : IsLow low) :
    (0x10000 + (high - 0xD800) * 0x400 + (low - 0xDC00)).isValidChar := by
  simp only [IsHigh, IsLow] at hhigh hlow
  exact .inr ⟨by omega, by omega⟩

/-! ## Strings -/

/-- The text of an escape that has been read without completing a character. -/
inductive PendingHalf : Option Nat → List Char → Prop where
  | none : PendingHalf none []
  | high {digits : List Char} {unit : Nat} (h : NamesUnit digits unit) (hu : IsHigh unit) :
      PendingHalf (some unit) ('\\' :: 'u' :: digits)

section Units
variable {high : Option Nat} {unit : Nat} {front digits : List Char} {c : Char}

theorem readUnit_none_eq_complete_iff :
    readUnit none unit = .complete c ↔ ¬ IsHigh unit ∧ ¬ IsLow unit ∧ c = .ofNat unit := by
  simp only [readUnit, IsHigh, IsLow]
  split_ifs with hh hl
  · simp [hh]
  · simp [hl]
  · simp [hh, hl, eq_comm]

theorem readUnit_some_eq_complete_iff {h : Nat} :
    readUnit (some h) unit = .complete c ↔
      IsLow unit ∧ c = .ofNat (0x10000 + (h - 0xD800) * 0x400 + (unit - 0xDC00)) := by
  simp only [readUnit, IsLow]
  split_ifs with hl <;> simp [hl, eq_comm]

theorem readUnit_eq_half_iff {h : Nat} :
    readUnit high unit = .half h ↔ high = none ∧ IsHigh unit ∧ h = unit := by
  cases high with
  | none =>
    simp only [readUnit, IsHigh]
    split_ifs with hh hl
    · simp [hh, eq_comm]
    · simp [hh]
    · simp [hh]
  | some h =>
    simp only [readUnit]
    split_ifs <;> simp

/-- A unit that completes a character spells it together with the half before it. -/
theorem spelling_of_readUnit (hp : PendingHalf high front) (hd : NamesUnit digits unit)
    (h : readUnit high unit = .complete c) : Spelling c (front ++ '\\' :: 'u' :: digits) := by
  cases hp with
  | none =>
    obtain ⟨hhigh, hlow, rfl⟩ := readUnit_none_eq_complete_iff.mp h
    have hvalid : unit.isValidChar := by
      have hlt := hd.lt
      simp only [IsHigh, IsLow] at hhigh hlow
      simp only [Nat.isValidChar]
      omega
    exact .unit (by rwa [toNat_ofNat_of_valid hvalid])
  | high hfront hhigh =>
    obtain ⟨hlow, hc⟩ := readUnit_some_eq_complete_iff.mp h
    have hvalue := toNat_ofNat_of_valid (isValidChar_pair hhigh hlow)
    exact .pair hfront hd hhigh hlow (hc ▸ hvalue)

end Units

section Strings
variable {high : Option Nat} {unit : Nat} {front digits cs rest text piece : List Char} {c : Char}

/-- A piece of text in front of a string spells one more character. -/
theorem spells_cons (hc : Spelling c piece)
    (h : ∃ body, Spells cs body ∧ text = body ++ '"' :: rest) :
    ∃ body, Spells (c :: cs) body ∧ piece ++ text = body ++ '"' :: rest := by
  obtain ⟨body, hcs, rfl⟩ := h
  exact ⟨piece ++ body, .cons hc hcs, (List.append_assoc ..).symm⟩

/-- What is read is spelled out by the text up to a closing quote, if the escape that was read
before is put in front of it. -/
theorem spells_of_stringFrom (hp : PendingHalf high front)
    (h : stringFrom high text = .ok (cs, rest)) :
    ∃ body, Spells cs body ∧ front ++ text = body ++ '"' :: rest := by
  fun_induction stringFrom high text generalizing front cs with
  | case1 | case2 | case3 | case6 | case7 | case8 | case10 | case12 => cases h
  | case4 high a b c d text unit hunit x hread ih =>
    obtain ⟨⟨cs', rest'⟩, hr, heq⟩ := Text.map_eq_ok_iff.mp h
    cases heq
    have hx := spelling_of_readUnit hp (unit?_eq_some_iff.mp hunit) hread
    simpa using spells_cons hx (ih .none hr)
  | case5 high a b c d text unit hunit half hread ih =>
    obtain ⟨rfl, hhigh, rfl⟩ := readUnit_eq_half_iff.mp hread
    cases hp
    exact ih (.high (unit?_eq_some_iff.mp hunit) hhigh) h
  | case9 letter text hu hu' c hc ih =>
    obtain ⟨⟨cs', rest'⟩, hr, heq⟩ := Text.map_eq_ok_iff.mp h
    cases hp
    cases heq
    have hspelled := spells_cons (.escape (shortEscape?_eq_some_iff.mp hc)) (ih .none hr)
    exact hspelled
  | case11 text =>
    cases hp
    cases h
    exact ⟨[], .nil, rfl⟩
  | case13 c text hlast hu hu' hescape hquote hcontrol ih =>
    obtain ⟨⟨cs', rest'⟩, hr, heq⟩ := Text.map_eq_ok_iff.mp h
    cases hp
    cases heq
    have hslash : c ≠ '\\' := by
      rintro rfl
      cases text with
      | nil => exact hlast rfl rfl
      | cons d text => exact hescape d text rfl rfl
    have hlow : 0x20 ≤ c.toNat := by simpa [isControl] using hcontrol
    have hspelled := spells_cons (.plain hquote hslash hlow) (ih .none hr)
    exact hspelled

/-- An escaped unit is read as far as it completes a character or half of one. -/
theorem stringFrom_unit (hd : NamesUnit digits unit) (text : List Char) :
    stringFrom high ('\\' :: 'u' :: digits ++ text) =
      match readUnit high unit with
      | .complete c => (stringFrom none text).map fun r => (c :: r.1, r.2)
      | .half high => stringFrom (some high) text
      | .misplaced => .error .malformed := by
  obtain ⟨a, b, c, d, rfl⟩ : ∃ a b c d, digits = [a, b, c, d] := by
    cases hd
    exact ⟨_, _, _, _, rfl⟩
  have hunit := unit?_eq_some_iff.mpr hd
  simp only [List.cons_append, List.nil_append]
  rw [stringFrom, hunit]
  rfl

/-- However a character is spelled, it is read before the rest of the text. -/
theorem stringFrom_spelling (h : Spelling c piece) (text : List Char) :
    stringFrom none (piece ++ text) =
      (stringFrom none text).map fun r => (c :: r.1, r.2) := by
  cases h with
  | plain hquote hslash hcontrol =>
    have hc : isControl c = false := by simpa [isControl] using hcontrol
    rw [List.singleton_append, stringFrom, if_neg hquote, hc]
    · rfl
    all_goals simp [hslash]
  | @escape letter h =>
    have hletter : letter ≠ 'u' := by
      rintro rfl
      simp [shortEscapes] at h
    simp only [List.cons_append, List.nil_append]
    rw [stringFrom, shortEscape?_eq_some_iff.mpr h]
    · rfl
    all_goals simp [hletter]
  | unit h =>
    have hread := readUnit_none_eq_complete_iff.mpr
      ⟨(toNat_not_half c).1, (toNat_not_half c).2, (Char.ofNat_toNat c).symm⟩
    rw [stringFrom_unit h, hread]
  | @pair digits more high low hd hm hhigh hlow hc =>
    have hread := readUnit_some_eq_complete_iff.mpr ⟨hlow, hc ▸ (Char.ofNat_toNat c).symm⟩
    rw [List.append_assoc, stringFrom_unit hd, readUnit_eq_half_iff.mpr ⟨rfl, hhigh, rfl⟩]
    exact (stringFrom_unit hm text).trans (by rw [hread])

theorem stringFrom_eq_ok_iff :
    stringFrom none text = .ok (cs, rest) ↔
      ∃ body, Spells cs body ∧ text = body ++ '"' :: rest := by
  refine ⟨spells_of_stringFrom .none, ?_⟩
  rintro ⟨body, h, rfl⟩
  induction h with
  | nil => rfl
  | cons hc hcs ih => rw [List.append_assoc, stringFrom_spelling hc, ih, Except.map]

end Strings

/-! ## Blanks and marks -/

section Blanks
variable {blanks text rest : List Char} {c : Char}

theorem skipBlanks_append (h : Blanks blanks) (text : List Char) :
    skipBlanks (blanks ++ text) = skipBlanks text :=
  List.dropWhile_append_of_pos h

theorem skipBlanks_cons (h : isBlank c = false) : skipBlanks (c :: rest) = c :: rest := by
  rw [skipBlanks, List.dropWhile_cons, h]
  rfl

theorem blanks_skipBlanks (text : List Char) :
    ∃ blanks, Blanks blanks ∧ text = blanks ++ skipBlanks text :=
  ⟨text.takeWhile isBlank, fun _ => List.mem_takeWhile_imp, List.takeWhile_append_dropWhile.symm⟩

theorem Blanks.append {more : List Char} (h : Blanks blanks) (hm : Blanks more) :
    Blanks (blanks ++ more) := by
  intro c hc
  exact (List.mem_append.mp hc).elim (h c) (hm c)

theorem skipBlanks_eq_cons_iff :
    skipBlanks text = c :: rest ↔
      isBlank c = false ∧ ∃ blanks, Blanks blanks ∧ text = blanks ++ c :: rest := by
  constructor
  · intro h
    obtain ⟨blanks, hblanks, htext⟩ := blanks_skipBlanks text
    refine ⟨?_, blanks, hblanks, h ▸ htext⟩
    have hhead : (text.dropWhile isBlank).head? = some c := by
      rw [show text.dropWhile isBlank = c :: rest from h, List.head?_cons]
    simpa [hhead] using List.head?_dropWhile_not isBlank text
  · rintro ⟨hc, blanks, hblanks, rfl⟩
    rw [skipBlanks_append hblanks, skipBlanks_cons hc]

theorem takeMark_eq_ok_iff {mark : Char} (hm : isBlank mark = false) :
    takeMark mark text = .ok rest ↔ ∃ blanks, Blanks blanks ∧ text = blanks ++ mark :: rest := by
  have hskip : takeMark mark text = .ok rest ↔ skipBlanks text = mark :: rest := by
    unfold takeMark
    split
    next h => simp [h]
    next c rest' h => split_ifs with hc <;> simp [h, hc]
  rw [hskip, skipBlanks_eq_cons_iff]
  exact and_iff_right hm

theorem endOfText_eq_ok_iff : endOfText text = .ok () ↔ Blanks text := by
  simp [endOfText, skipBlanks, Blanks]

/-- A decoder of strings takes off blank characters and a quoted string. -/
theorem text_eq_ok_iff {x : String} :
    Json.text text = .ok (x, rest) ↔
      ∃ blanks quoted, Blanks blanks ∧ Quoted x quoted ∧ text = blanks ++ quoted ++ rest := by
  constructor
  · intro h
    unfold Json.text at h
    split at h
    · next more hskip =>
      obtain ⟨⟨cs, rest'⟩, hread, heq⟩ := Text.map_eq_ok_iff.mp h
      cases heq
      obtain ⟨-, blanks, hblanks, rfl⟩ := skipBlanks_eq_cons_iff.mp hskip
      obtain ⟨body, hbody, rfl⟩ := stringFrom_eq_ok_iff.mp hread
      exact ⟨blanks, '"' :: body ++ ['"'], hblanks, .quotes (by simpa using hbody), by simp⟩
    · cases h
  · rintro ⟨blanks, quoted, hblanks, ⟨hbody⟩, rfl⟩
    rename_i body
    have hread : stringFrom none (body ++ '"' :: rest) = .ok (x.toList, rest) :=
      stringFrom_eq_ok_iff.mpr ⟨body, hbody, rfl⟩
    have hskip : skipBlanks (blanks ++ ('"' :: body ++ ['"']) ++ rest) =
        '"' :: (body ++ '"' :: rest) := by
      rw [List.append_assoc, skipBlanks_append hblanks]
      simpa using skipBlanks_cons rfl
    rw [Json.text, hskip]
    simp [hread, Except.map]

end Blanks

/-! ## Arrays -/

section Arrays
variable {first : Bool} {separator inner text element rest : List Char} {x : String}
  {xs : List String} {bound : Nat}

theorem Separator.append (h : Separator first separator) {blanks : List Char}
    (hb : Blanks blanks) : Separator first (separator ++ blanks) := by
  cases h with
  | first h => exact .first (h.append hb)
  | comma hbefore hafter =>
    rw [List.append_assoc, List.cons_append]
    exact .comma hbefore (hafter.append hb)

theorem separator_of_nextElement (h : nextElement first text = .ok (some element)) :
    ∃ separator, Separator first separator ∧ text = separator ++ element := by
  unfold nextElement at h
  split at h
  · cases h
  next c more hskip =>
    obtain ⟨-, blanks, hblanks, rfl⟩ := skipBlanks_eq_cons_iff.mp hskip
    split_ifs at h with hclose hfirst hcomma
    · cases h
    · cases h
      exact ⟨blanks, hfirst ▸ .first hblanks, rfl⟩
    · obtain rfl : first = false := by simpa using hfirst
      subst hcomma
      split at h
      · cases h
      · cases h
      · cases h
        obtain ⟨after, hafter, hmore⟩ := blanks_skipBlanks more
        exact ⟨blanks ++ ',' :: after, .comma hblanks hafter, by
          rw [List.append_assoc, List.cons_append, ← hmore]⟩

theorem nextElement_separator (h : Separator first separator) (text : List Char) :
    nextElement first (separator ++ '"' :: text) = .ok (some ('"' :: text)) := by
  cases h with
  | first h =>
    rw [nextElement, skipBlanks_append h, skipBlanks_cons rfl]
    rfl
  | comma hbefore hafter =>
    rw [nextElement, List.append_assoc, skipBlanks_append hbefore, List.cons_append,
      skipBlanks_cons rfl]
    simp [skipBlanks_append hafter, skipBlanks_cons (show isBlank '"' = false from rfl)]

/-- A decoder of an array reads what the grammar says stands before its closing bracket. -/
theorem elements_of_elementsFrom
    (h : elementsFrom Json.text bound first text = .ok (xs, element))
    (hc : takeMark ']' element = .ok rest) :
    ∃ inner, Elements first xs inner ∧ text = inner ++ ']' :: rest := by
  induction bound generalizing first text xs with
  | zero => cases h
  | succ bound ih =>
    obtain ⟨next, hnext, hread⟩ := Text.bind_eq_ok_iff.mp h
    cases next with
    | none =>
      cases hread
      obtain ⟨blanks, hblanks, rfl⟩ := (takeMark_eq_ok_iff rfl).mp hc
      exact ⟨blanks, .nil hblanks, rfl⟩
    | some front =>
      obtain ⟨⟨x, more⟩, hx, hread⟩ := Text.bind_eq_ok_iff.mp hread
      obtain ⟨⟨ys, last⟩, hys, hread⟩ := Text.bind_eq_ok_iff.mp hread
      cases hread
      obtain ⟨inner, hinner, rfl⟩ := ih hys
      obtain ⟨separator, hseparator, rfl⟩ := separator_of_nextElement hnext
      obtain ⟨blanks, quoted, hblanks, hquoted, rfl⟩ := text_eq_ok_iff.mp hx
      exact ⟨_, .cons (hseparator.append hblanks) hquoted hinner, by simp⟩

/-- The bound on the number of elements is no obstacle: every element takes up some text. -/
theorem elementsFrom_of_elements (h : Elements first xs inner) (hb : inner.length < bound)
    (rest : List Char) :
    ∃ last, elementsFrom Json.text bound first (inner ++ ']' :: rest) = .ok (xs, last) ∧
      takeMark ']' last = .ok rest := by
  induction h generalizing bound with
  | nil hblanks =>
    rename_i first blanks
    obtain ⟨bound, rfl⟩ := Nat.exists_eq_add_one_of_ne_zero (Nat.ne_zero_of_lt hb)
    have hnext : nextElement first (blanks ++ ']' :: rest) = .ok none := by
      rw [nextElement, skipBlanks_append hblanks, skipBlanks_cons rfl]
      rfl
    refine ⟨_, ?_, (takeMark_eq_ok_iff rfl).mpr ⟨blanks, hblanks, rfl⟩⟩
    rw [elementsFrom, hnext]
    rfl
  | cons hs hx hxs ih =>
    rename_i first separator quoted inner x xs
    obtain ⟨bound, rfl⟩ := Nat.exists_eq_add_one_of_ne_zero (Nat.ne_zero_of_lt hb)
    have htext : Json.text (quoted ++ (inner ++ ']' :: rest)) = .ok (x, inner ++ ']' :: rest) :=
      text_eq_ok_iff.mpr ⟨[], quoted, by simp [Blanks], hx, by simp⟩
    obtain ⟨hbody⟩ := hx
    have hlength : inner.length < bound := by
      simp only [List.length_append, List.length_cons] at hb
      omega
    obtain ⟨last, hread, hlast⟩ := ih hlength
    refine ⟨last, ?_, hlast⟩
    rw [elementsFrom, List.append_assoc, List.append_assoc]
    simp only [List.cons_append] at htext ⊢
    rw [nextElement_separator hs]
    simp only [bind, Except.bind, htext, hread]
    rfl

/-- The reader of string arrays accepts the texts of the grammar, with the strings they spell. -/
theorem readStrings_eq_ok_iff {source : String} {strings : List String} :
    readStrings source = .ok strings ↔ StringArray strings source.toList := by
  constructor
  · intro h
    obtain ⟨⟨xs, after⟩, harray, hread⟩ := Text.bind_eq_ok_iff.mp h
    obtain ⟨⟨⟩, hend, hread⟩ := Text.bind_eq_ok_iff.mp hread
    cases hread
    unfold array at harray
    split at harray
    · next text hskip =>
      obtain ⟨⟨ys, last⟩, hys, hread⟩ := Text.bind_eq_ok_iff.mp harray
      obtain ⟨rest, hmark, hread⟩ := Text.bind_eq_ok_iff.mp hread
      cases hread
      obtain ⟨-, before, hbefore, hsource⟩ := skipBlanks_eq_cons_iff.mp hskip
      obtain ⟨inner, hinner, rfl⟩ := elements_of_elementsFrom hys hmark
      rw [hsource]
      simpa using StringArray.brackets hbefore hinner (endOfText_eq_ok_iff.mp hend)
    · cases harray
  · intro h
    generalize htext : source.toList = text at h
    obtain ⟨hbefore, hinner, hafter⟩ := h
    rename_i before inner after
    have hlength : inner.length < (inner ++ ']' :: after).length + 1 := by
      rw [List.length_append]
      omega
    obtain ⟨last, hread, hmark⟩ := elementsFrom_of_elements hinner hlength after
    have hskip : skipBlanks (before ++ '[' :: inner ++ ']' :: after) =
        '[' :: (inner ++ ']' :: after) := by
      rw [List.append_assoc, skipBlanks_append hbefore]
      exact skipBlanks_cons rfl
    rw [readStrings, htext, array, hskip]
    simp only [hread, hmark, bind, Except.bind, pure, Except.pure,
      endOfText_eq_ok_iff.mpr hafter]

end Arrays

/-! ## Written arrays -/

def writeArray (separator : List Char) (strings : List String) : List Char :=
  '[' :: separator.intercalate (strings.map fun x => write x.toList) ++ [']']

theorem spelling_writeChar (c : Char) : Spelling c (writeChar c) := by
  unfold writeChar
  split_ifs with hquote hslash hb hf hn hr ht hcontrol
  iterate 7
    · subst c
      exact .escape (by decide)
  · have hlt : c.toNat < 0x20 := by simpa [isControl] using hcontrol
    have hdigit (n : Nat) (hn : n < 16) : HexDigit n.digitChar n := ⟨hn, .inl rfl⟩
    have hunit := NamesUnit.digits (hdigit 0 (by decide)) (hdigit 0 (by decide))
      (hdigit (c.toNat / 16) (by omega)) (hdigit (c.toNat % 16) (by omega))
    have hvalue : ((0 * 16 + 0) * 16 + c.toNat / 16) * 16 + c.toNat % 16 = c.toNat := by omega
    rw [hvalue] at hunit
    exact .unit hunit
  · exact .plain hquote hslash (by simpa [isControl] using hcontrol)

theorem spells_write (cs : List Char) : Spells cs (cs.flatMap writeChar) := by
  induction cs with
  | nil => exact .nil
  | cons c cs ih => exact .cons (spelling_writeChar c) ih

theorem quoted_write (x : String) : Quoted x (write x.toList) := .quotes (spells_write x.toList)

/-- The written form of strings is an array of them, whatever separates them. -/
theorem stringArray_writeArray {separator : List Char} (hs : Separator false separator)
    (strings : List String) : StringArray strings (writeArray separator strings) := by
  have hblanks : Blanks [] := by simp [Blanks]
  have hmore (xs : List String) :
      Elements false xs (xs.flatMap fun x => separator ++ write x.toList) := by
    induction xs with
    | nil => exact .nil hblanks
    | cons x xs ih => exact .cons hs (quoted_write x) ih
  have hjoin (x : List Char) (xs : List (List Char)) :
      separator.intercalate (x :: xs) = x ++ xs.flatMap (separator ++ ·) := by
    induction xs generalizing x with
    | nil => simp
    | cons y ys ih => simp [List.intercalate_cons_cons, ih]
  have helements : Elements true strings
      (separator.intercalate (strings.map fun x => write x.toList)) := by
    cases strings with
    | nil => exact .nil hblanks
    | cons x xs =>
      have hcons := Elements.cons (.first hblanks) (quoted_write x) (hmore xs)
      rwa [List.map_cons, hjoin, List.flatMap_map]
  exact .brackets hblanks helements hblanks

end Buildfile.Json
