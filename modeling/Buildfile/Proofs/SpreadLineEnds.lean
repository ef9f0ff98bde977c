import Buildfile.Proofs.Continuations

/-! # Line ends that are spread out

Line continuations are removed in one pass, which joins what stands on both sides of each. A
backslash that is kept is then followed by a line end if one was spread out behind it, with
continuations before it or between its two characters. These are the only line continuations that a
word has once its own are removed.
-/

namespace Buildfile
namespace Text

inductive LineEnd : List Char → Prop where
  | lf : LineEnd ['\n']
  | crlf : LineEnd ['\r', '\n']

/-- Line continuations in a row, each with its indentation. The flag tells whether there may be
indentation first. -/
inductive Gap : Bool → List Char → Prop where
  | nil {indent : Bool} : Gap indent []
  | join {indent : Bool} {lineEnd gap : List Char} (he : LineEnd lineEnd) (h : Gap true gap) :
      Gap indent ('\\' :: (lineEnd ++ gap))
  | indent {c : Char} {gap : List Char} (hc : isIndent c = true) (h : Gap true gap) :
      Gap true (c :: gap)

/-- A text is spread out by gaps, of which there may be one before each of its characters. -/
inductive Spread : List Char → List Char → Prop where
  | nil : Spread [] []
  | cons {c : Char} {text gap spread : List Char} (hg : Gap false gap) (h : Spread text spread) :
      Spread (c :: text) (gap ++ c :: spread)

/-- A backslash stands before a line end that is spread out. -/
def HidesLineEnd (text : List Char) : Prop :=
  ∃ lineEnd spread, LineEnd lineEnd ∧ Spread lineEnd spread ∧ spread ≠ lineEnd ∧
    '\\' :: spread <:+: text

def StartsWithLineEnd (text : List Char) : Prop := ∃ lineEnd, LineEnd lineEnd ∧ lineEnd <+: text

variable {indent : Bool} {c : Char} {text rest out gap spread lineEnd : List Char}

theorem LineEnd.plain (he : LineEnd lineEnd) : ∀ c ∈ lineEnd, c ≠ '\\' ∧ isIndent c = false := by
  cases he <;> simp [isIndent]

theorem startsWithLineEnd_cons_iff :
    StartsWithLineEnd (c :: rest) ↔ c = '\n' ∨ c = '\r' ∧ ['\n'] <+: rest := by
  constructor
  · rintro ⟨lineEnd, he, h⟩
    cases he with
    | lf => exact .inl (List.cons_prefix_cons.mp h).1.symm
    | crlf =>
      obtain ⟨hc, hrest⟩ := List.cons_prefix_cons.mp h
      exact .inr ⟨hc.symm, hrest⟩
  · rintro (rfl | ⟨rfl, h⟩)
    · exact ⟨_, .lf, by simp⟩
    · exact ⟨_, .crlf, by simpa using h⟩

theorem spread_cons_iff : Spread (c :: text) spread ↔
    ∃ gap more, Gap false gap ∧ Spread text more ∧ spread = gap ++ c :: more := by
  constructor
  · rintro ⟨⟩
    exact ⟨_, _, ‹_›, ‹_›, rfl⟩
  · rintro ⟨gap, more, hg, h, rfl⟩
    exact .cons hg h

theorem continued_iff :
    Continued text ↔ ∃ lineEnd, LineEnd lineEnd ∧ '\\' :: lineEnd <:+: text := by
  constructor
  · rintro (h | h)
    · exact ⟨_, .lf, h⟩
    · exact ⟨_, .crlf, h⟩
  · rintro ⟨lineEnd, he, h⟩
    cases he with
    | lf => exact .inl h
    | crlf => exact .inr h

theorem continued_iff_suffix :
    Continued text ↔ ∃ rest, '\\' :: rest <:+ text ∧ StartsWithLineEnd rest := by
  rw [continued_iff]
  constructor
  · rintro ⟨lineEnd, he, h⟩
    obtain ⟨_, ⟨more, rfl⟩, hsuffix⟩ := List.infix_iff_prefix_suffix.mp h
    exact ⟨lineEnd ++ more, hsuffix, lineEnd, he, List.prefix_append _ _⟩
  · rintro ⟨rest, hsuffix, lineEnd, he, hprefix⟩
    have hcons : '\\' :: lineEnd <+: '\\' :: rest := List.cons_prefix_cons.mpr ⟨rfl, hprefix⟩
    exact ⟨lineEnd, he, List.infix_iff_prefix_suffix.mpr ⟨_, hcons, hsuffix⟩⟩

/-! ## What is kept -/

theorem joinLinesFrom_join (indent : Bool) (he : LineEnd lineEnd) :
    joinLinesFrom indent ('\\' :: (lineEnd ++ rest)) = joinLinesFrom true rest := by
  cases he <;> rfl

theorem joinLinesFrom_keep (hc : indent = true → isIndent c = false)
    (hs : c = '\\' → ¬ StartsWithLineEnd rest) :
    joinLinesFrom indent (c :: rest) = c :: joinLinesFrom false rest := by
  rw [joinLinesFrom]
  · cases indent <;> simp [hc]
  · rintro more rfl rfl
    exact hs rfl (startsWithLineEnd_cons_iff.mpr (.inl rfl))
  · rintro more rfl rfl
    exact hs rfl (startsWithLineEnd_cons_iff.mpr (.inr ⟨rfl, by simp⟩))

theorem joinLinesFrom_indent (hc : isIndent c = true) :
    joinLinesFrom true (c :: rest) = joinLinesFrom true rest := by
  rw [joinLinesFrom]
  · simp [hc]
  · rintro more rfl
    exact absurd hc (by decide)
  · rintro more rfl
    exact absurd hc (by decide)

theorem joinLinesFrom_gap_append (h : Gap indent gap) (hc : isIndent c = false)
    (hs : c = '\\' → ¬ StartsWithLineEnd rest) :
    joinLinesFrom indent (gap ++ c :: rest) = c :: joinLinesFrom false rest := by
  induction h with
  | nil => exact joinLinesFrom_keep (fun _ => hc) hs
  | join he h ih => rw [List.cons_append, List.append_assoc, joinLinesFrom_join _ he, ih]
  | indent hi h ih => rw [List.cons_append, joinLinesFrom_indent hi, ih]

/-- How the pass goes on from each place in a text. -/
theorem joinLinesFrom_induction {motive : Bool → List Char → Prop}
    (nil : ∀ indent, motive indent [])
    (join : ∀ indent lineEnd rest, LineEnd lineEnd → motive true rest →
      motive indent ('\\' :: (lineEnd ++ rest)))
    (indentation : ∀ c rest, isIndent c = true → motive true rest → motive true (c :: rest))
    (keep : ∀ indent c rest, (indent = true → isIndent c = false) →
      (c = '\\' → ¬ StartsWithLineEnd rest) → motive false rest → motive indent (c :: rest))
    (indent : Bool) (text : List Char) : motive indent text := by
  induction indent, text using joinLinesFrom.induct with
  | case1 indent => exact nil indent
  | case2 indent rest ih => exact join indent _ rest .lf ih
  | case3 indent rest ih => exact join indent _ rest .crlf ih
  | case4 indent c rest hlf hcrlf hi ih =>
    obtain ⟨rfl, hc⟩ := Bool.and_eq_true_iff.mp hi
    exact indentation c rest hc ih
  | case5 indent c rest hlf hcrlf hi ih =>
    refine keep indent c rest (fun h => by simpa [h] using hi) (fun hc => ?_) ih
    rintro ⟨lineEnd, he, more, rfl⟩
    cases he with
    | lf => exact hlf more hc rfl
    | crlf => exact hcrlf more hc rfl

/-- The backslashes that are kept are those that no line end follows. -/
theorem backslash_suffix_joinLinesFrom_iff :
    '\\' :: out <:+ joinLinesFrom indent text ↔
      ∃ rest, '\\' :: rest <:+ text ∧ ¬ StartsWithLineEnd rest ∧
        joinLinesFrom false rest = out := by
  induction indent, text using joinLinesFrom_induction with
  | nil indent => simp [joinLinesFrom]
  | join indent lineEnd more he ih =>
    rw [joinLinesFrom_join indent he, ih]
    refine exists_congr fun rest => ?_
    constructor
    · rintro ⟨h, hrest⟩
      exact ⟨h.trans (List.suffix_append ('\\' :: lineEnd) more), hrest⟩
    · rintro ⟨h, hs, hrest⟩
      rcases List.suffix_cons_iff.mp h with heq | h
      · obtain ⟨-, rfl⟩ := List.cons.inj heq
        exact absurd ⟨lineEnd, he, List.prefix_append _ _⟩ hs
      · cases he <;> exact ⟨by simpa [List.suffix_cons_iff] using h, hs, hrest⟩
  | indentation c more hc ih =>
    have hslash : '\\' ≠ c := by
      rintro rfl
      exact absurd hc (by decide)
    rw [joinLinesFrom_indent hc, ih]
    simp [List.suffix_cons_iff, hslash]
  | keep indent c more hc hs ih =>
    rw [joinLinesFrom_keep hc hs, List.suffix_cons_iff, ih]
    constructor
    · rintro (heq | ⟨rest, h, hrest⟩)
      · obtain ⟨rfl, rfl⟩ := List.cons.inj heq
        exact ⟨more, List.suffix_rfl, hs rfl, rfl⟩
      · exact ⟨rest, h.trans (List.suffix_cons c more), hrest⟩
    · rintro ⟨rest, h, hs', rfl⟩
      rcases List.suffix_cons_iff.mp h with heq | h
      · obtain ⟨rfl, rfl⟩ := List.cons.inj heq
        exact .inl rfl
      · exact .inr ⟨rest, h, hs', rfl⟩

theorem exists_gap_of_joinLinesFrom_eq_cons (h : joinLinesFrom indent text = c :: out) :
    ∃ gap rest, Gap indent gap ∧ text = gap ++ c :: rest ∧ joinLinesFrom false rest = out := by
  induction indent, text using joinLinesFrom_induction with
  | nil indent => cases h
  | join indent lineEnd more he ih =>
    rw [joinLinesFrom_join indent he] at h
    obtain ⟨gap, rest, hg, rfl, hrest⟩ := ih h
    exact ⟨'\\' :: (lineEnd ++ gap), rest, .join he hg, by simp, hrest⟩
  | indentation d more hd ih =>
    rw [joinLinesFrom_indent hd] at h
    obtain ⟨gap, rest, hg, rfl, hrest⟩ := ih h
    exact ⟨d :: gap, rest, .indent hd hg, rfl, hrest⟩
  | keep indent d more hd hs ih =>
    rw [joinLinesFrom_keep hd hs] at h
    obtain ⟨rfl, hrest⟩ := List.cons.inj h
    exact ⟨[], more, .nil, rfl, hrest⟩

/-- A line end is left at the start of a text if one was there, which may have been spread out. -/
theorem prefix_joinLinesFrom_iff {kept : List Char}
    (hk : ∀ c ∈ kept, c ≠ '\\' ∧ isIndent c = false) :
    kept <+: joinLinesFrom false text ↔ ∃ spread, Spread kept spread ∧ spread <+: text := by
  induction kept generalizing text with
  | nil => exact ⟨fun _ => ⟨[], .nil, List.nil_prefix⟩, fun _ => List.nil_prefix⟩
  | cons c kept ih =>
    obtain ⟨⟨hslash, hindent⟩, hk⟩ := List.forall_mem_cons.mp hk
    constructor
    · rintro ⟨more, h⟩
      obtain ⟨gap, rest, hg, rfl, hrest⟩ := exists_gap_of_joinLinesFrom_eq_cons h.symm
      obtain ⟨spread, hspread, hprefix⟩ := (ih hk).mp ⟨more, hrest.symm⟩
      refine ⟨gap ++ c :: spread, .cons hg hspread, ?_⟩
      exact (List.prefix_append_right_inj gap).mpr (List.cons_prefix_cons.mpr ⟨rfl, hprefix⟩)
    · rintro ⟨_, h, more, rfl⟩
      obtain ⟨gap, spread, hg, hspread, rfl⟩ := spread_cons_iff.mp h
      rw [List.append_assoc, List.cons_append,
        joinLinesFrom_gap_append hg hindent fun h => absurd h hslash, List.cons_prefix_cons]
      exact ⟨rfl, (ih hk).mpr ⟨spread, hspread, List.prefix_append _ _⟩⟩

theorem Spread.startsWithLineEnd_append_iff (he : LineEnd lineEnd) (h : Spread lineEnd spread) :
    StartsWithLineEnd (spread ++ rest) ↔ spread = lineEnd := by
  constructor
  · intro hs
    cases he with
    | lf =>
      obtain ⟨gap, _, hg, ⟨⟩, rfl⟩ := spread_cons_iff.mp h
      cases hg with
      | nil => rfl
      | join => simp [startsWithLineEnd_cons_iff] at hs
    | crlf =>
      obtain ⟨gap, _, hg, hlf, rfl⟩ := spread_cons_iff.mp h
      obtain ⟨more, _, hm, ⟨⟩, rfl⟩ := spread_cons_iff.mp hlf
      cases hg with
      | nil =>
        cases hm with
        | nil => rfl
        | join => simp [startsWithLineEnd_cons_iff] at hs
      | join => simp [startsWithLineEnd_cons_iff] at hs
  · rintro rfl
    exact ⟨_, he, List.prefix_append _ _⟩

/-! ## Removing line continuations twice -/

/-- A text has line continuations left where a backslash stands before a spread line end. -/
theorem continued_joinLinesFrom_iff :
    Continued (joinLinesFrom false text) ↔ HidesLineEnd text := by
  rw [continued_iff_suffix]
  constructor
  · rintro ⟨out, hout, lineEnd, he, hprefix⟩
    obtain ⟨rest, hrest, hs, rfl⟩ := backslash_suffix_joinLinesFrom_iff.mp hout
    obtain ⟨spread, hspread, more, rfl⟩ := (prefix_joinLinesFrom_iff he.plain).mp hprefix
    refine ⟨lineEnd, spread, he, hspread, fun heq => ?_, ?_⟩
    · exact hs ((hspread.startsWithLineEnd_append_iff he).mpr heq)
    · exact List.infix_iff_prefix_suffix.mpr ⟨_, List.prefix_append ('\\' :: spread) more, hrest⟩
  · rintro ⟨lineEnd, spread, he, hspread, hne, h⟩
    obtain ⟨_, ⟨more, rfl⟩, hsuffix⟩ := List.infix_iff_prefix_suffix.mp h
    have hs : ¬ StartsWithLineEnd (spread ++ more) := fun hs =>
      hne ((hspread.startsWithLineEnd_append_iff he).mp hs)
    have hprefix : lineEnd <+: joinLinesFrom false (spread ++ more) :=
      (prefix_joinLinesFrom_iff he.plain).mpr ⟨spread, hspread, List.prefix_append _ _⟩
    exact ⟨_, backslash_suffix_joinLinesFrom_iff.mpr ⟨_, hsuffix, hs, rfl⟩, lineEnd, he, hprefix⟩

theorem length_joinLinesFrom_le (indent : Bool) (text : List Char) :
    (joinLinesFrom indent text).length ≤ text.length := by
  induction indent, text using joinLinesFrom_induction with
  | nil indent => rfl
  | join indent lineEnd rest he ih =>
    rw [joinLinesFrom_join indent he]
    simp only [List.length_cons, List.length_append]
    omega
  | indentation c rest hc ih =>
    rw [joinLinesFrom_indent hc]
    simp only [List.length_cons]
    omega
  | keep indent c rest hc hs ih =>
    rw [joinLinesFrom_keep hc hs]
    simp only [List.length_cons]
    omega

theorem length_joinLinesFrom_lt (h : Continued text) :
    (joinLinesFrom indent text).length < text.length := by
  obtain ⟨rest, hrest, hstart⟩ := continued_iff_suffix.mp h
  induction indent, text using joinLinesFrom_induction with
  | nil indent => simp at hrest
  | join indent lineEnd more he ih =>
    have hle := length_joinLinesFrom_le true more
    rw [joinLinesFrom_join indent he]
    simp only [List.length_cons, List.length_append]
    omega
  | indentation c more hc ih =>
    have hle := length_joinLinesFrom_le true more
    rw [joinLinesFrom_indent hc]
    simp only [List.length_cons]
    omega
  | keep indent c more hc hs ih =>
    rw [joinLinesFrom_keep hc hs]
    rcases List.suffix_cons_iff.mp hrest with heq | hrest
    · obtain ⟨rfl, rfl⟩ := List.cons.inj heq
      exact absurd hstart (hs rfl)
    · simp only [List.length_cons, Nat.add_lt_add_iff_right]
      exact ih (continued_iff_suffix.mpr ⟨rest, hrest, hstart⟩) hrest

theorem joinLines_eq_self_iff {word : String} :
    joinLines word = word ↔ ¬ Continued word.toList := by
  refine ⟨fun heq hc => ?_, joinLines_of_not_continued⟩
  have hlt : (joinLinesFrom false word.toList).length < word.toList.length :=
    length_joinLinesFrom_lt hc
  have hlist := congrArg String.toList heq
  rw [joinLines, String.toList_ofList] at hlist
  rw [hlist] at hlt
  exact absurd hlt (lt_irrefl _)

theorem continued_joinLines_iff {word : String} :
    Continued (joinLines word).toList ↔ HidesLineEnd word.toList := by
  rw [joinLines, String.toList_ofList, continued_joinLinesFrom_iff]

/-- Of two backslashes and two line ends, the inner ones are removed and the outer ones meet. -/
theorem joined_words_still_continued :
    Continued (joinLines "\\\\\n\n").toList ∧
      joinLines (joinLines "\\\\\n\n") ≠ joinLines "\\\\\n\n" := by
  decide

end Text

/-! ## Statements -/

theorem Arguments.words_operands {a : Arguments} (h : a.operands.isArray = false) :
    a.operands.words = a.written.map Text.joinLines := by
  cases a with
  | words ws => rfl
  | wordsOrArray ws =>
    rw [operands] at h ⊢
    cases hr : Json.readStrings (String.intercalate " " ws) with
    | ok strings =>
      rw [hr] at h
      cases h
    | error fault => rfl
  | assignment key value => rfl
  | labels keys values => rfl

theorem Arguments.joinOnce_iff {a : Arguments} :
    a.JoinOnce ↔ ∀ w ∈ a.written, ¬ Text.HidesLineEnd w.toList :=
  forall₂_congr fun _ _ => not_congr Text.continued_joinLines_iff

namespace Statement

/-- A word whose line continuations are removed has one left if it hides a line end, and only then
would removing them again change it. The words of a statement that is no array of strings have none
left if no word that it is written with hides a line end. -/
theorem joined_words_continue_iff (word : String) :
    (Text.Continued (Text.joinLines word).toList ↔ Text.HidesLineEnd word.toList) ∧
    (Text.joinLines (Text.joinLines word) = Text.joinLines word ↔
      ¬ Text.HidesLineEnd word.toList) ∧
    ∀ (t : Statement) (i : Invocation), t.invocation = .ok i → i.operands.isArray = false →
      ((∀ w ∈ i.words, ¬ Text.Continued w.toList) ↔
        ∀ w ∈ t.arguments.written, ¬ Text.HidesLineEnd w.toList) := by
  refine ⟨Text.continued_joinLines_iff, ?_, fun t i hi harray => ?_⟩
  · rw [Text.joinLines_eq_self_iff, Text.continued_joinLines_iff]
  · cases eq_of_invocation hi
    rw [Invocation.words, Arguments.words_operands harray, List.forall_mem_map]
    exact Arguments.joinOnce_iff

/-- A word with two continuations and one that is left with a third. -/
theorem joined_words_continue_iff_run :
    let t := ofWords .run ["make \\\n\t\\\r\n-j", "a\\\r\\\n\n"]
    let i : Invocation := ⟨.run, t.text, { words := ["make -j", "a\\\r\n"] }⟩
    t.invocation = .ok i ∧ i.operands.isArray = false ∧
      ¬ Text.HidesLineEnd "make \\\n\t\\\r\n-j".toList ∧
      Text.HidesLineEnd "a\\\r\\\n\n".toList ∧
      ¬ ∀ w ∈ t.arguments.written, ¬ Text.HidesLineEnd w.toList := by
  intro t i
  have hi : t.invocation = .ok i := by rfl
  obtain ⟨hplain, -, hwords⟩ := joined_words_continue_iff "make \\\n\t\\\r\n-j"
  obtain ⟨hhidden, -, -⟩ := joined_words_continue_iff "a\\\r\\\n\n"
  refine ⟨hi, rfl, ?_, ?_, fun h => ?_⟩
  · rw [← hplain]
    decide
  · rw [← hhidden]
    decide
  · have hfree := (hwords t i hi rfl).mpr h
    exact absurd hfree (by decide)

end Statement
end Buildfile
