import Buildfile.Expansion
import Buildfile.Text.Substitution
import Mathlib.Data.Nat.Init
import Mathlib.Logic.ExistsUnique

/-! # What expansion does to backslashes

A text is cut into its runs of backslashes, each as long as possible. Doubling the escapes of
markers, substituting and dropping those escapes again each change nothing but the lengths of the
runs, and each length depends only on the run and the character after it. Expansion does all three
in turn.
-/

namespace Buildfile
namespace Text

/-- The runs of backslashes in a text: each run, which may be empty, with the character that ends
it, and the run at the end of the text. -/
structure BackslashRuns where
  ended : List (Nat × Char)
  last : Nat
  maximal : ∀ run ∈ ended, run.2 ≠ '\\' := by simp

namespace BackslashRuns

def backslashes (k : Nat) : List Char := List.replicate k '\\'

def spelled (ended : List (Nat × Char)) (last : Nat) : List Char :=
  ended.flatMap (fun run => backslashes run.1 ++ [run.2]) ++ backslashes last

def text (x : BackslashRuns) : List Char := spelled x.ended x.last

/-- Gives each run the length that a rule finds for it, from the character that ends it, if there is
one, and the length so far. -/
def resize (length : Option Char → Nat → Nat) (x : BackslashRuns) : BackslashRuns where
  ended := x.ended.map fun run => (length (some run.2) run.1, run.2)
  last := length none x.last
  maximal := by
    intro run hrun
    obtain ⟨earlier, hearlier, rfl⟩ := List.mem_map.mp hrun
    exact x.maximal earlier hearlier

theorem resize_resize (f g : Option Char → Nat → Nat) (x : BackslashRuns) :
    (x.resize f).resize g = x.resize fun next k => g next (f next k) := by
  simp [resize]

@[simp] theorem spelled_nil (last : Nat) : spelled [] last = backslashes last := rfl

@[simp] theorem spelled_cons (k : Nat) (c : Char) (ended : List (Nat × Char)) (last : Nat) :
    spelled ((k, c) :: ended) last = backslashes k ++ c :: spelled ended last := by
  simp [spelled]

theorem resize_congr {f g : Option Char → Nat → Nat} {x : BackslashRuns}
    (hended : ∀ run ∈ x.ended, f (some run.2) run.1 = g (some run.2) run.1)
    (hlast : f none x.last = g none x.last) : x.resize f = x.resize g := by
  have hmap : x.ended.map (fun run => (f (some run.2) run.1, run.2)) =
      x.ended.map fun run => (g (some run.2) run.1, run.2) :=
    List.map_congr_left fun run hrun => by rw [hended run hrun]
  simp only [resize, hmap, hlast]

theorem resize_self (x : BackslashRuns) : (x.resize fun _ k => k) = x := by
  simp [resize]

theorem backslashes_succ (k : Nat) : backslashes (k + 1) = '\\' :: backslashes k := rfl

theorem filter_text (x : BackslashRuns) :
    x.text.filter (· ≠ '\\') = x.ended.map (·.2) := by
  obtain ⟨ended, last, hmax⟩ := x
  simp only [text]
  induction ended with
  | nil => simp [backslashes]
  | cons run ended ih =>
    have hc : run.2 ≠ '\\' := hmax run List.mem_cons_self
    have hrest := ih fun r h => hmax r (List.mem_cons_of_mem _ h)
    rw [spelled_cons, List.filter_append, List.filter_cons_of_pos (by simp [hc]), hrest]
    simp [backslashes]

theorem filter_resize_text (f : Option Char → Nat → Nat) (x : BackslashRuns) :
    (x.resize f).text.filter (· ≠ '\\') = x.text.filter (· ≠ '\\') := by
  rw [filter_text, filter_text, resize, List.map_map]
  rfl

theorem resize_zero_text (x : BackslashRuns) :
    (x.resize fun _ _ => 0).text = x.text.filter (· ≠ '\\') := by
  have hended : (x.resize fun _ _ => 0).text = x.ended.map (·.2) := by
    simp [text, resize, spelled, backslashes, List.flatMap_map, ← List.map_eq_flatMap]
  rw [hended, filter_text]

/-! ## Each text has its runs -/

theorem backslashes_append_inj {k l : Nat} {c d : Char} {rest tail : List Char} (hc : c ≠ '\\')
    (hd : d ≠ '\\') (h : backslashes k ++ c :: rest = backslashes l ++ d :: tail) :
    k = l ∧ c = d ∧ rest = tail := by
  induction k generalizing l with
  | zero =>
    cases l with
    | zero =>
      obtain ⟨rfl, rfl⟩ := List.cons.inj h
      exact ⟨rfl, rfl, rfl⟩
    | succ l => exact absurd (List.cons.inj h).1 hc
  | succ k ih =>
    cases l with
    | zero => exact absurd (List.cons.inj h).1.symm hd
    | succ l =>
      obtain ⟨rfl, heq⟩ := ih (List.cons.inj h).2
      exact ⟨rfl, heq⟩

theorem backslashes_ne_append {k l : Nat} {c : Char} {rest : List Char} (hc : c ≠ '\\') :
    backslashes k ≠ backslashes l ++ c :: rest := by
  intro h
  have hm : c ∈ backslashes k := h ▸ by simp
  exact hc (List.eq_of_mem_replicate hm)

theorem spelled_inj {ended others : List (Nat × Char)} {last other : Nat}
    (hl : ∀ run ∈ ended, run.2 ≠ '\\') (hr : ∀ run ∈ others, run.2 ≠ '\\')
    (h : spelled ended last = spelled others other) : ended = others ∧ last = other := by
  induction ended generalizing others with
  | nil =>
    cases others with
    | nil =>
      have hlen := congrArg List.length h
      simp only [spelled_nil, backslashes, List.length_replicate] at hlen
      exact ⟨rfl, hlen⟩
    | cons run others =>
      rw [spelled_nil, spelled_cons] at h
      exact absurd h (backslashes_ne_append (hr run List.mem_cons_self))
  | cons run ended ih =>
    cases others with
    | nil =>
      rw [spelled_nil, spelled_cons] at h
      exact absurd h.symm (backslashes_ne_append (hl run List.mem_cons_self))
    | cons run' others =>
      rw [spelled_cons, spelled_cons] at h
      obtain ⟨hk, hc, hrest⟩ :=
        backslashes_append_inj (hl run List.mem_cons_self) (hr run' List.mem_cons_self) h
      obtain ⟨rfl, rfl⟩ := ih (fun x hx => hl x (List.mem_cons_of_mem _ hx))
        (fun x hx => hr x (List.mem_cons_of_mem _ hx)) hrest
      exact ⟨by rw [Prod.ext hk hc], rfl⟩

theorem exists_text_eq (text : List Char) : ∃ x : BackslashRuns, x.text = text := by
  induction text with
  | nil => exact ⟨⟨[], 0, by simp⟩, rfl⟩
  | cons c rest ih =>
    obtain ⟨⟨ended, last, hmax⟩, rfl⟩ := ih
    by_cases hc : c = '\\'
    · subst hc
      cases ended with
      | nil => exact ⟨⟨[], last + 1, by simp⟩, rfl⟩
      | cons run ended => exact ⟨⟨(run.1 + 1, run.2) :: ended, last, by simpa using hmax⟩, rfl⟩
    · refine ⟨⟨(0, c) :: ended, last, ?_⟩, rfl⟩
      rintro run hrun
      rcases List.mem_cons.mp hrun with rfl | hrun
      · exact hc
      · exact hmax run hrun

/-- A text has exactly one list of runs. -/
theorem existsUnique_text_eq (text : List Char) : ∃! x : BackslashRuns, x.text = text := by
  obtain ⟨x, hx⟩ := exists_text_eq text
  refine ⟨x, hx, fun y hy => ?_⟩
  obtain ⟨he, hl⟩ := spelled_inj y.maximal x.maximal (hy.trans hx.symm)
  cases x
  cases y
  cases he
  cases hl
  rfl

/-! ## The three passes -/

/-- A pass over a text that changes the length of each run and nothing else, as a rule tells it, is
known from what it does to one run. -/
theorem pass_text {pass : List Char → List Char} {length : Option Char → Nat → Nat}
    (allowed : Char → Prop)
    (hrun : ∀ k c rest, c ≠ '\\' → allowed c → pass (backslashes k ++ c :: rest) =
      backslashes (length (some c) k) ++ c :: pass rest)
    (hlast : ∀ k, pass (backslashes k) = backslashes (length none k))
    (x : BackslashRuns) (hx : ∀ c ∈ x.text, allowed c) : pass x.text = (x.resize length).text := by
  obtain ⟨ended, last, hmax⟩ := x
  simp only [text, resize] at hx ⊢
  induction ended with
  | nil => exact hlast last
  | cons run ended ih =>
    obtain ⟨k, c⟩ := run
    rw [spelled_cons] at hx ⊢
    have hc : c ≠ '\\' := hmax (k, c) List.mem_cons_self
    rw [hrun k c _ hc (hx c (by simp)), List.map_cons, spelled_cons]
    rw [ih (fun run h => hmax run (List.mem_cons_of_mem _ h)) fun d hd => hx d (by simp [hd])]

/-- A run before a plus sign has its last backslash, if there is one, replaced by several. -/
def markerLength (several : Nat) (next : Option Char) (k : Nat) : Nat :=
  if next = some '+' ∧ 0 < k then k - 1 + several else k

theorem markerLength_succ_succ (several : Nat) (next : Option Char) (k : Nat) :
    markerLength several next (k + 1 + 1) = markerLength several next (k + 1) + 1 := by
  simp only [markerLength, Nat.zero_lt_succ, and_true]
  split <;> omega

/-- The two passes that rewrite escaped markers differ only in what takes the place of the
backslash before a plus sign. -/
theorem marker_pass_text {pass : List Char → List Char} {several : Nat} (hnil : pass [] = [])
    (hmarker : ∀ rest, pass ('\\' :: '+' :: rest) = backslashes several ++ '+' :: pass rest)
    (hcons : ∀ c rest, (c = '\\' → rest.head? ≠ some '+') → pass (c :: rest) = c :: pass rest)
    (x : BackslashRuns) : pass x.text = (x.resize (markerLength several)).text := by
  refine pass_text (fun _ => True) ?_ ?_ x fun _ _ => trivial
  · intro k c rest hc _
    induction k with
    | zero =>
      rw [show markerLength several (some c) 0 = 0 by simp [markerLength]]
      exact hcons c rest fun h => absurd h hc
    | succ k ih =>
      cases k with
      | zero =>
        by_cases hplus : c = '+'
        · subst hplus
          rw [show markerLength several (some '+') (0 + 1) = several by simp [markerLength]]
          exact hmarker rest
        · rw [show markerLength several (some c) (0 + 1) = 1 by simp [markerLength, hplus]]
          change pass ('\\' :: c :: rest) = '\\' :: c :: pass rest
          rw [hcons _ _ (by simp [hplus]), hcons _ _ fun h => absurd h hc]
      | succ k =>
        rw [markerLength_succ_succ, backslashes_succ, backslashes_succ (markerLength _ _ _),
          List.cons_append, List.cons_append, ← ih]
        exact hcons _ _ (by simp [backslashes_succ])
  · intro k
    rw [show markerLength several none k = k by simp [markerLength]]
    induction k with
    | zero => exact hnil
    | succ k ih =>
      have hhead : (backslashes k).head? ≠ some '+' := by
        cases k <;> simp [backslashes, List.replicate_succ]
      rw [backslashes_succ, hcons _ _ fun _ => hhead, ih]

theorem protectMarkers_text (x : BackslashRuns) :
    protectMarkers x.text = (x.resize (markerLength 2)).text := by
  refine marker_pass_text rfl (fun _ => rfl) (fun c rest h => ?_) x
  rw [protectMarkers]
  rintro tail hc rfl
  exact h hc rfl

theorem bareMarkers_text (x : BackslashRuns) :
    bareMarkers x.text = (x.resize (markerLength 0)).text := by
  refine marker_pass_text rfl (fun _ => rfl) (fun c rest h => ?_) x
  rw [bareMarkers]
  rintro tail hc rfl
  exact h hc rfl

/-- What a protected marker has gained is what it loses again. Runs that end before no marker, and
empty ones, keep their length both times. -/
theorem markerLength_markerLength (next : Option Char) (k : Nat) :
    markerLength 0 next (markerLength 2 next k) = k := by
  by_cases hrun : next = some '+' ∧ 0 < k
  · rw [markerLength, markerLength, if_pos hrun, if_pos ⟨hrun.1, by omega⟩]
    omega
  · rw [markerLength, markerLength, if_neg hrun, if_neg hrun]

theorem bareMarkers_protectMarkers (text : List Char) :
    bareMarkers (protectMarkers text) = text := by
  obtain ⟨x, rfl⟩ := exists_text_eq text
  have hsame : (x.resize (markerLength 2)).resize (markerLength 0) = x := by
    rw [resize_resize]
    simp only [markerLength_markerLength, resize_self]
  rw [protectMarkers_text, bareMarkers_text, hsame]

theorem substituteFrom_cons (vars : Variables) {c : Char} (rest : List Char) (hc : c ≠ '\\')
    (hd : c ≠ '$') : substituteFrom vars 0 (c :: rest) = c :: substituteFrom vars 0 rest := by
  rw [substituteFrom]
  · exact if_neg hd
  · exact fun h => absurd h hc
  · exact fun _ _ h => absurd h hc

/-- Of each run a substitution drops every other backslash, from the first on. An odd one at the end
keeps the character after it as it is. -/
theorem substituteFrom_text (vars : Variables) (x : BackslashRuns) (h : '$' ∉ x.text) :
    substituteFrom vars 0 x.text = (x.resize fun _ k => k / 2).text := by
  refine pass_text (· ≠ '$') ?_ ?_ x fun c hc hd => h (hd ▸ hc)
  · intro k c rest hc hd
    induction k using Nat.twoStepInduction with
    | zero => exact substituteFrom_cons vars rest hc hd
    | one => rfl
    | more k ih _ =>
      rw [Nat.add_div_right k Nat.two_pos, backslashes_succ (k / 2), List.cons_append, ← ih]
      rfl
  · intro k
    induction k using Nat.twoStepInduction with
    | zero => rfl
    | one => rfl
    | more k ih _ =>
      rw [Nat.add_div_right k Nat.two_pos, backslashes_succ (k / 2), ← ih]
      rfl

end BackslashRuns
end Text

namespace Expansion
open Text BackslashRuns

/-- The length of a run of backslashes after the expansion of its word. Before a marker half of the
run is left, rounded up, and one less in literal words. Any other run loses half of it, rounded
up. -/
def runLength (mode : Expansion) (next : Option Char) (k : Nat) : Nat :=
  match mode with
  | reference => if next = some '+' then (k + 1) / 2 else k / 2
  | literal => if next = some '+' then (k + 1) / 2 - 1 else k / 2

theorem reference_runLength (next : Option Char) (k : Nat) :
    markerLength 2 next k / 2 = reference.runLength next k := by
  by_cases hnext : next = some '+'
  · cases k with
    | zero => simp [markerLength, runLength, hnext]
    | succ k =>
      simp only [markerLength, runLength, hnext, Nat.zero_lt_succ, and_self, if_true]
      rfl
  · simp [markerLength, runLength, hnext]

theorem literal_runLength (next : Option Char) (k : Nat) :
    markerLength 0 next (markerLength 2 next k / 2) = literal.runLength next k := by
  rw [reference_runLength]
  by_cases hnext : next = some '+'
  · simp only [markerLength, runLength, hnext, true_and, if_true]
    split <;> omega
  · simp [markerLength, runLength, hnext]

/-- Every backslash is a single one directly before a plus sign. -/
def OnlyEscapesMarkers (text : List Char) : Prop :=
  ∀ l r, text = l ++ '\\' :: r → r.head? = some '+'

theorem onlyEscapesMarkers_nil : OnlyEscapesMarkers [] := by
  simp [OnlyEscapesMarkers]

theorem onlyEscapesMarkers_cons_iff {c : Char} {rest : List Char} :
    OnlyEscapesMarkers (c :: rest) ↔
      (c = '\\' → rest.head? = some '+') ∧ OnlyEscapesMarkers rest := by
  constructor
  · intro h
    refine ⟨fun hc => h [] rest (hc ▸ rfl), fun l r hsplit => ?_⟩
    exact h (c :: l) r (by rw [hsplit, List.cons_append])
  · rintro ⟨hc, hrest⟩ l r hsplit
    cases l with
    | nil =>
      obtain ⟨rfl, rfl⟩ := List.cons.inj hsplit
      exact hc rfl
    | cons d l => exact hrest l r (List.cons.inj hsplit).2

instance decidableOnlyEscapesMarkers : DecidablePred OnlyEscapesMarkers
  | [] => isTrue onlyEscapesMarkers_nil
  | _ :: rest =>
    have : Decidable (OnlyEscapesMarkers rest) := decidableOnlyEscapesMarkers rest
    decidable_of_iff _ onlyEscapesMarkers_cons_iff.symm

theorem runs_of_onlyEscapesMarkers {x : BackslashRuns} (h : OnlyEscapesMarkers x.text) :
    (∀ run ∈ x.ended, run.1 = 0 ∨ run = (1, '+')) ∧ x.last = 0 := by
  obtain ⟨ended, last, hmax⟩ := x
  rw [text] at h
  dsimp only at h ⊢
  clear hmax
  induction ended with
  | nil =>
    refine ⟨by simp, ?_⟩
    cases last with
    | zero => rfl
    | succ k =>
      have hhead := h [] (backslashes k) rfl
      cases k <;> simp [backslashes, List.replicate_succ] at hhead
  | cons run ended ih =>
    obtain ⟨k, c⟩ := run
    rw [spelled_cons] at h
    obtain ⟨hended, hlast⟩ := ih fun l r hsplit =>
      h (backslashes k ++ c :: l) r (by rw [hsplit, List.append_assoc, List.cons_append])
    refine ⟨?_, hlast⟩
    rintro run hrun
    rcases List.mem_cons.mp hrun with rfl | hrun
    · cases k with
      | zero => exact .inl rfl
      | succ k =>
        have hhead := h [] (backslashes k ++ c :: spelled ended last) rfl
        cases k with
        | zero =>
          obtain rfl : c = '+' := Option.some.inj hhead
          exact .inr rfl
        | succ k => simp [backslashes, List.replicate_succ] at hhead
    · exact hended run hrun

/-- On such a text two rules do the same if they agree on empty runs and on single backslashes
before a marker. -/
theorem resize_of_onlyEscapesMarkers {x : BackslashRuns} (h : OnlyEscapesMarkers x.text)
    {f g : Option Char → Nat → Nat} (hempty : ∀ next, f next 0 = g next 0)
    (hsingle : f (some '+') 1 = g (some '+') 1) : x.resize f = x.resize g := by
  obtain ⟨hended, hlast⟩ := runs_of_onlyEscapesMarkers h
  refine resize_congr (fun run hrun => ?_) (by rw [hlast, hempty])
  rcases hended run hrun with hk | rfl
  · rw [hk, hempty]
  · exact hsingle

theorem toList_expand_eq (mode : Expansion) (vars : Variables) {word : String}
    (h : '$' ∉ word.toList) {x : BackslashRuns} (hx : x.text = word.toList) :
    (mode.expand (substitute vars) word).toList = (x.resize mode.runLength).text := by
  have hdollar : '$' ∉ (x.resize (markerLength 2)).text := by
    intro hm
    have hfilter : '$' ∈ (x.resize (markerLength 2)).text.filter (· ≠ '\\') :=
      List.mem_filter.mpr ⟨hm, rfl⟩
    rw [filter_resize_text, hx] at hfilter
    exact h (List.mem_filter.mp hfilter).1
  have hexpanded : (substitute vars (protect word)).toList =
      (x.resize fun next k => markerLength 2 next k / 2).text := by
    rw [substitute, protect, String.toList_ofList, String.toList_ofList, ← hx, protectMarkers_text,
      substituteFrom_text vars _ hdollar, resize_resize]
  cases mode with
  | reference =>
    rw [expand, hexpanded]
    exact congrArg text <|
      resize_congr (fun _ _ => reference_runLength _ _) (reference_runLength _ _)
  | literal =>
    rw [expand, bare, String.toList_ofList, hexpanded, bareMarkers_text, resize_resize]
    exact congrArg text <|
      resize_congr (fun _ _ => literal_runLength _ _) (literal_runLength _ _)

/-- In a word without variables, expansion changes nothing but the lengths of the runs of
backslashes, of which the word has exactly one list. A word whose only backslashes escape markers
one by one is its own expansion as a reference. As a literal word it loses these backslashes, so
that each escaped marker becomes a plain plus sign. -/
theorem expansion_resizes_runs (vars : Variables) (word : String) (h : '$' ∉ word.toList) :
    (∃! x : BackslashRuns, x.text = word.toList) ∧
    (∀ x : BackslashRuns, x.text = word.toList → ∀ mode : Expansion,
      (mode.expand (substitute vars) word).toList = (x.resize mode.runLength).text) ∧
    (OnlyEscapesMarkers word.toList →
      reference.expand (substitute vars) word = word ∧
      literal.expand (substitute vars) word = bare word ∧
      (bare word).toList = word.toList.filter (· ≠ '\\')) := by
  refine ⟨existsUnique_text_eq _, fun x hx mode => toList_expand_eq mode vars h hx, fun hw => ?_⟩
  obtain ⟨x, hx⟩ := exists_text_eq word.toList
  rw [← hx] at hw
  have hreference : x.resize reference.runLength = x.resize fun _ k => k :=
    resize_of_onlyEscapesMarkers hw (fun next => by simp [runLength]) rfl
  have hliteral : x.resize literal.runLength = x.resize fun _ _ => 0 :=
    resize_of_onlyEscapesMarkers hw (fun next => by simp [runLength]) rfl
  have hbare : x.resize (markerLength 0) = x.resize fun _ _ => 0 :=
    resize_of_onlyEscapesMarkers hw (fun next => by simp [markerLength]) rfl
  have hplain : (bare word).toList = word.toList.filter (· ≠ '\\') := by
    rw [bare, String.toList_ofList, ← hx, bareMarkers_text, hbare, resize_zero_text]
  refine ⟨String.toList_inj.mp ?_, String.toList_inj.mp ?_, hplain⟩
  · rw [toList_expand_eq reference vars h hx, hreference, resize_self, hx]
  · rw [toList_expand_eq literal vars h hx, hliteral, resize_zero_text, hx, hplain]

/-- Runs of three backslashes before a marker, of one before another character and of two at the
end, and a word with two escaped markers. -/
theorem expansion_resizes_runs_mixed :
    let vars : Variables := fun _ => none
    let word := "a\\\\\\+b\\c\\\\"
    let x : BackslashRuns := ⟨[(0, 'a'), (3, '+'), (0, 'b'), (1, 'c')], 2, by simp⟩
    let path := "./c\\+\\+/main.cc"
    '$' ∉ word.toList ∧ x.text = word.toList ∧ '$' ∉ path.toList ∧
      reference.expand (substitute vars) word = "a\\\\+bc\\" ∧
      literal.expand (substitute vars) word = "a\\+bc\\" ∧
      OnlyEscapesMarkers path.toList ∧
      reference.expand (substitute vars) path = path ∧
      (literal.expand (substitute vars) path).toList = "./c++/main.cc".toList := by
  intro vars word x path
  have hword : '$' ∉ word.toList := by decide
  have hx : x.text = word.toList := by decide
  have hpath : '$' ∉ path.toList := by decide
  have honly : OnlyEscapesMarkers path.toList := by decide
  obtain ⟨-, hruns, -⟩ := expansion_resizes_runs vars word hword
  obtain ⟨-, -, hsame⟩ := expansion_resizes_runs vars path hpath
  obtain ⟨hreference, hliteral, hplain⟩ := hsame honly
  refine ⟨hword, hx, hpath, String.toList_inj.mp ?_, String.toList_inj.mp ?_, honly, hreference, ?_⟩
  · rw [hruns x hx]
    decide
  · rw [hruns x hx]
    decide
  · rw [hliteral, hplain]
    decide

/-! ## Protected words -/

theorem bare_protect : Function.LeftInverse bare protect := by
  intro word
  apply String.toList_inj.mp
  rw [bare, protect, String.toList_ofList, String.toList_ofList, bareMarkers_protectMarkers]

/-- Dropping the escapes of a protected word gives the word back, whatever backslashes it has. So
no two words are protected alike, and a literal word expands to itself where the substitution leaves
its protected form as it is. -/
theorem protected_words_are_restored :
    (∀ word, bare (protect word) = word) ∧ Function.Injective protect ∧
    ∀ (substitute : String → String) (word : String), substitute (protect word) = protect word →
      literal.expand substitute word = word := by
  refine ⟨bare_protect, bare_protect.injective, fun substitute word h => ?_⟩
  rw [expand, h]
  exact bare_protect word

/-- Runs of one to three backslashes, each before a marker. -/
theorem protected_words_are_restored_runs :
    let word := "a\\\\+b\\+c+\\\\\\+\\d"
    (protect word).toList = "a\\\\\\+b\\\\+c+\\\\\\\\+\\d".toList ∧
      id (protect word) = protect word ∧ literal.expand id word = word := by
  intro word
  obtain ⟨-, -, hliteral⟩ := protected_words_are_restored
  exact ⟨by decide, rfl, hliteral id word rfl⟩

end Expansion
end Buildfile
