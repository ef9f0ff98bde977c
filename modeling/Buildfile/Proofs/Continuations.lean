import Buildfile.Proofs.CommandForms
import Buildfile.Proofs.Documents
import Mathlib.Data.List.Chain
import Mathlib.Data.List.Forall2
import Mathlib.Data.List.Infix

/-! # Line continuations

Words lose their line continuations before a statement is planned, so it makes no difference if they
have lost them before. Only an array of strings is read from its words as they are written. No JSON
text has a line continuation, so an array that is broken by one is read as words for a shell.
-/

namespace Buildfile

namespace Text

/-- A backslash stands before a line end. -/
def Continued (text : List Char) : Prop := ['\\', '\n'] <:+: text ∨ ['\\', '\r', '\n'] <:+: text

instance (text : List Char) : Decidable (Continued text) :=
  inferInstanceAs (Decidable (['\\', '\n'] <:+: text ∨ ['\\', '\r', '\n'] <:+: text))

variable {text part : List Char}

theorem Continued.of_infix (h : Continued part) (hp : part <:+: text) : Continued text :=
  h.imp (·.trans hp) (·.trans hp)

theorem joinLinesFrom_of_not_continued (h : ¬ Continued text) :
    joinLinesFrom false text = text := by
  induction text with
  | nil => rfl
  | cons c rest ih =>
    have hrest : ¬ Continued rest := fun hc => h (hc.of_infix (List.suffix_cons c rest).isInfix)
    rw [joinLinesFrom, ih hrest]
    · rfl
    · rintro more rfl rfl
      exact h (.inl ⟨[], more, rfl⟩)
    · rintro more rfl rfl
      exact h (.inr ⟨[], more, rfl⟩)

theorem joinLines_of_not_continued {word : String} (h : ¬ Continued word.toList) :
    joinLines word = word := by
  rw [joinLines, joinLinesFrom_of_not_continued h, String.ofList_toList]

theorem infix_of_mem {words : List String} {word : String} (h : word ∈ words) :
    word.toList <:+: (String.intercalate " " words).toList := by
  rw [String.toList_intercalate]
  induction words with
  | nil => cases h
  | cons first rest ih =>
    cases rest with
    | nil =>
      rw [List.mem_singleton.mp h]
      simp
    | cons second rest =>
      rw [List.map_cons, List.map_cons, List.intercalate_cons_cons]
      rcases List.mem_cons.mp h with rfl | hmem
      · rw [List.append_assoc]
        exact (List.prefix_append _ _).isInfix
      · exact (ih hmem).trans (List.suffix_append _ _).isInfix

end Text

/-! ## Arrays have no line continuation -/

namespace Json

/-- Each backslash stands before a character that ends no line. -/
structure Unbroken (text : List Char) : Prop where
  chain : text.IsChain fun c d => c = '\\' → d ≠ '\n' ∧ d ≠ '\r'
  last : text.getLast? ≠ some '\\'

variable {text more piece cs : List Char} {c : Char}

theorem Unbroken.append (h : Unbroken text) (hm : Unbroken more) : Unbroken (text ++ more) where
  chain := List.isChain_append.mpr ⟨h.chain, hm.chain, fun c hc _ _ heq =>
    absurd (heq ▸ hc) h.last⟩
  last := by
    rw [List.getLast?_append]
    cases hl : more.getLast? with
    | none => simpa using h.last
    | some d => simpa [hl] using hm.last

theorem Unbroken.not_continued (h : Unbroken text) : ¬ Text.Continued text := by
  rintro (hc | hc)
  · have hpair := h.chain.infix hc
    simp at hpair
  · have hpair := h.chain.infix hc
    simp at hpair

theorem unbroken_of_notMem (h : '\\' ∉ text) : Unbroken text where
  chain := List.isChain_iff_getElem.mpr fun _ _ hc => absurd (hc ▸ List.getElem_mem _) h
  last := fun hl => h (List.mem_of_getLast? hl)

theorem HexDigit.not_control {d : Char} {n : Nat} (h : HexDigit d n) : isControl d = false := by
  have hall : ∀ n < 16, isControl n.digitChar = false ∧
      isControl n.digitChar.toUpper = false := by decide
  obtain ⟨hn, rfl | rfl⟩ := h
  · exact (hall n hn).1
  · exact (hall n hn).2

theorem NamesUnit.not_control {digits : List Char} {unit : Nat} (h : NamesUnit digits unit) :
    ∀ d ∈ '\\' :: 'u' :: digits, isControl d = false := by
  have hslash : isControl '\\' = false := by decide
  have hu : isControl 'u' = false := by decide
  obtain ⟨ha, hb, hc, hd⟩ := h
  simp [hslash, hu, ha.not_control, hb.not_control, hc.not_control, hd.not_control]

/-- Line ends are control characters, which have to be escaped. -/
theorem Spelling.not_control (h : Spelling c piece) : ∀ d ∈ piece, isControl d = false := by
  cases h with
  | plain hquote hslash hcontrol => simpa [isControl] using hcontrol
  | escape h =>
    have hslash : isControl '\\' = false := by decide
    have hall : ∀ e ∈ shortEscapes, isControl e.1 = false := by decide
    simpa [hslash] using hall _ h
  | unit h => exact h.not_control
  | pair hd hm hhigh hlow hc =>
    intro d hmem
    exact (List.mem_append.mp hmem).elim (hd.not_control d) (hm.not_control d)

theorem Spells.not_control (h : Spells cs text) : ∀ d ∈ text, isControl d = false := by
  induction h with
  | nil => simp
  | cons hc hcs ih =>
    intro d hd
    exact (List.mem_append.mp hd).elim (hc.not_control d) (ih d)

/-- Inside a string nothing ends a line, and its last character is its closing quote. -/
theorem Quoted.unbroken {x : String} (h : Quoted x text) : Unbroken text := by
  obtain ⟨hbody⟩ := h
  rename_i body
  have hquote : isControl '"' = false := by decide
  have hall : ∀ d ∈ '"' :: body ++ ['"'], isControl d = false := by
    simpa [hquote, or_imp, forall_and] using hbody.not_control
  refine ⟨List.isChain_iff_getElem.mpr fun k hk _ => ?_, by rw [List.getLast?_concat]; decide⟩
  have hnext := hall _ (List.getElem_mem hk)
  constructor
  · intro heq
    rw [heq] at hnext
    exact absurd hnext (by decide)
  · intro heq
    rw [heq] at hnext
    exact absurd hnext (by decide)

theorem Blanks.unbroken (h : Blanks text) : Unbroken text :=
  unbroken_of_notMem fun hm => absurd (h _ hm) (by decide)

theorem Elements.unbroken {first : Bool} {xs : List String} (h : Elements first xs text) :
    Unbroken text := by
  have hcomma : Unbroken [','] := unbroken_of_notMem (by decide)
  induction h with
  | nil hblanks => exact hblanks.unbroken
  | cons hs hx hxs ih =>
    refine (Unbroken.append ?_ hx.unbroken).append ih
    cases hs with
    | first hblanks => exact hblanks.unbroken
    | comma hbefore hafter => exact hbefore.unbroken.append (hcomma.append hafter.unbroken)

theorem StringArray.not_continued {strings : List String} (h : StringArray strings text) :
    ¬ Text.Continued text := by
  have hopen : Unbroken ['['] := unbroken_of_notMem (by decide)
  have hclose : Unbroken [']'] := unbroken_of_notMem (by decide)
  obtain ⟨hbefore, hinner, hafter⟩ := h
  have hfront := hbefore.unbroken.append (hopen.append hinner.unbroken)
  exact (hfront.append (hclose.append hafter.unbroken)).not_continued

end Json

/-! ## Joined words -/

namespace Arguments

def written : Arguments → List String
  | words ws | wordsOrArray ws => ws
  | _ => []

def joinLines : Arguments → Arguments
  | words ws => words (ws.map Text.joinLines)
  | wordsOrArray ws => wordsOrArray (ws.map Text.joinLines)
  | a => a

/-- No word has a line continuation once its own are removed. -/
def JoinOnce (a : Arguments) : Prop :=
  ∀ w ∈ a.written, ¬ Text.Continued (Text.joinLines w).toList

instance (a : Arguments) : Decidable a.JoinOnce :=
  inferInstanceAs (Decidable (∀ w ∈ a.written, ¬ Text.Continued (Text.joinLines w).toList))

/-- The words would be an array of strings, if a line continuation did not break it. -/
def BrokenArray (a : Arguments) : Prop :=
  ∃ ws strings, a = wordsOrArray ws ∧ ws.map Text.joinLines ≠ ws ∧
    Json.StringArray strings (String.intercalate " " (ws.map Text.joinLines)).toList

variable {a : Arguments} {ws : List String}

theorem map_joinLines_of_not_continued (h : ∀ w ∈ ws, ¬ Text.Continued w.toList) :
    ws.map Text.joinLines = ws :=
  (List.map_congr_left fun w hw => Text.joinLines_of_not_continued (h w hw)).trans (List.map_id ws)

theorem map_joinLines_map_joinLines (h : ∀ w ∈ ws, ¬ Text.Continued (Text.joinLines w).toList) :
    (ws.map Text.joinLines).map Text.joinLines = ws.map Text.joinLines :=
  map_joinLines_of_not_continued (List.forall_mem_map.mpr h)

theorem map_joinLines_of_array {strings : List String}
    (h : Json.StringArray strings (String.intercalate " " ws).toList) :
    ws.map Text.joinLines = ws :=
  map_joinLines_of_not_continued fun _ hw hc =>
    h.not_continued (hc.of_infix (Text.infix_of_mem hw))

theorem operands_of_brokenArray (h : a.BrokenArray) :
    a.operands = { words := a.written.map Text.joinLines } := by
  obtain ⟨ws, strings, rfl, hne, -⟩ := h
  exact operands_of_no_array fun _ harray => hne (map_joinLines_of_array harray)

/-- Only in a broken array do the line continuations of words matter. -/
theorem operands_joinLines_eq_iff (h : a.JoinOnce) :
    a.joinLines.operands = a.operands ↔ ¬ a.BrokenArray := by
  constructor
  · intro heq hb
    have hplain := operands_of_brokenArray hb
    obtain ⟨ws, strings, rfl, -, harray⟩ := hb
    have hjoined : (joinLines (wordsOrArray ws)).operands = _ := operands_of_array harray
    rw [hjoined, hplain] at heq
    cases heq
  · intro hb
    cases a with
    | words ws =>
      have hwords : ∀ w ∈ ws, ¬ Text.Continued (Text.joinLines w).toList := h
      rw [joinLines, operands, operands, map_joinLines_map_joinLines hwords]
    | wordsOrArray ws =>
      have hwords : ∀ w ∈ ws, ¬ Text.Continued (Text.joinLines w).toList := h
      rw [joinLines]
      by_cases hws : ws.map Text.joinLines = ws
      · rw [hws]
      have hjoined := operands_of_no_array fun strings harray => hb ⟨ws, strings, rfl, hws, harray⟩
      have hwritten := operands_of_no_array fun _ harray => hws (map_joinLines_of_array harray)
      rw [hjoined, hwritten, map_joinLines_map_joinLines hwords]
    | assignment key value => rfl
    | labels keys values => rfl

end Arguments

namespace Statement

def joinLines (t : Statement) : Statement := { t with arguments := t.arguments.joinLines }

/-- How a statement may be rewritten: not at all, or by removing the line continuations of its
words. An array that they break becomes plain words. -/
inductive Joined : Statement → Statement → Prop where
  | same (t : Statement) : Joined t t
  | words {t : Statement} (h : t.arguments.JoinOnce) (hb : ¬ t.arguments.BrokenArray) :
      Joined t t.joinLines
  | broken {t : Statement} (h : t.arguments.JoinOnce) (hb : t.arguments.BrokenArray) :
      Joined t { t with arguments := .words (t.arguments.written.map Text.joinLines) }

/-- Two statements are read alike: they have the same text and place and are applied the same. -/
structure Alike (t u : Statement) : Prop where
  text : u.text = t.text
  range : u.range = t.range
  invocation : u.invocation = t.invocation

theorem alike_of_operands {t : Statement} {a : Arguments} (hc : a.check = t.arguments.check)
    (ho : a.operands = t.arguments.operands) : Alike t { t with arguments := a } :=
  ⟨rfl, rfl, by simp only [invocation, hc, ho]⟩

theorem Joined.alike {t u : Statement} (h : Joined t u) : Alike t u := by
  cases h with
  | same => exact ⟨rfl, rfl, rfl⟩
  | words h hb =>
    have hcheck : t.arguments.joinLines.check = t.arguments.check := by
      cases t.arguments <;> rfl
    exact alike_of_operands hcheck ((Arguments.operands_joinLines_eq_iff h).mpr hb)
  | broken h hb =>
    refine alike_of_operands ?_ ?_
    · obtain ⟨ws, strings, hws, -⟩ := hb
      rw [hws]
      rfl
    · rw [Arguments.operands_of_brokenArray hb, Arguments.operands,
        Arguments.map_joinLines_map_joinLines h]

end Statement

/-! ## Documents -/

theorem foldl_eq_of_forall₂ {α β γ : Type} {R : β → γ → Prop} {f : α → β → α} {g : α → γ → α}
    {xs : List β} {ys : List γ} (h : List.Forall₂ R xs ys)
    (hf : ∀ a x y, R x y → g a y = f a x) (a : α) : ys.foldl g a = xs.foldl f a := by
  induction h generalizing a with
  | nil => rfl
  | cons hxy hrest ih => rw [List.foldl_cons, List.foldl_cons, hf _ _ _ hxy, ih]

namespace Document

/-- Two documents have the same headers at the same places, and their statements are related one by
one. -/
structure Rewrites (R : Statement → Statement → Prop) (d e : Document) : Prop where
  base : List.Forall₂ R d.base.statements e.base.statements
  recipes : List.Forall₂ (fun r q : Recipe => q.name = r.name ∧ q.range = r.range ∧
    List.Forall₂ R r.body.statements q.body.statements) d.recipes e.recipes

/-- Recipes that are appended with related statements are at the same place. -/
theorem Rewrites.withRecipe {R : Statement → Statement → Prop} {d e : Document}
    (h : d.Rewrites R e) {ts us : List Statement} (hts : List.Forall₂ R ts us)
    (hrange : ∀ t u, R t u → u.range = t.range) (name : String) :
    (d.withRecipe name ts).Rewrites R (e.withRecipe name us) := by
  have hplace : Body.range ⟨us⟩ = Body.range ⟨ts⟩ :=
    foldl_eq_of_forall₂ hts (fun covered t u htu => by rw [hrange t u htu]) _
  exact ⟨h.base, List.rel_append h.recipes (.cons ⟨rfl, hplace, hts⟩ .nil)⟩

end Document

namespace Session
variable {s : Session}

theorem read_eq_of_alike {t u : Statement} (h : t.Alike u) (σ : State) :
    s.read σ u = s.read σ t := by
  simp only [read, perform, h.text, h.range, h.invocation]

theorem readBody_eq_of_alike {b c : Body}
    (h : List.Forall₂ Statement.Alike b.statements c.statements) (σ : State) :
    s.readBody σ c = s.readBody σ b := by
  rw [readBody, readBody]
  refine congrArg (s.step · .exitBody) (foldl_eq_of_forall₂ h (fun σ t u htu => ?_) _)
  exact read_eq_of_alike htu σ

theorem readDocument_eq_of_alike {d e : Document} (h : d.Rewrites Statement.Alike e)
    (σ : State) : s.readDocument σ e = s.readDocument σ d := by
  have hrecipe (σ : State) (r q : Recipe) (hr : q.name = r.name ∧ q.range = r.range ∧
      List.Forall₂ Statement.Alike r.body.statements q.body.statements) :
      s.readRecipe σ q = s.readRecipe σ r := by
    rw [readRecipe, readRecipe, readBody_eq_of_alike hr.2.2, hr.1, hr.2.1]
  have hempty : e.base.isEmpty = d.base.isEmpty := by
    have hlength := h.base.length_eq
    rw [Body.isEmpty, Body.isEmpty, Bool.eq_iff_iff, List.isEmpty_iff_length_eq_zero,
      List.isEmpty_iff_length_eq_zero, hlength]
  rw [readDocument, readDocument, hempty, readBody_eq_of_alike h.base,
    foldl_eq_of_forall₂ h.recipes hrecipe]

/-- A file with the line continuations of some words removed leads to the same calls, the same
outcome and the same log. Only an array that they break is not read as the array that is left
without them, but as plain words. -/
theorem continuations_are_transparent (s : Session) (d e : Document)
    (h : d.Rewrites Statement.Joined e) :
    (s.interpret e).attempts = (s.interpret d).attempts ∧
      (s.interpret e).outcome = (s.interpret d).outcome ∧
        (s.interpret e).log = (s.interpret d).log := by
  have halike : d.Rewrites Statement.Alike e :=
    ⟨h.base.imp fun _ _ => Statement.Joined.alike,
      h.recipes.imp fun _ _ hr => ⟨hr.1, hr.2.1, hr.2.2.imp fun _ _ => Statement.Joined.alike⟩⟩
  have hclear : (s.interpret e).clear = (s.interpret d).clear := by
    rw [interpret, interpret, foldl_visit_document, foldl_visit_document,
      readDocument_eq_of_alike halike]
  have hattempts := congrArg State.attempts hclear
  have houtcome := congrArg State.outcome hclear
  have hlog := congrArg State.log hclear
  exact ⟨hattempts, houtcome, hlog⟩

/-- Words of a command in shell form are joined, and a broken array is left to the shell. -/
theorem continuations_are_transparent_shell :
    let s : Session := { builder := .scripted id none, settings := { target := "serve" } }
    let make := Statement.ofWords .run ["make \\\r\n\t-j", "all"]
    let serve := Statement.ofWords .cmd ["[\"a\",", "\\\n  \"b\"]"]
    let d := Document.withRecipe {} "serve" [make, serve]
    let e := Document.withRecipe {} "serve"
      [{ make with arguments := .wordsOrArray ["make -j", "all"] },
        { serve with arguments := .words ["[\"a\",", "\"b\"]"] }]
    d.Rewrites Statement.Joined e ∧ (s.interpret e).attempts = (s.interpret d).attempts ∧
      (s.interpret e).outcome = (s.interpret d).outcome := by
  intro s make serve d e
  have hplain : ¬ make.arguments.BrokenArray := by
    rintro ⟨ws, strings, hws, -, harray⟩
    cases hws
    have hread := Json.readStrings_eq_ok_iff.mpr harray
    have hfault : Json.readStrings (String.intercalate " "
        (["make \\\r\n\t-j", "all"].map Text.joinLines)) = .error .malformed := by decide +kernel
    rw [hfault] at hread
    cases hread
  have hbroken : serve.arguments.BrokenArray :=
    ⟨_, ["a", "b"], rfl, by decide +kernel, Json.readStrings_eq_ok_iff.mp (by decide +kernel)⟩
  have hmake : Statement.Joined make
      { make with arguments := .wordsOrArray ["make -j", "all"] } := by
    have hjoined : make.joinLines =
        { make with arguments := .wordsOrArray ["make -j", "all"] } := by decide +kernel
    exact hjoined ▸ .words (by decide +kernel) hplain
  have hserve : Statement.Joined serve
      { serve with arguments := .words ["[\"a\",", "\"b\"]"] } := by
    have hwords : serve.arguments.written.map Text.joinLines = ["[\"a\",", "\"b\"]"] := by
      decide +kernel
    exact hwords ▸ .broken (by decide +kernel) hbroken
  have h : d.Rewrites Statement.Joined e :=
    Document.Rewrites.withRecipe ⟨.nil, .nil⟩ (.cons hmake (.cons hserve .nil))
      (fun t u htu => htu.alike.range) "serve"
  obtain ⟨hattempts, houtcome, -⟩ := s.continuations_are_transparent d e h
  exact ⟨h, hattempts, houtcome⟩

/-- The command of a broken array goes to a shell. Without its line continuation it does not. -/
theorem broken_array_left_to_shell :
    let s : Session := { builder := .scripted id none }
    let serve := Statement.ofWords .cmd ["[\"a\",", "\\\n  \"b\"]"]
    serve.arguments.JoinOnce ∧
      (s.interpret { base := ⟨[serve]⟩ }).calls = [.cmd ["[\"a\",", "\"b\"]"] true] ∧
      (s.interpret { base := ⟨[serve.joinLines]⟩ }).calls = [.cmd ["a", "b"] false] := by
  decide +kernel

end Session
end Buildfile
