import Buildfile.Proofs.Outcomes
import Buildfile.Proofs.RequestedTarget

/-! # Keys of variables

A statement that defines a variable has its key checked as soon as it is read, and the key reaches
the builder as it was written. Only the value is expanded.
-/

namespace Buildfile

namespace Text

/-- The text is a name: ASCII letters, digits and underscores, of which the first is no digit. -/
structure IsName (text : String) : Prop where
  nonempty : text ≠ ""
  chars : ∀ c ∈ text.toList,
    ('a' ≤ c ∧ c ≤ 'z') ∨ ('A' ≤ c ∧ c ≤ 'Z') ∨ ('0' ≤ c ∧ c ≤ '9') ∨ c = '_'
  start : ∀ c, text.toList.head? = some c → ¬ ('0' ≤ c ∧ c ≤ '9')

theorem isAlpha_iff {c : Char} :
    c.isAlpha = true ↔ ('a' ≤ c ∧ c ≤ 'z') ∨ ('A' ≤ c ∧ c ≤ 'Z') := by
  have hranges : c.isAlpha =
      (decide ('A' ≤ c ∧ c ≤ 'Z') || (decide ('a' ≤ c) && decide (c ≤ 'z'))) := rfl
  rw [hranges]
  simp only [Bool.or_eq_true, Bool.and_eq_true, decide_eq_true_eq]
  exact or_comm

theorem isDigit_iff {c : Char} : c.isDigit = true ↔ '0' ≤ c ∧ c ≤ '9' := by
  have hrange : c.isDigit = (decide ('0' ≤ c) && decide (c ≤ '9')) := rfl
  rw [hrange, Bool.and_eq_true, decide_eq_true_eq, decide_eq_true_eq]

theorem isNameChar_iff {c : Char} :
    isNameChar c = true ↔
      ('a' ≤ c ∧ c ≤ 'z') ∨ ('A' ≤ c ∧ c ≤ 'Z') ∨ ('0' ≤ c ∧ c ≤ '9') ∨ c = '_' := by
  simp only [isNameChar, Char.isAlphanum, Bool.or_eq_true, decide_eq_true_eq, isAlpha_iff,
    isDigit_iff, or_assoc]

theorem isNameStart_iff {c : Char} :
    isNameStart c = true ↔ isNameChar c = true ∧ ¬ ('0' ≤ c ∧ c ≤ '9') := by
  have hA : 'A'.val.toNat = 65 := rfl
  have ha : 'a'.val.toNat = 97 := rfl
  have h9 : '9'.val.toNat = 57 := rfl
  have hletter : c.isAlpha = true → ¬ ('0' ≤ c ∧ c ≤ '9') := by
    simp only [isAlpha_iff, Char.le_def, UInt32.le_iff_toNat_le]
    omega
  have hunderscore : c = '_' → ¬ ('0' ≤ c ∧ c ≤ '9') := by
    rintro rfl
    decide
  simp only [isNameStart, isNameChar, Char.isAlphanum, Bool.or_eq_true, decide_eq_true_eq,
    isDigit_iff]
  tauto

theorem isIdentifier_iff {text : String} : isIdentifier text = true ↔ IsName text := by
  have hempty : text = "" ↔ text.toList = [] := String.toList_eq_nil_iff.symm
  unfold isIdentifier
  split
  · next hc =>
    refine iff_of_false Bool.false_ne_true fun h => h.nonempty (hempty.mpr hc)
  · next c rest hc =>
    rw [Bool.and_eq_true, isNameStart_iff, List.all_eq_true]
    constructor
    · rintro ⟨⟨hchar, hstart⟩, hrest⟩
      refine ⟨fun he => ?_, fun d hd => ?_, fun d hd => ?_⟩
      · rw [hempty.mp he] at hc
        cases hc
      · rw [hc] at hd
        rw [← isNameChar_iff]
        rcases List.mem_cons.mp hd with rfl | hd
        · exact hchar
        · exact hrest d hd
      · rw [hc, List.head?_cons] at hd
        obtain rfl := Option.some.inj hd
        exact hstart
    · intro h
      have hall : ∀ d ∈ c :: rest, isNameChar d = true := by
        rw [← hc]
        exact fun d hd => isNameChar_iff.mpr (h.chars d hd)
      obtain ⟨hchar, hrest⟩ := List.forall_mem_cons.mp hall
      have hhead : text.toList.head? = some c := by rw [hc, List.head?_cons]
      exact ⟨⟨hchar, h.start c hhead⟩, hrest⟩

end Text

theorem invocation_assignment {t : Statement} {key : String} {value : Option String}
    (ha : t.arguments = .assignment key value) :
    t.invocation =
      if Text.isIdentifier key then .ok ⟨t.keyword, t.text, { key, value := value.getD "" }⟩
      else .error (.key key) := by
  rw [Statement.invocation, ha, Arguments.check, checkKey]
  cases Text.isIdentifier key <;> rfl

theorem Keyword.eq_of_operation {k : Keyword} {operation : Operation}
    (ho : operation = .env ∨ operation = .arg) (h : operation ∈ k.operations) :
    k = .env ∨ k = .arg := by
  rcases ho with rfl | rfl
  · cases k <;> simp [operations] at h ⊢
  · cases k <;> simp [operations] at h ⊢

namespace Scope

/-- The call that defines a variable. The key is the one of the statement, and the value is
expanded: an argument may name a target, so the markers of its value stay escaped. -/
inductive Defines (sc : Scope) (key value : String) : Keyword → Call → Prop where
  | env : Defines sc key value .env (.env key (sc.literal value))
  | arg : Defines sc key value .arg (.arg key (sc.reference value) sc.inBase)

variable {sc : Scope} {key value : String} {k : Keyword}

theorem exists_defines (sc : Scope) (key value : String) (hk : k = .env ∨ k = .arg) :
    ∃ call, sc.Defines key value k call := by
  rcases hk with rfl | rfl
  · exact ⟨_, .env⟩
  · exact ⟨_, .arg⟩

theorem Defines.plan_eq {call : Call} (h : sc.Defines key value k call) (text : String) :
    sc.plan ⟨k, text, { key, value }⟩ =
      if sc.pushOnly then .error (.afterPush text)
      else .ok (sc.issue call.operation.name [call]) := by
  cases h with
  | env =>
    rw [plan, planEnv, allow]
    cases sc.pushOnly <;> rfl
  | arg =>
    rw [plan, planArg, allow]
    cases sc.pushOnly <;> rfl

end Scope

namespace Session
variable {s : Session}

theorem defines_of_mem {x : Transition} (h : s.Ends x) {a : Attempt} (ha : a ∈ x.attempts)
    (hop : a.call.operation = .env ∨ a.call.operation = .arg)
    (hshape : x.keyword = .env ∨ x.keyword = .arg →
      ∃ key value, x.statement.arguments = .assignment key value) :
    x.before.ignores = false ∧ ∃ key value, x.statement.arguments = .assignment key value ∧
      Text.IsName key ∧ x.attempts = [a] ∧
      (s.scope x.before).Defines key (value.getD "") x.keyword a.call := by
  obtain ⟨i, p, hread, hinv, hplan, hpre⟩ := h.planned ha
  have hmem : a.call ∈ p.calls := hpre.subset (List.mem_map_of_mem ha)
  have hk : x.keyword = .env ∨ x.keyword = .arg := by
    have hoperation := (Scope.planned_of_plan hplan).operations _ hmem
    rw [keyword_of_invocation hinv] at hoperation
    exact Keyword.eq_of_operation hop hoperation
  obtain ⟨key, value, hargs⟩ := hshape hk
  rw [invocation_assignment hargs] at hinv
  split at hinv
  · next hkey =>
    obtain rfl := Except.ok.inj hinv
    obtain ⟨call, hcall⟩ := (s.scope x.before).exists_defines key (value.getD "") hk
    have hdefined := (hcall.plan_eq x.statement.text).symm.trans hplan
    split at hdefined
    · cases hdefined
    · obtain rfl := Except.ok.inj hdefined
      obtain ⟨halone, rfl⟩ := eq_singleton_of_called hpre ha
      exact ⟨hread, key, value, hargs, Text.isIdentifier_iff.mp hkey, halone, hcall⟩
  · cases hinv

/-- The requested body lies in the base target only if that one was requested. -/
theorem inBase_of_mem {d : Document} {x : Transition} (hx : x ∈ s.requestedTransitions d)
    (hi : x.before.ignores = false) :
    (s.scope x.before).inBase = true ↔ s.settings.target = baseTarget := by
  obtain ⟨us, t, vs, -, rfl⟩ := exists_of_mem_transitions hx
  have hselection : (us.foldl s.read (s.step (s.start d.names) .enterBody)).selection =
      (s.start d.names).selection := by
    rw [selection_foldl_read, step_enterBody]
  have hrequested : (s.start d.names).selection.requested = s.settings.target :=
    requested_pass s s.initial _
  have hactive : (s.start d.names).selection.isActive = true := by
    rw [← hselection]
    exact ((State.ignores_eq_false_iff _).mp hi).2
  have hcurrent : (s.start d.names).selection.current = s.settings.target :=
    (beq_iff_eq.mp hactive).trans hrequested
  rw [transition, scope, hselection, Selection.inBase, hcurrent, beq_iff_eq]

/-- A key that is no name is refused before the mode of the body is looked at. -/
theorem refused_of_key {σ : State} (h : σ.ignores = false) {t : Statement} {key : String}
    {value : Option String} (ha : t.arguments = .assignment key value)
    (hkey : ¬ Text.IsName key) :
    Refused σ (t.events.foldl s.step σ) ∧
      (t.events.foldl s.step σ).problem =
        some (.value s!"invalid env key definition {key}") := by
  have hi : t.invocation = .error (.key key) := by
    rw [invocation_assignment ha, if_neg (mt Text.isIdentifier_iff.mp hkey)]
  have hperform : s.perform σ t = σ.fail (Refusal.key key).problem := by rw [perform, hi]
  rw [refused_events_iff h, foldl_step_statement h, hperform]
  exact ⟨refused_fail σ _, rfl⟩

/-- If all variables of the requested body have a key and a value, each of them is defined by one
call of its own statement, under the key that stands there and that is a name. Such a call defines
a global variable where the base target was requested. A statement whose key is no name is refused,
also after a push, and any other one that does not follow a push asks for its call. -/
theorem variables_keep_their_keys (s : Session) (d : Document)
    (h : ∀ t ∈ (d.selected s.settings.target).statements, t.keyword = .env ∨ t.keyword = .arg →
      ∃ key value, t.arguments = .assignment key value) :
    (∃ inherited, (∀ a ∈ inherited, a.call = .inheritance) ∧ (s.interpret d).attempts =
      inherited ++ (s.requestedTransitions d).flatMap (·.attempts)) ∧
    (∀ x ∈ s.requestedTransitions d, ∀ a ∈ x.attempts,
      a.call.operation = .env ∨ a.call.operation = .arg →
        ∃ key value, x.statement.arguments = .assignment key value ∧ Text.IsName key ∧
          x.attempts = [a] ∧ (s.scope x.before).Defines key (value.getD "") x.keyword a.call ∧
          ((s.scope x.before).inBase = true ↔ s.settings.target = baseTarget)) ∧
    ∀ (σ : State) (t : Statement) (key : String) (value : Option String), σ.ignores = false →
      t.keyword = .env ∨ t.keyword = .arg → t.arguments = .assignment key value →
        let τ := t.events.foldl s.step σ
        (¬ Text.IsName key → Refused σ τ ∧
          τ.problem = some (.value s!"invalid env key definition {key}")) ∧
        (Text.IsName key → σ.pushOnly = false →
          ∃ call, (s.scope σ).Defines key (value.getD "") t.keyword call ∧
            s.Asked σ τ call.operation.name call) := by
  refine ⟨⟨(s.start d.names).attempts, (fresh_start s d.names).attempts,
    s.attempts_interpret_eq d⟩, fun x hx a ha hop => ?_, fun σ t key value hσ hk hargs =>
    ⟨refused_of_key hσ hargs, fun hname hpush => ?_⟩⟩
  · obtain ⟨us, t, vs, hts, rfl⟩ := exists_of_mem_transitions hx
    have ht : t ∈ (d.selected s.settings.target).statements := by
      rw [hts]
      exact List.mem_append_right _ List.mem_cons_self
    obtain ⟨hread, key, value, hdefines⟩ := defines_of_mem (s.transition_ends _ t) ha hop (h t ht)
    obtain ⟨hargs, hname, halone, hcall⟩ := hdefines
    exact ⟨key, value, hargs, hname, halone, hcall, inBase_of_mem hx hread⟩
  · have hi : t.invocation = .ok ⟨t.keyword, t.text, { key, value := value.getD "" }⟩ := by
      rw [invocation_assignment hargs, if_pos (Text.isIdentifier_iff.mpr hname)]
    obtain ⟨call, hcall⟩ := (s.scope σ).exists_defines key (value.getD "") hk
    have hplan := hcall.plan_eq t.text
    have hfresh : ¬ (s.scope σ).pushOnly = true := Bool.eq_false_iff.mp hpush
    rw [if_neg hfresh] at hplan
    exact ⟨call, hcall, (issued_events hσ hi hplan).asked⟩

/-- The variable that a key has the name of does not get into the key, and a key with a line break
at its end is refused after a push. -/
theorem variables_keep_their_keys_build :
    let vars : Text.Variables := fun name => if name = "HOME" then some "/root" else none
    let s : Session :=
      { builder := .scripted (Text.substitute vars) none, settings := { target := "build" } }
    let t : Statement :=
      { keyword := .env, arguments := .assignment "HOME" (some "$HOME/me"), text := "ENV" }
    let u : Statement := { keyword := .arg, arguments := .assignment "V" none, text := "ARG" }
    let d := Document.withRecipe {} "build" [t, u]
    let σ : State := { State.initial {} with pushOnly := true }
    let v : Statement := { u with arguments := .assignment "V\n" none }
    (s.interpret d).calls = [.inheritance, .env "HOME" "/root/me", .arg "V" "" false] ∧
      (∀ x ∈ s.requestedTransitions d, ∀ a ∈ x.attempts,
        a.call.operation = .env ∨ a.call.operation = .arg →
          ∃ key value, x.statement.arguments = .assignment key value ∧ Text.IsName key) ∧
      σ.ignores = false ∧ ¬ Text.IsName "V\n" ∧ Refused σ (v.events.foldl s.step σ) := by
  intro vars s t u d σ v
  have hshape : ∀ t ∈ (d.selected s.settings.target).statements,
      t.keyword = .env ∨ t.keyword = .arg → ∃ key value, t.arguments = .assignment key value := by
    intro w hw _
    have hbody : (d.selected s.settings.target).statements = [t, u] := by decide
    rw [hbody, List.mem_cons, List.mem_singleton] at hw
    rcases hw with rfl | rfl
    · exact ⟨_, _, rfl⟩
    · exact ⟨_, _, rfl⟩
  have hkey : ¬ Text.IsName "V\n" := by
    rw [← Text.isIdentifier_iff]
    decide
  obtain ⟨-, hkeys, hrefused⟩ := s.variables_keep_their_keys d hshape
  refine ⟨by decide +kernel, fun x hx a ha hop => ?_, rfl, hkey,
    ((hrefused σ v "V\n" none rfl (.inr rfl) rfl).1 hkey).1⟩
  obtain ⟨key, value, hargs, hname, -⟩ := hkeys x hx a ha hop
  exact ⟨key, value, hargs, hname⟩

end Session
end Buildfile
