import Buildfile.Proofs.Conclusion
import Buildfile.Proofs.EventGrammar

/-! # Statements applied at once

A statement gathers its operands from a run of events, in an area that all statements share. Here
a statement is applied to its own arguments at once, without that area. Both ways lead to the same
state, whatever earlier events have left behind, so a body is a fold over its statements.
-/

namespace Buildfile

/-- The state with no operands gathered. -/
def State.clear (σ : State) : State := { σ with operands := {} }

namespace Arguments

/-- The operands that the arguments of a statement give on their own. -/
def operands : Arguments → Operands
  | words ws => { words := ws.map Text.joinLines }
  | wordsOrArray ws =>
    match Json.readStrings (String.intercalate " " ws) with
    | .ok strings => { words := strings, isArray := true }
    | .error _ => { words := ws.map Text.joinLines }
  | assignment key value => { key, value := value.getD "" }
  | labels keys values => { labelKeys := keys, labelValues := values }

/-- The only check that comes before a statement is complete. -/
def check : Arguments → Except Refusal Unit
  | assignment key _ => checkKey key
  | _ => .ok ()

theorem check_eq_ok {a : Arguments}
    (h : ∀ key value, a = .assignment key value → Text.isIdentifier key = true) :
    a.check = .ok () := by
  cases a with
  | assignment key value => simp [check, checkKey, h key value rfl]
  | _ => rfl

/-- What the arguments leave behind: a key that is refused, and nothing of a complete statement. -/
def leftover (a : Arguments) : Operands :=
  match a.check with
  | .ok () => {}
  | .error _ => { key := a.operands.key }

end Arguments

/-- A statement with its operands, unless its key is refused. -/
def Statement.invocation (t : Statement) : Except Refusal Invocation := do
  t.arguments.check
  return { keyword := t.keyword, text := t.text, operands := t.arguments.operands }

theorem eq_of_invocation {t : Statement} {i : Invocation} (h : t.invocation = .ok i) :
    i = ⟨t.keyword, t.text, t.arguments.operands⟩ := by
  unfold Statement.invocation at h
  cases hc : t.arguments.check with
  | error r =>
    rw [hc] at h
    cases h
  | ok u =>
    rw [hc] at h
    cases h
    rfl

theorem keyword_of_invocation {t : Statement} {i : Invocation} (h : t.invocation = .ok i) :
    i.keyword = t.keyword := by
  rw [eq_of_invocation h]

theorem checkKey_eq_error_iff {key : String} {r : Refusal} :
    checkKey key = .error r ↔ Text.isIdentifier key = false ∧ r = .key key := by
  cases h : Text.isIdentifier key with
  | true => simp [checkKey, h]
  | false => simp [checkKey, h, eq_comm]

namespace Session

def perform (s : Session) (σ : State) (t : Statement) : State :=
  match t.invocation with
  | .ok i => s.conclude σ i
  | .error r => σ.fail r.problem

/-- Reads a statement and applies it unless it is ignored. -/
def read (s : Session) (σ : State) (t : Statement) : State :=
  let σ := σ.note .trace s!"{t.text} at {t.range.text}"
  if σ.ignores then σ else s.perform σ t

def readBody (s : Session) (σ : State) (b : Body) : State :=
  s.step (b.statements.foldl s.read (s.step σ .enterBody)) .exitBody

end Session

/-! ## Gathering of operands -/

namespace Session
variable {s : Session} {σ : State}

theorem step_of_ignores (h : σ.ignores = true) (e : Event) (he : ∀ name, e ≠ .header name) :
    s.step σ e = σ := by
  cases e with
  | header name => exact absurd rfl (he name)
  | _ => simp [step, h]

theorem step_of_not_ignores (h : σ.ignores = false) (e : Event) : s.step σ e = s.act σ e := by
  cases e with
  | header name => simp [step, (σ.ignores_eq_false_iff.mp h).1]
  | _ => simp [step, h]

theorem step_enterBody (s : Session) (σ : State) :
    s.step σ .enterBody = { σ with pushOnly := σ.pushOnly && σ.ignores } := by
  cases h : σ.ignores with
  | true =>
    rw [step_of_ignores h _ (by simp), Bool.and_true]
  | false =>
    rw [step_of_not_ignores h, Bool.and_false]
    rfl

theorem step_exitBody_cases (s : Session) (σ : State) :
    s.step σ .exitBody = σ ∨ ∃ p, s.step σ .exitBody = σ.fail p := by
  cases h : σ.ignores with
  | true => exact .inl (step_of_ignores h _ (by simp))
  | false =>
    rw [step_of_not_ignores h, act]
    cases σ.block.ensureClosed with
    | ok u => exact .inl rfl
    | error fault => exact .inr ⟨_, rfl⟩

/-- A statement is complete with the operands that were gathered, and none of them are left. -/
theorem step_exitStatement (h : σ.ignores = false) (keyword : Keyword) (text : String) :
    s.step σ (.exitStatement keyword text) =
      { s.conclude σ ⟨keyword, text, σ.operands⟩ with operands := {} } := by
  rw [step_of_not_ignores h, act, complete_eq_conclude]
  exact s.conclude_operands σ {} _

theorem foldl_step_words (h : σ.ignores = false) (ws : List String) :
    (ws.map Event.word).foldl s.step σ =
      σ.mapOperands fun o => { o with words := o.words ++ ws.map Text.joinLines } := by
  induction ws generalizing σ with
  | nil => simp [State.mapOperands]
  | cons w ws ih =>
    have hw : (s.act σ (.word w)).ignores = false := h
    rw [List.map_cons, List.foldl_cons, step_of_not_ignores h, ih hw]
    simp [act, State.mapOperands]

theorem foldl_step_labels (h : σ.ignores = false) {keys values : List String}
    {events : List Event} (he : LabelEvents keys values events) :
    events.foldl s.step σ =
      σ.mapOperands fun o => { o with
        labelKeys := o.labelKeys ++ keys
        labelValues := o.labelValues ++ values } := by
  induction he generalizing σ with
  | nil => simp [State.mapOperands]
  | @key key keys values events he ih =>
    have hk : (s.act σ (.labelKey key)).ignores = false := h
    rw [List.foldl_cons, step_of_not_ignores h, ih hk]
    simp [act, State.mapOperands]
  | @value value keys values events he ih =>
    have hv : (s.act σ (.labelValue value)).ignores = false := h
    rw [List.foldl_cons, step_of_not_ignores h, ih hv]
    simp [act, State.mapOperands]

/-- Arguments that pass their check fill an empty area with their own operands. -/
theorem foldl_step_arguments (h : σ.ignores = false) (ho : σ.operands = {}) (a : Arguments)
    (ha : a.check = .ok ()) : a.events.foldl s.step σ = { σ with operands := a.operands } := by
  cases a with
  | words ws =>
    rw [Arguments.events, foldl_step_words h]
    simp [State.mapOperands, ho, Arguments.operands]
  | wordsOrArray ws =>
    have hw : (σ.mapOperands fun o =>
        { o with words := o.words ++ ws.map Text.joinLines }).ignores = false := h
    rw [Arguments.events, List.foldl_append, foldl_step_words h, List.foldl_cons, List.foldl_nil,
      step_of_not_ignores hw, act, Arguments.operands]
    cases Json.readStrings (String.intercalate " " ws) with
    | ok strings => simp [State.mapOperands, ho]
    | error fault => simp [State.mapOperands, ho]
  | assignment key value =>
    have hk : s.step σ (.key key) = { σ with operands := { key } } := by
      have hc : checkKey key = .ok () := ha
      rw [step_of_not_ignores h, act, hc]
      simp [State.mapOperands, ho]
    have hi : ({ σ with operands := { key } } : State).ignores = false := h
    cases value with
    | none =>
      rw [Arguments.events, List.foldl_cons, List.foldl_nil, hk]
      rfl
    | some value =>
      rw [Arguments.events, List.foldl_cons, List.foldl_cons, List.foldl_nil, hk,
        step_of_not_ignores hi]
      rfl
  | labels keys values =>
    rw [Arguments.events, foldl_step_labels h (labelEvents_emits keys values)]
    simp [State.mapOperands, ho, Arguments.operands]

theorem foldl_step_of_problem (h : σ.problem.isSome = true) (events : List Event) :
    events.foldl s.step σ = σ := by
  induction events with
  | nil => rfl
  | cons e events ih => rw [List.foldl_cons, step_of_problem h, ih]

theorem foldl_step_refused (h : σ.ignores = false) (ho : σ.operands = {}) (a : Arguments)
    {r : Refusal} (ha : a.check = .error r) :
    a.events.foldl s.step σ = { σ.fail r.problem with operands := a.leftover } := by
  cases a with
  | assignment key value =>
    have hc : checkKey key = .error r := ha
    have hk : s.step σ (.key key) =
        { σ.fail r.problem with operands := (Arguments.assignment key value).leftover } := by
      rw [step_of_not_ignores h, act, hc, Arguments.leftover, ha]
      simp [State.mapOperands, ho, State.fail, State.note, Arguments.operands]
    have hp (o : Operands) : ({ σ.fail r.problem with operands := o }).problem.isSome = true := rfl
    cases value with
    | none => rw [Arguments.events, List.foldl_cons, List.foldl_nil, hk]
    | some value => rw [Arguments.events, List.foldl_cons, hk, foldl_step_of_problem (hp _)]
  | _ => exact absurd ha (by simp [Arguments.check])

/-- The events of a statement do what the statement does at once. -/
theorem foldl_step_statement (h : σ.ignores = false) (t : Statement) :
    t.events.foldl s.step σ = { s.perform σ t with operands := t.arguments.leftover } := by
  have he : ({ σ with operands := {} } : State).ignores = false := h
  have hp : σ.problem = none := (σ.ignores_eq_false_iff.mp h).1
  have hstart : s.step σ .enterStatement = { σ with operands := {} } := step_of_not_ignores h _
  rw [Statement.events, List.cons_append, List.foldl_cons, List.foldl_append, hstart, perform,
    Statement.invocation]
  cases ha : t.arguments.check with
  | ok u =>
    have hi : ({ σ with operands := t.arguments.operands } : State).ignores = false := h
    rw [foldl_step_arguments he rfl t.arguments ha, List.foldl_cons, List.foldl_nil,
      step_of_not_ignores hi, act, complete_eq_conclude, Arguments.leftover, ha]
    exact s.conclude_operands σ {} _
  | error r =>
    rw [foldl_step_refused he rfl t.arguments ha, foldl_step_of_problem rfl]
    rfl

theorem header_notMem_events (name : String) (t : Statement) : Event.header name ∉ t.events := by
  have ha : Event.header name ∉ t.arguments.events := by
    intro h
    cases t.arguments.emits_events.isArgument _ h
  simp [Statement.events, ha]

theorem foldl_step_of_ignores (h : σ.ignores = true) (events : List Event)
    (he : ∀ name, Event.header name ∉ events) : events.foldl s.step σ = σ := by
  induction events with
  | nil => rfl
  | cons e events ih =>
    have hs : s.step σ e = σ :=
      step_of_ignores h e fun name hn => he name (hn ▸ List.mem_cons_self)
    rw [List.foldl_cons, hs, ih fun name hn => he name (List.mem_cons_of_mem _ hn)]

theorem perform_operands (s : Session) (σ : State) (o : Operands) (t : Statement) :
    s.perform { σ with operands := o } t = { s.perform σ t with operands := o } := by
  unfold perform
  cases t.invocation with
  | ok i => exact s.conclude_operands σ o i
  | error r => rfl

/-- Reading a statement event by event is reading it at once, up to what is left behind. -/
theorem foldl_visit_statement (s : Session) (σ : State) (t : Statement) :
    (t.visits.foldl s.visit σ).clear = s.read σ.clear t := by
  have hv (τ : State) : (t.events.map Visit.event).foldl s.visit τ = t.events.foldl s.step τ :=
    List.foldl_map
  rw [Statement.visits, List.foldl_cons, hv, visit, read]
  cases h : σ.ignores with
  | true =>
    have hn : (σ.note .trace s!"{t.text} at {t.range.text}").ignores = true := h
    have hc : (σ.clear.note .trace s!"{t.text} at {t.range.text}").ignores = true := h
    rw [foldl_step_of_ignores hn _ fun name => header_notMem_events name t]
    simp [hc]
    rfl
  | false =>
    have hn : (σ.note .trace s!"{t.text} at {t.range.text}").ignores = false := h
    have hc : (σ.clear.note .trace s!"{t.text} at {t.range.text}").ignores = false := h
    rw [foldl_step_statement hn]
    simp only [hc, Bool.false_eq_true, if_false]
    exact (s.perform_operands _ {} t).symm

theorem foldl_visit_statements (s : Session) (σ : State) (ts : List Statement) :
    ((ts.flatMap Statement.visits).foldl s.visit σ).clear = ts.foldl s.read σ.clear := by
  induction ts generalizing σ with
  | nil => rfl
  | cons t ts ih => rw [List.flatMap_cons, List.foldl_append, ih, foldl_visit_statement,
      List.foldl_cons]

theorem step_clear_enterBody (s : Session) (σ : State) :
    (s.step σ .enterBody).clear = s.step σ.clear .enterBody := by
  have hi : σ.clear.ignores = σ.ignores := rfl
  simp only [step, hi]
  split <;> rfl

theorem step_clear_exitBody (s : Session) (σ : State) :
    (s.step σ .exitBody).clear = s.step σ.clear .exitBody := by
  have hi : σ.clear.ignores = σ.ignores := rfl
  have hb : σ.clear.block = σ.block := rfl
  simp only [step, hi, act, hb]
  split
  · rfl
  · cases σ.block.ensureClosed <;> rfl

theorem foldl_visit_body (s : Session) (σ : State) (b : Body) :
    (b.visits.foldl s.visit σ).clear = s.readBody σ.clear b := by
  rw [Body.visits, List.cons_append, List.foldl_cons, List.foldl_append, List.foldl_cons,
    List.foldl_nil, visit, visit, step_clear_exitBody, foldl_visit_statements,
    step_clear_enterBody, readBody]

/-! ## Isolation -/

/-- Where events are not ignored, the events of a statement act as the statement does at once on
its own arguments, whatever earlier events have gathered. The statement is planned from these
arguments alone and leaves nothing behind, unless it assigns to a key that is no identifier: then
it is refused, and the key is left behind. A body is therefore a fold over its statements. -/
theorem events_act_as_statements (s : Session) (σ : State) (h : σ.ignores = false) :
    (∀ (t : Statement) (earlier : Operands),
      t.events.foldl s.step { σ with operands := earlier } =
        { s.perform σ t with operands := t.arguments.leftover }) ∧
    (∀ t : Statement,
      (∀ key value, t.arguments = .assignment key value → Text.isIdentifier key = true) →
        s.perform σ t = s.conclude σ ⟨t.keyword, t.text, t.arguments.operands⟩ ∧
          t.arguments.leftover = {}) ∧
    (∀ (t : Statement) (key : String) (value : Option String),
      t.arguments = .assignment key value → Text.isIdentifier key = false →
        s.perform σ t = σ.fail (.value s!"invalid env key definition {key}") ∧
          t.arguments.leftover = { key }) ∧
    ∀ b : Body, (b.visits.foldl s.visit σ).clear = s.readBody σ.clear b := by
  refine ⟨fun t earlier => ?_, fun t ht => ?_, fun t key value ha hk => ?_, s.foldl_visit_body σ⟩
  · have he : ({ σ with operands := earlier } : State).ignores = false := h
    rw [foldl_step_statement he, perform_operands]
  · have hcheck : t.arguments.check = .ok () := Arguments.check_eq_ok ht
    rw [perform, Statement.invocation, Arguments.leftover, hcheck]
    exact ⟨rfl, rfl⟩
  · have hcheck : t.arguments.check = .error (.key key) := by
      rw [ha]
      exact checkKey_eq_error_iff.mpr ⟨hk, rfl⟩
    rw [perform, Statement.invocation, Arguments.leftover, hcheck, ha]
    exact ⟨rfl, rfl⟩

/-- What an earlier event has left behind does not reach a later statement, and a key that is no
identifier is refused before any value of it is looked at. -/
theorem events_act_as_statements_stale :
    let s : Session := { builder := .scripted id none }
    let σ : State := .initial {}
    let stale : Operands := { words := ["stale"], isArray := true }
    let workdir := Statement.ofWords .workdir ["/srv"]
    let env := Statement.env "1ST" "x"
    σ.ignores = false ∧
      (workdir.events.foldl s.step { σ with operands := stale }).calls = [.workdir "/srv"] ∧
      env.events.foldl s.step { σ with operands := stale } =
        { σ.fail (.value "invalid env key definition 1ST") with operands := { key := "1ST" } } := by
  intro s σ stale workdir env
  obtain ⟨hevents, -, hkey, -⟩ := events_act_as_statements s σ rfl
  refine ⟨rfl, ?_, ?_⟩
  · rw [hevents]
    decide
  · obtain ⟨hperform, hleft⟩ := hkey env "1ST" (some "x") rfl (by decide)
    rw [hevents, hperform, hleft]
    rfl

end Session
end Buildfile
