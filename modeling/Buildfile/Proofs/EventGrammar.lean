import Buildfile.Event
import Mathlib.Data.List.Basic

/-! # The grammar of events

The events of a build file nest: a statement is one group of events inside the group of its body,
and a body follows the header of its recipe. Read backwards, any events with this nesting give the
build file again, so two files with the same events differ only in places and in the shape of
statements that have no arguments.
-/

namespace Buildfile

/-! ## Grammar -/

/-- Keys and values in any interleaving that keeps the order of each. -/
inductive LabelEvents : List String → List String → List Event → Prop where
  | nil : LabelEvents [] [] []
  | key {key : String} {keys values : List String} {events : List Event}
      (h : LabelEvents keys values events) :
      LabelEvents (key :: keys) values (.labelKey key :: events)
  | value {value : String} {keys values : List String} {events : List Event}
      (h : LabelEvents keys values events) :
      LabelEvents keys (value :: values) (.labelValue value :: events)

/-- The events that arguments of each shape may give. -/
inductive Arguments.Emits : Arguments → List Event → Prop where
  | words (ws : List String) : Emits (words ws) (ws.map .word)
  | wordsOrArray (ws : List String) :
      Emits (wordsOrArray ws) (ws.map .word ++ [.array (String.intercalate " " ws)])
  | key (key : String) : Emits (assignment key none) [.key key]
  | keyAndValue (key value : String) :
      Emits (assignment key (some value)) [.key key, .value value]
  | labels {keys values : List String} {events : List Event} (h : LabelEvents keys values events) :
      Emits (labels keys values) events

/-- A statement is one group that holds its arguments and ends with its keyword and its text. -/
inductive Statement.Emits (t : Statement) : List Event → Prop where
  | group {inner : List Event} (h : t.arguments.Emits inner) :
      t.Emits (.enterStatement :: inner ++ [.exitStatement t.keyword t.text])

inductive EmitsAll : List Statement → List Event → Prop where
  | nil : EmitsAll [] []
  | cons {t : Statement} {ts : List Statement} {group rest : List Event} (ht : t.Emits group)
      (hts : EmitsAll ts rest) : EmitsAll (t :: ts) (group ++ rest)

/-- A body is one group that holds the groups of its statements. -/
inductive Body.Emits (b : Body) : List Event → Prop where
  | group {inner : List Event} (h : EmitsAll b.statements inner) :
      b.Emits (.enterBody :: inner ++ [.exitBody])

/-- Each recipe gives its header and, directly after it, the group of its body. -/
inductive EmitsRecipes : List Recipe → List Event → Prop where
  | nil : EmitsRecipes [] []
  | cons {r : Recipe} {rs : List Recipe} {group rest : List Event} (hr : r.body.Emits group)
      (hrs : EmitsRecipes rs rest) : EmitsRecipes (r :: rs) (.header r.name :: group ++ rest)

/-- The group of the base body comes first, but only if that body has a statement. -/
inductive Document.Emits (d : Document) : List Event → Prop where
  | recipes {events : List Event} (hb : d.base.statements = [])
      (h : EmitsRecipes d.recipes events) : d.Emits events
  | base {group rest : List Event} (hb : d.base.statements ≠ []) (hg : d.base.Emits group)
      (h : EmitsRecipes d.recipes rest) : d.Emits (group ++ rest)

/-! ## What the events leave open -/

/-- Arguments without any event are plain words. -/
def Arguments.plain : Arguments → Arguments
  | labels [] [] => words []
  | a => a

/-- The statement without its place. -/
def Statement.plain (t : Statement) : Statement :=
  { t with arguments := t.arguments.plain, range := .unknown }

def Body.plain (b : Body) : Body := ⟨b.statements.map Statement.plain⟩

def Recipe.plain (r : Recipe) : Recipe := ⟨r.name, r.body.plain, .unknown⟩

def Document.plain (d : Document) : Document := ⟨d.base.plain, d.recipes.map Recipe.plain⟩

/-! ## Rebuilding -/

def Arguments.before : Event → Arguments → Arguments
  | .word w, wordsOrArray ws => wordsOrArray (w :: ws)
  | .word w, words ws => words (w :: ws)
  | .array _, _ => wordsOrArray []
  | .key key, assignment _ value => assignment key value
  | .key key, _ => assignment key none
  | .value value, _ => assignment "" (some value)
  | .labelKey key, labels keys values => labels (key :: keys) values
  | .labelKey key, _ => labels [key] []
  | .labelValue value, labels keys values => labels keys (value :: values)
  | .labelValue value, _ => labels [] [value]
  | _, a => a

/-- The end of a build file, as far as it has been read backwards: recipes, the statements of the
body in front of them, and the statement whose events are being read. -/
structure Draft where
  recipes : List Recipe := []
  statements : List Statement := []
  keyword : Keyword := .other
  text : String := ""
  arguments : Arguments := .words []

def Draft.before (e : Event) (draft : Draft) : Draft :=
  match e with
  | .header name => { recipes := ⟨name, ⟨draft.statements⟩, .unknown⟩ :: draft.recipes }
  | .enterBody | .exitBody => draft
  | .enterStatement =>
    { recipes := draft.recipes
      statements :=
        { keyword := draft.keyword, arguments := draft.arguments, text := draft.text } ::
          draft.statements }
  | .exitStatement keyword text => { draft with keyword, text }
  | e => { draft with arguments := draft.arguments.before e }

def Document.ofEvents (events : List Event) : Document :=
  let draft := events.foldr Draft.before {}
  ⟨⟨draft.statements⟩, draft.recipes⟩

def Event.isArgument : Event → Bool
  | word _ | array _ | key _ | value _ | labelKey _ | labelValue _ => true
  | _ => false

section Rebuilding
variable {events : List Event}

theorem LabelEvents.foldr_before {keys values : List String} (h : LabelEvents keys values events) :
    events.foldr Arguments.before (.words []) = (Arguments.labels keys values).plain := by
  induction h with
  | nil => rfl
  | @key key keys values events h ih =>
    rw [List.foldr_cons, ih]
    cases keys <;> cases values <;> rfl
  | @value value keys values events h ih =>
    rw [List.foldr_cons, ih]
    cases keys <;> cases values <;> rfl

/-- The arguments are read back from the events of any of their shapes. -/
theorem Arguments.Emits.foldr_before {a : Arguments} (h : a.Emits events) :
    events.foldr Arguments.before (.words []) = a.plain := by
  cases h with
  | words ws =>
    rw [List.foldr_map]
    induction ws with
    | nil => rfl
    | cons w ws ih => rw [List.foldr_cons, ih]; rfl
  | wordsOrArray ws =>
    rw [List.foldr_append, List.foldr_map]
    generalize String.intercalate " " ws = text
    induction ws with
    | nil => rfl
    | cons w ws ih => rw [List.foldr_cons, ih]; rfl
  | key key => rfl
  | keyAndValue key value => rfl
  | labels h => exact h.foldr_before

theorem LabelEvents.isArgument {keys values : List String} (h : LabelEvents keys values events) :
    ∀ e ∈ events, e.isArgument = true := by
  induction h with
  | nil => simp
  | key h ih => exact List.forall_mem_cons.mpr ⟨rfl, ih⟩
  | value h ih => exact List.forall_mem_cons.mpr ⟨rfl, ih⟩

theorem Arguments.Emits.isArgument {a : Arguments} (h : a.Emits events) :
    ∀ e ∈ events, e.isArgument = true := by
  cases h with
  | labels h => exact h.isArgument
  | words ws => exact List.forall_mem_map.mpr fun _ _ => rfl
  | wordsOrArray ws =>
    rw [List.forall_mem_append]
    exact ⟨List.forall_mem_map.mpr fun _ _ => rfl, List.forall_mem_singleton.mpr rfl⟩
  | _ => simp [Event.isArgument]

/-- Arguments are read into the statement that is being read and change nothing else. -/
theorem foldr_before_arguments (h : ∀ e ∈ events, e.isArgument = true) (draft : Draft) :
    events.foldr Draft.before draft =
      { draft with arguments := events.foldr Arguments.before draft.arguments } := by
  induction events with
  | nil => rfl
  | cons e events ih =>
    obtain ⟨he, hrest⟩ := List.forall_mem_cons.mp h
    rw [List.foldr_cons, ih hrest, List.foldr_cons]
    cases e with
    | header _ | enterBody | exitBody | enterStatement | exitStatement _ _ => cases he
    | _ => rfl

variable (rs : List Recipe) (ts : List Statement)

theorem Statement.Emits.foldr_before {t : Statement} (h : t.Emits events) :
    events.foldr Draft.before { recipes := rs, statements := ts } =
      { recipes := rs, statements := t.plain :: ts } := by
  obtain ⟨harguments⟩ := h
  rw [List.cons_append, List.foldr_cons, List.foldr_append,
    foldr_before_arguments harguments.isArgument]
  simp only [List.foldr_cons, List.foldr_nil, Draft.before, harguments.foldr_before]
  rfl

theorem EmitsAll.foldr_before {us : List Statement} (h : EmitsAll us events) :
    events.foldr Draft.before { recipes := rs, statements := ts } =
      { recipes := rs, statements := us.map Statement.plain ++ ts } := by
  induction h with
  | nil => rfl
  | cons ht hts ih => rw [List.foldr_append, ih, ht.foldr_before]; rfl

theorem Body.Emits.foldr_before {b : Body} (h : b.Emits events) :
    events.foldr Draft.before { recipes := rs } =
      { recipes := rs, statements := b.plain.statements } := by
  obtain ⟨hinner⟩ := h
  rw [List.cons_append, List.foldr_cons, List.foldr_append]
  simp only [List.foldr_cons, List.foldr_nil, Draft.before, hinner.foldr_before, List.append_nil]
  rfl

theorem EmitsRecipes.foldr_before {qs : List Recipe} (h : EmitsRecipes qs events) :
    events.foldr Draft.before {} = { recipes := qs.map Recipe.plain } := by
  induction h with
  | nil => rfl
  | cons hr hrs ih =>
    rw [List.cons_append, List.foldr_cons, List.foldr_append, ih, hr.foldr_before]
    rfl

/-- Events with the nesting of a build file are those of no other one. -/
theorem Document.Emits.ofEvents_eq {d : Document} (h : d.Emits events) :
    Document.ofEvents events = d.plain := by
  cases h with
  | recipes hb h =>
    rw [ofEvents, h.foldr_before, plain, Body.plain, hb]
    rfl
  | base hb hg h =>
    rw [ofEvents, List.foldr_append, h.foldr_before, hg.foldr_before]
    rfl

end Rebuilding

/-! ## The events of a build file -/

theorem labelEvents_emits (keys values : List String) :
    LabelEvents keys values (labelEvents keys values) := by
  induction keys, values using labelEvents.induct with
  | case1 key keys value values ih => exact .key (.value ih)
  | case2 keys =>
    have he : labelEvents keys [] = keys.map .labelKey := by cases keys <;> rfl
    rw [he]
    induction keys with
    | nil => exact .nil
    | cons key keys ih => exact .key (ih (by cases keys <;> rfl))
  | case3 values hv =>
    have he : labelEvents [] values = values.map .labelValue := by cases values <;> rfl
    rw [he]
    clear hv he
    induction values with
    | nil => exact .nil
    | cons value values ih => exact .value ih

theorem Arguments.emits_events (a : Arguments) : a.Emits a.events := by
  cases a with
  | words ws => exact .words ws
  | wordsOrArray ws => exact .wordsOrArray ws
  | assignment key value =>
    cases value with
    | none => exact .key key
    | some value => exact .keyAndValue key value
  | labels keys values => exact .labels (labelEvents_emits keys values)

def Body.events (b : Body) : List Event :=
  .enterBody :: b.statements.flatMap Statement.events ++ [.exitBody]

theorem Statement.filterMap_visits (t : Statement) :
    t.visits.filterMap Visit.event? = t.events := by
  have he : Visit.event? ∘ Visit.event = some := rfl
  rw [visits, List.filterMap_cons_none rfl, List.filterMap_map, he, List.filterMap_some]

theorem Body.filterMap_visits (b : Body) : b.visits.filterMap Visit.event? = b.events := by
  have he : Visit.event? (.event .enterBody) = some .enterBody := rfl
  rw [visits, List.cons_append, List.filterMap_cons_some he, List.filterMap_append,
    List.filterMap_flatMap, funext Statement.filterMap_visits]
  rfl

theorem Document.events_eq (d : Document) :
    d.events = (if d.base.isEmpty then [] else d.base.events) ++
      d.recipes.flatMap fun r => .header r.name :: r.body.events := by
  have hr (r : Recipe) :
      r.visits.filterMap Visit.event? = .header r.name :: r.body.events := by
    rw [← r.body.filterMap_visits]
    rfl
  rw [events, visits, List.filterMap_append, List.filterMap_flatMap, funext hr]
  split
  · rfl
  · rw [d.base.filterMap_visits]

theorem Body.emits_events (b : Body) : b.Emits b.events := by
  have hall (ts : List Statement) : EmitsAll ts (ts.flatMap Statement.events) := by
    induction ts with
    | nil => exact .nil
    | cons t ts ih => exact .cons (.group t.arguments.emits_events) ih
  exact .group (hall b.statements)

theorem Document.emits_events (d : Document) : d.Emits d.events := by
  have hall (rs : List Recipe) :
      EmitsRecipes rs (rs.flatMap fun r => .header r.name :: r.body.events) := by
    induction rs with
    | nil => exact .nil
    | cons r rs ih => exact .cons r.body.emits_events ih
  rw [events_eq, Body.isEmpty]
  split
  · next hb => exact .recipes (List.isEmpty_iff.mp hb) (hall d.recipes)
  · next hb => exact .base (mt List.isEmpty_iff.mpr hb) d.base.emits_events (hall d.recipes)

/-- Places and the shape of missing arguments have no events. -/
theorem Document.events_plain (d : Document) : d.plain.events = d.events := by
  have ht (t : Statement) : t.plain.events = t.events := by
    have ha (a : Arguments) : a.plain.events = a.events := by
      unfold Arguments.plain
      split <;> rfl
    rw [Statement.events, Statement.plain, ha]
    rfl
  have hb (b : Body) : b.plain.events = b.events := by
    rw [Body.events, Body.plain, List.flatMap_map, funext ht]
    rfl
  have he : d.plain.base.isEmpty = d.base.isEmpty := by
    rw [Body.isEmpty, plain, Body.plain, List.isEmpty_map]
    rfl
  have hr (r : Recipe) :
      Event.header r.plain.name :: r.plain.body.events = .header r.name :: r.body.events := by
    rw [Recipe.plain, hb]
  rw [events_eq, events_eq, he, plain, hb, List.flatMap_map, funext hr]

/-- A value directly follows its key where both exist, after the keys and values before them. -/
theorem labelEvents_pair {keys values : List String} {i : Nat} {key value : String}
    (hk : keys[i]? = some key) (hv : values[i]? = some value) :
    ∃ before after, labelEvents keys values =
        before ++ .labelKey key :: .labelValue value :: after ∧
      LabelEvents (keys.take i) (values.take i) before ∧
      LabelEvents (keys.drop (i + 1)) (values.drop (i + 1)) after := by
  induction keys, values using labelEvents.induct generalizing i with
  | case1 k keys v values ih =>
    cases i with
    | zero =>
      obtain ⟨rfl, rfl⟩ : k = key ∧ v = value := ⟨Option.some.inj hk, Option.some.inj hv⟩
      exact ⟨[], labelEvents keys values, rfl, .nil, labelEvents_emits keys values⟩
    | succ i =>
      obtain ⟨before, after, he, hbefore, hafter⟩ := ih hk hv
      refine ⟨.labelKey k :: .labelValue v :: before, after, ?_, .key (.value hbefore), hafter⟩
      rw [labelEvents, he]
      rfl
  | case2 keys => cases hv
  | case3 values => cases hk

/-- The events of a build file nest as its statements, bodies and recipes do, and two build files
with the same events are the same but for places and for the shape of missing arguments. Labels
give their keys in order and their values in order, and a value directly follows its key where
there are both. -/
theorem events_lose_nothing (d : Document) :
    d.Emits d.events ∧
    (∀ e : Document, d.events = e.events ↔ d.plain = e.plain) ∧
    ∀ keys values : List String,
      LabelEvents keys values (Arguments.labels keys values).events ∧
      ∀ (i : Nat) (key value : String), keys[i]? = some key → values[i]? = some value →
        ∃ before after, (Arguments.labels keys values).events =
            before ++ .labelKey key :: .labelValue value :: after ∧
          LabelEvents (keys.take i) (values.take i) before ∧
          LabelEvents (keys.drop (i + 1)) (values.drop (i + 1)) after := by
  refine ⟨d.emits_events, fun e => ⟨fun h => ?_, fun h => ?_⟩, fun keys values =>
    ⟨labelEvents_emits keys values, fun i key value hk hv => labelEvents_pair hk hv⟩⟩
  · rw [← d.emits_events.ofEvents_eq, h, e.emits_events.ofEvents_eq]
  · rw [← d.events_plain, h, e.events_plain]

/-- The second key has no value, and labels without any give the events of words without any. -/
theorem events_lose_nothing_uneven :
    let keys := ["app", "tier"]
    let values := ["web"]
    let t : Statement := ⟨.label, .labels keys values, "LABEL", .ofLine 3⟩
    let u : Statement := ⟨.label, .labels [] [], "LABEL", .ofLine 4⟩
    let d := Document.withRecipe {} "build" [t, u]
    let e := Document.withRecipe {} "build"
      [{ t with range := .unknown }, { u with arguments := .words [] }]
    keys[0]? = some "app" ∧ values[0]? = some "web" ∧ d.events = e.events ∧
      ∃ before after, (Arguments.labels keys values).events =
          before ++ .labelKey "app" :: .labelValue "web" :: after ∧
        LabelEvents [] [] before ∧ LabelEvents ["tier"] [] after := by
  intro keys values t u d e
  obtain ⟨-, hsame, hlabels⟩ := events_lose_nothing d
  exact ⟨rfl, rfl, (hsame e).mpr rfl, (hlabels keys values).2 0 "app" "web" rfl rfl⟩

end Buildfile
