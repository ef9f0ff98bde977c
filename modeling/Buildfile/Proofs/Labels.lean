import Buildfile.Proofs.ByteOrder
import Buildfile.Proofs.Outcomes
import Mathlib.Data.List.Induction

/-! # Labels

Keys and values of a label statement are gathered apart, paired by position and expanded. Keys that
differ in the build file may be the same after that. The builder gets one label for each expanded
key, with the value of the last pair that has it, in the order of the bytes of the keys.
-/

namespace Buildfile

/-- What labels with these keys and values amount to. -/
structure LabelMap (keys values : List String) (labels : List (String × String)) : Prop where
  sorted : labels.Pairwise fun a b => Text.bytes a.1 < Text.bytes b.1
  labelled : ∀ key, key ∈ labels.map Prod.fst ↔ key ∈ keys
  /-- The value of a label is the last one that comes with its key. -/
  last : ∀ key value, (key, value) ∈ labels ↔
    ∃ before after, keys.zip values = before ++ (key, value) :: after ∧ key ∉ after.map Prod.fst

section Sorting
variable {labels : List (String × String)} {key value : String}

theorem mem_of_mem_insertLabel {label : String × String}
    (h : label ∈ insertLabel key value labels) : label = (key, value) ∨ label ∈ labels := by
  induction labels with
  | nil => exact .inl (List.mem_singleton.mp h)
  | cons first rest ih =>
    rw [insertLabel] at h
    split at h
    · exact List.mem_cons.mp h
    · split at h
      · exact (List.mem_cons.mp h).imp id (List.mem_cons_of_mem _)
      · rcases List.mem_cons.mp h with rfl | h
        · exact .inr List.mem_cons_self
        · exact (ih h).imp id (List.mem_cons_of_mem _)

theorem pairwise_insertLabel (h : labels.Pairwise (·.1 < ·.1)) (key value : String) :
    (insertLabel key value labels).Pairwise (·.1 < ·.1) := by
  induction labels with
  | nil => exact List.pairwise_singleton _ _
  | cons first rest ih =>
    obtain ⟨hfirst, hrest⟩ := List.pairwise_cons.mp h
    rw [insertLabel]
    split
    · next hlt =>
      refine List.pairwise_cons.mpr ⟨fun label hl => ?_, h⟩
      rcases List.mem_cons.mp hl with rfl | hl
      · exact hlt
      · exact lt_trans hlt (hfirst label hl)
    · next hle =>
      split
      · next heq =>
        subst heq
        exact List.pairwise_cons.mpr ⟨hfirst, hrest⟩
      · next hne =>
        refine List.pairwise_cons.mpr ⟨fun label hl => ?_, ih hrest⟩
        rcases mem_of_mem_insertLabel hl with rfl | hl
        · exact lt_of_le_of_ne (not_lt.mp hle) (Ne.symm hne)
        · exact hfirst label hl

theorem sortLabels_append_singleton (labels : List (String × String)) (label : String × String) :
    sortLabels (labels ++ [label]) = insertLabel label.1 label.2 (sortLabels labels) := by
  rw [sortLabels, List.foldl_append]
  rfl

theorem pairwise_sortLabels (labels : List (String × String)) :
    (sortLabels labels).Pairwise (·.1 < ·.1) := by
  induction labels using List.reverseRecOn with
  | nil => exact List.Pairwise.nil
  | append_singleton labels label ih =>
    rw [sortLabels_append_singleton]
    exact pairwise_insertLabel ih _ _

/-- The labels are looked up from the end of the list that they come from, since its last one is the
last to be inserted. -/
theorem lookup_sortLabels (labels : List (String × String)) (key : String) :
    (sortLabels labels).lookup key = labels.reverse.lookup key := by
  induction labels using List.reverseRecOn with
  | nil => rfl
  | append_singleton labels label ih =>
    rw [sortLabels_append_singleton, lookup_insertLabel, ih, List.reverse_concat, List.lookup_cons]
    by_cases h : key = label.1
    · rw [if_pos h, beq_iff_eq.mpr h]
    · rw [if_neg h, beq_eq_false_iff_ne.mpr h]

theorem lookup_eq_some_iff_mem (h : labels.Pairwise (·.1 < ·.1)) :
    labels.lookup key = some value ↔ (key, value) ∈ labels := by
  rw [List.lookup_eq_some_iff]
  constructor
  · rintro ⟨before, after, rfl, -⟩
    simp
  · intro hm
    obtain ⟨before, after, rfl⟩ := List.append_of_mem hm
    refine ⟨before, after, rfl, fun label hl => ?_⟩
    have hlt : label.1 < key := (List.pairwise_append.mp h).2.2 label hl _ List.mem_cons_self
    exact bne_iff_ne.mpr (ne_of_gt hlt)

theorem notMem_keys_iff_lookup : key ∉ labels.map Prod.fst ↔ labels.lookup key = none := by
  rw [List.lookup_eq_none_iff]
  simp only [List.mem_map, not_exists, not_and, bne_iff_ne]
  exact ⟨fun h label hl he => h label hl he.symm, fun h label hl he => h label hl he.symm⟩

/-- Looked up from the end, a key has the value of its last pair. -/
theorem lookup_reverse_eq_some_iff :
    labels.reverse.lookup key = some value ↔
      ∃ before after, labels = before ++ (key, value) :: after ∧ key ∉ after.map Prod.fst := by
  rw [List.lookup_eq_some_iff]
  constructor
  · rintro ⟨after, before, hreverse, hafter⟩
    refine ⟨before.reverse, after.reverse, ?_, ?_⟩
    · rw [← labels.reverse_reverse, hreverse]
      simp
    · rw [List.map_reverse, List.mem_reverse, notMem_keys_iff_lookup, List.lookup_eq_none_iff]
      exact hafter
  · rintro ⟨before, after, rfl, hafter⟩
    rw [notMem_keys_iff_lookup, List.lookup_eq_none_iff] at hafter
    refine ⟨after.reverse, before.reverse, by simp, fun label hl => ?_⟩
    exact hafter label (List.mem_reverse.mp hl)

theorem labelMap_sortLabels {keys values : List String} (h : keys.length = values.length) :
    LabelMap keys values (sortLabels (keys.zip values)) where
  sorted := (pairwise_sortLabels _).imp Text.bytes_lt_iff.mpr
  labelled key := by
    have hfst : (keys.zip values).map Prod.fst = keys := List.map_fst_zip h.le
    rw [← not_iff_not, notMem_keys_iff_lookup, lookup_sortLabels, ← notMem_keys_iff_lookup,
      List.map_reverse, List.mem_reverse, hfst]
  last key value := by
    rw [← lookup_eq_some_iff_mem (pairwise_sortLabels _), lookup_sortLabels,
      lookup_reverse_eq_some_iff]

end Sorting

theorem Scope.planLabel_eq (sc : Scope) (h : sc.pushOnly = false) (text : String)
    (keys values : List String) :
    sc.plan ⟨.label, text, { labelKeys := keys, labelValues := values }⟩ =
      if keys = [] then .error (.noLabels text)
      else if keys.length ≠ values.length then .error (.unevenLabels text)
      else .ok (sc.issue "label"
        [.label (sortLabels ((keys.map sc.literal).zip (values.map sc.literal)))]) := by
  rw [plan, planLabel, allow_of_fresh h]
  simp only [← List.isEmpty_iff]
  rfl

namespace Session

/-- The turns in which keys and values arrive do not count. -/
theorem foldl_step_emitted_arguments {s : Session} {σ : State} (h : σ.ignores = false)
    {a : Arguments} {events : List Event} (ha : a.Emits events) :
    events.foldl s.step σ = a.events.foldl s.step σ := by
  cases ha with
  | @labels keys values _ hl =>
    rw [Arguments.events, foldl_step_labels h hl,
      foldl_step_labels h (labelEvents_emits keys values)]
  | _ => rw [Arguments.events]

theorem foldl_step_emitted {s : Session} {σ : State} (h : σ.ignores = false) {t : Statement}
    {events : List Event} (ht : t.Emits events) :
    events.foldl s.step σ = t.events.foldl s.step σ := by
  obtain ⟨harguments⟩ := ht
  have hstart : (s.step σ .enterStatement).ignores = false := by
    rw [step_of_not_ignores h]
    exact h
  simp only [Statement.events, List.cons_append, List.foldl_cons, List.foldl_append,
    foldl_step_emitted_arguments hstart harguments]

/-- Outside of push-only mode a label statement asks for one call with all its labels, unless it
has no keys, or not as many values as keys. The labels have the expanded keys, each with the value
of its last pair, and are in the order of the bytes of these keys. The turns in which keys and
values arrive do not count. -/
theorem labels_follow_pairs (s : Session) (σ : State) (h : σ.ignores = false)
    (hpush : σ.pushOnly = false) (t : Statement) (hk : t.keyword = .label)
    (keys values : List String) (ha : t.arguments = .labels keys values) :
    let sc := s.scope σ
    let τ := t.events.foldl s.step σ
    (keys = [] → Refused σ τ ∧
      τ.problem = some (.arity s!"no labels provided in LABEL command: {t.text}")) ∧
    (keys ≠ [] → keys.length ≠ values.length → Refused σ τ ∧
      τ.problem = some (.arity s!"label keys and values do not match: {t.text}")) ∧
    (keys ≠ [] → keys.length = values.length → ∃ labels, s.Asked σ τ "label" (.label labels) ∧
      LabelMap (keys.map sc.literal) (values.map sc.literal) labels) ∧
    ∀ events, t.Emits events → events.foldl s.step σ = τ := by
  intro sc τ
  have hi : t.invocation = .ok ⟨.label, t.text, { labelKeys := keys, labelValues := values }⟩ := by
    rw [Statement.invocation, ha, hk]
    rfl
  have hplan := sc.planLabel_eq hpush t.text keys values
  refine ⟨fun hnone => ?_, fun hsome huneven => ?_, fun hsome heven => ?_, fun events he => ?_⟩
  · rw [if_pos hnone] at hplan
    exact refused_events h hi hplan
  · rw [if_neg hsome, if_pos huneven] at hplan
    exact refused_events h hi hplan
  · rw [if_neg hsome, if_neg (not_not.mpr heven)] at hplan
    have hlength : (keys.map sc.literal).length = (values.map sc.literal).length := by
      rw [List.length_map, List.length_map, heven]
    exact ⟨_, (issued_events h hi hplan).asked, labelMap_sortLabels hlength⟩
  · exact foldl_step_emitted h he

/-- The third key is the first one in the end, so its value counts. -/
theorem labels_follow_pairs_collision :
    let vars : Text.Variables := fun name => if name = "KEY" then some "tier" else none
    let s : Session := { builder := .scripted (Text.substitute vars) none }
    let σ := State.initial {}
    let keys := ["tier", "app\\+x", "$KEY"]
    let values := ["web", "a$KEY", "db"]
    let t : Statement := { keyword := .label, arguments := .labels keys values, text := "LABEL" }
    let early : List Event := [.enterStatement, .labelValue "web", .labelValue "a$KEY",
      .labelKey "tier", .labelKey "app\\+x", .labelValue "db", .labelKey "$KEY",
      .exitStatement .label "LABEL"]
    σ.ignores = false ∧ σ.pushOnly = false ∧
      (∃ labels, s.Asked σ (t.events.foldl s.step σ) "label" (.label labels) ∧
        LabelMap ["tier", "app+x", "tier"] ["web", "atier", "db"] labels) ∧
      (early.foldl s.step σ).calls = [.label [("app+x", "atier"), ("tier", "db")]] := by
  intro vars s σ keys values t early
  obtain ⟨-, -, hasked, hturns⟩ := s.labels_follow_pairs σ rfl rfl t rfl keys values rfl
  have hkeys : keys.map (s.scope σ).literal = ["tier", "app+x", "tier"] := by decide +kernel
  have hvalues : values.map (s.scope σ).literal = ["web", "atier", "db"] := by decide +kernel
  have hlabels : LabelEvents keys values [.labelValue "web", .labelValue "a$KEY",
      .labelKey "tier", .labelKey "app\\+x", .labelValue "db", .labelKey "$KEY"] :=
    .value (.value (.key (.key (.value (.key .nil)))))
  have hearly : t.Emits early := Statement.Emits.group (t := t) (.labels hlabels)
  refine ⟨rfl, rfl, ?_, ?_⟩
  · rw [← hkeys, ← hvalues]
    exact hasked (by simp [keys]) rfl
  · rw [hturns early hearly]
    decide +kernel

end Session
end Buildfile
