import Buildfile.Cancellation
import Mathlib.Data.List.Induction
import Mathlib.Data.List.Infix
import Mathlib.Logic.Relation
import Mathlib.Order.Bounds.Defs

/-! # Families of contexts

A context is created or copied from another one, and contexts are relatives if copying connects
them, in either direction and over any number of copies. What a context shows is known from this
alone: its deadline is that of the first of its relatives, and it is done if this deadline has
elapsed or any of its relatives was cancelled, before or after it was copied.
-/

namespace Buildfile
namespace ContextPool

inductive Origin where
  | created (deadline : Option Deadline)
  | copied (index : Nat)
deriving DecidableEq

/-- The origin of the context that an action adds to a number of others, if it adds any. -/
def Action.origin? (count : Nat) : Action → Option Origin
  | background => some (.created none)
  | timeout seconds => some (.created (some (if seconds = 0 then .elapsed else .ahead)))
  | clone index => if index < count then some (.copied index) else none
  | cancel _ => none

def origins (actions : List Action) : List Origin :=
  actions.foldl (fun os a => os ++ (a.origin? os.length).toList) []

/-- The second context was copied from the first one. -/
def CopiedFrom (os : List Origin) (j k : Nat) : Prop := os[k]? = some (.copied j)

/-- The second context is the first one or a copy of a copy of it, over any number of copies. -/
def Descends (os : List Origin) : Nat → Nat → Prop := Relation.ReflTransGen (CopiedFrom os)

/-- Copying connects the two contexts, in whatever directions. -/
def Relatives (os : List Origin) : Nat → Nat → Prop := Relation.EqvGen (CopiedFrom os)

/-- A relative of the context was cancelled when it was already there. -/
def RelativeCancelled (actions : List Action) (k : Nat) : Prop :=
  ∃ earlier j, earlier ++ [.cancel j] <+: actions ∧ j < (origins earlier).length ∧
    Relatives (origins actions) j k

def after (actions : List Action) : ContextPool := actions.foldl apply {}

variable {p : ContextPool} {os : List Origin} {cs : List Context} {n : Nat}

theorem origins_concat (actions : List Action) (a : Action) :
    origins (actions ++ [a]) =
      origins actions ++ (a.origin? (origins actions).length).toList := by
  rw [origins, List.foldl_append]
  rfl

theorem after_concat (actions : List Action) (a : Action) :
    after (actions ++ [a]) = (after actions).apply a := by
  rw [after, List.foldl_append]
  rfl

theorem getElem?_applyAll (p : ContextPool) {actions : List Action} {k : Nat}
    (hk : k < actions.length) :
    (p.applyAll actions)[k]? = some ((actions.take (k + 1)).foldl apply p) := by
  induction actions generalizing p k with
  | nil => cases hk
  | cons a rest ih =>
    cases k with
    | zero => rfl
    | succ k =>
      rw [applyAll, List.getElem?_cons_succ, ih _ (Nat.lt_of_succ_lt_succ hk)]
      rfl

/-! ## One action -/

/-- What an action can do to the contexts of a pool. -/
inductive Acts (p : ContextPool) (a : Action) (q : ContextPool) : Prop
  | founds (deadline : Option Deadline)
      (origin : a.origin? p.contexts.length = some (.created deadline))
      (result : q = p.found deadline)
  | copies (j : Nat) (c : Context) (origin : a.origin? p.contexts.length = some (.copied j))
      (original : p.contexts[j]? = some c) (result : q = { p with contexts := p.contexts ++ [c] })
  | keeps (origin : a.origin? p.contexts.length = none) (contexts : q.contexts = p.contexts)
      (families : q.families = p.families)

theorem acts_apply (p : ContextPool) (a : Action) : Acts p a (p.apply a) := by
  cases a with
  | background => exact .founds none rfl rfl
  | timeout seconds => exact .founds _ rfl rfl
  | clone j =>
    rw [apply]
    cases hc : p.contexts[j]? with
    | some c =>
      have hj := (List.getElem?_eq_some_iff.mp hc).1
      exact .copies j c (if_pos hj) hc rfl
    | none =>
      have hj := List.getElem?_eq_none_iff.mp hc
      exact .keeps (if_neg (Nat.not_lt.mpr hj)) rfl rfl
  | cancel j =>
    rw [apply]
    cases p.contexts[j]? with
    | some c => exact .keeps rfl rfl rfl
    | none => exact .keeps rfl rfl rfl

theorem contexts_prefix_apply (p : ContextPool) (a : Action) :
    p.contexts <+: (p.apply a).contexts := by
  cases acts_apply p a with
  | founds _ _ h =>
    rw [h]
    exact List.prefix_append _ _
  | copies _ _ _ _ h =>
    rw [h]
    exact List.prefix_append _ _
  | keeps _ h _ => rw [h]

/-- Only the family of a context that is cancelled is added to the cancelled ones. -/
theorem mem_cancelled_apply_iff (p : ContextPool) (a : Action) (family : Nat) :
    family ∈ (p.apply a).cancelled ↔ family ∈ p.cancelled ∨
      ∃ j c, a = .cancel j ∧ p.contexts[j]? = some c ∧ c.family = family := by
  cases a with
  | background => simp [apply, found]
  | timeout seconds => simp [apply, found]
  | clone j =>
    rw [apply]
    cases p.contexts[j]? <;> simp
  | cancel j =>
    rw [apply]
    cases hc : p.contexts[j]? <;> simp [hc, or_comm, eq_comm]

/-- Contexts stay in place, and families stay cancelled. -/
theorem after_append (actions more : List Action) :
    (after actions).contexts <+: (after (actions ++ more)).contexts ∧
      ∀ family ∈ (after actions).cancelled, family ∈ (after (actions ++ more)).cancelled := by
  induction more using List.reverseRecOn with
  | nil => simp
  | append_singleton more a ih =>
    rw [← List.append_assoc, after_concat]
    refine ⟨ih.1.trans (contexts_prefix_apply _ a), fun family h => ?_⟩
    exact (mem_cancelled_apply_iff _ a family).mpr (.inl (ih.2 family h))

/-! ## Families and relatives -/

/-- Contexts that have the given origins, and the number of families among them. A context that is
created is the first one of its family. -/
inductive Tracks : List Origin → List Context → Nat → Prop
  | nil : Tracks [] [] 0
  | created {os : List Origin} {cs : List Context} {n : Nat} (deadline : Option Deadline)
      (earlier : Tracks os cs n) :
      Tracks (os ++ [.created deadline]) (cs ++ [⟨n, deadline⟩]) (n + 1)
  | copied {os : List Origin} {cs : List Context} {n j : Nat} {c : Context}
      (original : cs[j]? = some c) (earlier : Tracks os cs n) :
      Tracks (os ++ [.copied j]) (cs ++ [c]) n

/-- A context with the first one of its family, from which it descends. -/
structure Founder (os : List Origin) (cs : List Context) (f k : Nat) (c : Context) : Prop where
  descends : Descends os f k
  created : os[f]? = some (.created c.deadline)
  context : cs[f]? = some c
  first : ∀ j b, cs[j]? = some b → b.family = c.family → f ≤ j

theorem getElem?_of_prefix {α : Type} {xs ys : List α} {x : α} {k : Nat} (h : xs <+: ys)
    (hx : xs[k]? = some x) : ys[k]? = some x := by
  obtain ⟨hk, rfl⟩ := List.getElem?_eq_some_iff.mp hx
  exact List.prefix_iff_getElem?.mp h k hk

theorem getElem?_concat_cases {α : Type} {xs : List α} {x y : α} {k : Nat}
    (h : (xs ++ [x])[k]? = some y) : xs[k]? = some y ∨ k = xs.length ∧ y = x := by
  obtain ⟨hk, hy⟩ := List.getElem?_eq_some_iff.mp h
  rw [List.length_append, List.length_singleton] at hk
  rcases Nat.lt_succ_iff_lt_or_eq.mp hk with hlt | rfl
  · rw [List.getElem?_append_left hlt] at h
    exact .inl h
  · exact .inr ⟨rfl, by simpa using hy.symm⟩

theorem descends_concat {j k : Nat} (h : Descends os j k) (o : Origin) :
    Descends (os ++ [o]) j k :=
  Relation.ReflTransGen.mono (fun _ _ hc => getElem?_of_prefix (List.prefix_append os [o]) hc) _ _ h

theorem Founder.lt {f k : Nat} {c : Context} (h : Founder os cs f k c) : f < cs.length :=
  (List.getElem?_eq_some_iff.mp h.context).1

theorem Founder.concat {f k : Nat} {c : Context} (h : Founder os cs f k c) {b : Context}
    (hb : b.family = c.family → f ≤ cs.length) (o : Origin) :
    Founder (os ++ [o]) (cs ++ [b]) f k c := by
  refine ⟨descends_concat h.descends o, getElem?_of_prefix (List.prefix_append _ _) h.created,
    getElem?_of_prefix (List.prefix_append _ _) h.context, fun j d hd hfamily => ?_⟩
  rcases getElem?_concat_cases hd with hd | ⟨rfl, rfl⟩
  · exact h.first j d hd hfamily
  · exact hb hfamily

theorem Descends.relatives {j k : Nat} (h : Descends os j k) : Relatives os j k :=
  Relation.EqvGen.reflTransGen_le_eqvGen _ _ _ h

namespace Tracks

theorem length_eq (h : Tracks os cs n) : cs.length = os.length := by
  induction h with
  | nil => rfl
  | created _ _ ih => simp [ih]
  | copied _ _ ih => simp [ih]

theorem family_lt (h : Tracks os cs n) {k : Nat} {c : Context} (hc : cs[k]? = some c) :
    c.family < n := by
  induction h generalizing k c with
  | nil => cases hc
  | created deadline _ ih =>
    rcases getElem?_concat_cases hc with hc | ⟨-, rfl⟩
    · exact Nat.lt_succ_of_lt (ih hc)
    · exact Nat.lt_succ_self _
  | copied original _ ih =>
    rcases getElem?_concat_cases hc with hc | ⟨-, rfl⟩
    · exact ih hc
    · exact ih original

/-- A copy is the same as its original. -/
theorem getElem?_of_copiedFrom (h : Tracks os cs n) {j k : Nat} (hk : CopiedFrom os j k) :
    ∃ c, cs[j]? = some c ∧ cs[k]? = some c := by
  induction h with
  | nil => cases hk
  | created deadline earlier ih =>
    rcases getElem?_concat_cases hk with hk | ⟨-, horigin⟩
    · obtain ⟨c, hj, hc⟩ := ih hk
      exact ⟨c, getElem?_of_prefix (List.prefix_append _ _) hj,
        getElem?_of_prefix (List.prefix_append _ _) hc⟩
    · cases horigin
  | copied original earlier ih =>
    rcases getElem?_concat_cases hk with hk | ⟨rfl, horigin⟩
    · obtain ⟨c, hj, hc⟩ := ih hk
      exact ⟨c, getElem?_of_prefix (List.prefix_append _ _) hj,
        getElem?_of_prefix (List.prefix_append _ _) hc⟩
    · cases horigin
      refine ⟨_, getElem?_of_prefix (List.prefix_append _ _) original, ?_⟩
      rw [← earlier.length_eq, List.getElem?_concat_length]

theorem getElem?_of_relatives (h : Tracks os cs n) {j k : Nat} (hjk : Relatives os j k) :
    cs[j]? = cs[k]? := by
  induction hjk with
  | rel j k hk =>
    obtain ⟨c, hj, hc⟩ := h.getElem?_of_copiedFrom hk
    rw [hj, hc]
  | refl k => rfl
  | symm j k _ ih => exact ih.symm
  | trans i j k _ _ ihj ihk => exact ihj.trans ihk

theorem exists_founder (h : Tracks os cs n) {k : Nat} {c : Context} (hc : cs[k]? = some c) :
    ∃ f, Founder os cs f k c := by
  induction h generalizing k c with
  | nil => cases hc
  | created deadline earlier ih =>
    rcases getElem?_concat_cases hc with hc | ⟨rfl, rfl⟩
    · obtain ⟨f, hf⟩ := ih hc
      have hlt := earlier.family_lt hc
      exact ⟨f, hf.concat (fun hfamily => absurd hlt (by simp [← hfamily])) _⟩
    · -- The number of the new family is that of no earlier context.
      refine ⟨_, .refl, ?_, List.getElem?_concat_length, fun j b hb hfamily => ?_⟩
      · rw [earlier.length_eq, List.getElem?_concat_length]
      · rcases getElem?_concat_cases hb with hb | ⟨rfl, -⟩
        · exact absurd (earlier.family_lt hb) (by simp [hfamily])
        · exact Nat.le_refl _
  | copied original earlier ih =>
    rcases getElem?_concat_cases hc with hc | ⟨rfl, rfl⟩
    · obtain ⟨f, hf⟩ := ih hc
      exact ⟨f, hf.concat (fun _ => Nat.le_of_lt hf.lt) _⟩
    · obtain ⟨f, hf⟩ := ih original
      obtain ⟨hdescends, hcreated, hcontext, hfirst⟩ :=
        hf.concat (fun _ => Nat.le_of_lt hf.lt) (.copied _)
      refine ⟨f, hdescends.tail ?_, hcreated, hcontext, hfirst⟩
      rw [CopiedFrom, earlier.length_eq, List.getElem?_concat_length]

/-- Contexts of one family go back to the same one, so they are relatives. -/
theorem relatives_of_family (h : Tracks os cs n) {j k : Nat} {b c : Context}
    (hb : cs[j]? = some b) (hc : cs[k]? = some c) (hfamily : b.family = c.family) :
    Relatives os j k := by
  obtain ⟨f, hf⟩ := h.exists_founder hb
  obtain ⟨g, hg⟩ := h.exists_founder hc
  have hsame : f = g := by
    apply Nat.le_antisymm
    · exact hf.first g c hg.context hfamily.symm
    · exact hg.first f b hf.context hfamily
  subst hsame
  exact .trans _ _ _ (.symm _ _ hf.descends.relatives) hg.descends.relatives

end Tracks

theorem tracks_after (actions : List Action) :
    Tracks (origins actions) (after actions).contexts (after actions).families := by
  induction actions using List.reverseRecOn with
  | nil => exact .nil
  | append_singleton actions a ih =>
    rw [origins_concat, after_concat, ← ih.length_eq]
    cases acts_apply (after actions) a with
    | founds deadline horigin h =>
      rw [horigin, h]
      exact .created deadline ih
    | copies j c horigin horiginal h =>
      rw [horigin, h]
      exact .copied horiginal ih
    | keeps horigin hcontexts hfamilies =>
      rw [horigin, hcontexts, hfamilies, Option.toList_none, List.append_nil]
      exact ih

/-! ## Cancelled families -/

/-- The families that are cancelled are those of the contexts that were, at the time. -/
theorem mem_cancelled_iff (actions : List Action) (family : Nat) :
    family ∈ (after actions).cancelled ↔
      ∃ earlier j c, earlier ++ [.cancel j] <+: actions ∧
        (after earlier).contexts[j]? = some c ∧ c.family = family := by
  induction actions using List.reverseRecOn with
  | nil =>
    constructor
    · intro h
      cases h
    · rintro ⟨earlier, j, c, hprefix, -⟩
      simp at hprefix
  | append_singleton actions a ih =>
    rw [after_concat, mem_cancelled_apply_iff, ih]
    simp only [List.prefix_concat_iff, List.append_singleton_inj]
    constructor
    · rintro (⟨earlier, j, c, hprefix, hc, hfamily⟩ | ⟨j, c, rfl, hc, hfamily⟩)
      · exact ⟨earlier, j, c, .inr hprefix, hc, hfamily⟩
      · exact ⟨actions, j, c, .inl ⟨rfl, rfl⟩, hc, hfamily⟩
    · rintro ⟨earlier, j, c, ⟨rfl, rfl⟩ | hprefix, hc, hfamily⟩
      · exact .inr ⟨j, c, rfl, hc, hfamily⟩
      · exact .inl ⟨earlier, j, c, hprefix, hc, hfamily⟩

theorem getElem?_after_of_prefix {earlier actions : List Action} (h : earlier <+: actions) {j : Nat}
    {c : Context} (hc : (after earlier).contexts[j]? = some c) :
    (after actions).contexts[j]? = some c := by
  obtain ⟨more, rfl⟩ := h
  exact getElem?_of_prefix (after_append earlier more).1 hc

theorem relativeCancelled_iff {actions : List Action} {k : Nat} {c : Context}
    (hc : (after actions).contexts[k]? = some c) :
    RelativeCancelled actions k ↔ c.family ∈ (after actions).cancelled := by
  have h := tracks_after actions
  rw [mem_cancelled_iff]
  constructor
  · rintro ⟨earlier, j, hprefix, hj, hrelatives⟩
    rw [← (tracks_after earlier).length_eq] at hj
    have hb := List.getElem?_eq_getElem hj
    have hlater := getElem?_after_of_prefix ((List.prefix_append _ _).trans hprefix) hb
    have hsame := hlater.symm.trans ((h.getElem?_of_relatives hrelatives).trans hc)
    exact ⟨earlier, j, _, hprefix, hb, by rw [Option.some.inj hsame]⟩
  · rintro ⟨earlier, j, b, hprefix, hb, hfamily⟩
    have hlater := getElem?_after_of_prefix ((List.prefix_append _ _).trans hprefix) hb
    have hj := (List.getElem?_eq_some_iff.mp hb).1
    rw [(tracks_after earlier).length_eq] at hj
    exact ⟨earlier, j, hprefix, hj, h.relatives_of_family hlater hc hfamily⟩

/-! ## What contexts show -/

theorem isDone_status_iff (p : ContextPool) (c : Context) :
    (p.status c).isDone = true ↔ c.deadline = some .elapsed ∨ c.family ∈ p.cancelled := by
  simp [status, or_comm]

theorem getElem?_statuses_eq_some_iff {k : Nat} {status : ContextStatus} :
    p.statuses[k]? = some status ↔ ∃ c, p.contexts[k]? = some c ∧ p.status c = status := by
  rw [statuses, List.getElem?_map, Option.map_eq_some_iff]

theorem status_apply_cancel (p : ContextPool) (j : Nat) {c : Context}
    (h : ∀ b, p.contexts[j]? = some b → b.family ≠ c.family) :
    (p.apply (.cancel j)).status c = p.status c := by
  have hmem : c.family ∈ (p.apply (.cancel j)).cancelled ↔ c.family ∈ p.cancelled := by
    rw [mem_cancelled_apply_iff]
    constructor
    · rintro (hmem | ⟨i, b, hi, hb, hfamily⟩)
      · exact hmem
      · cases hi
        exact absurd hfamily (h b hb)
    · exact .inl
  simp only [status, List.contains_eq_mem, hmem]

/-- After each of any actions, a context is done exactly if the deadline that its family began with
had elapsed or one of its relatives was cancelled, it has a deadline exactly if its family began
with one, cancelling a context that is no relative changes nothing about it, and it stays done. -/
theorem cancellation_reaches_relatives (actions : List Action) :
    (∀ n < actions.length, (({} : ContextPool).applyAll actions)[n]? =
      some (after (actions.take (n + 1)))) ∧
    (after actions).statuses.length = (origins actions).length ∧
    ∀ k status, (after actions).statuses[k]? = some status →
      (∃ first deadline, IsLeast {j | Relatives (origins actions) j k} first ∧
        Descends (origins actions) first k ∧
        (origins actions)[first]? = some (.created deadline) ∧
        (status.isDone = true ↔ deadline = some .elapsed ∨ RelativeCancelled actions k) ∧
        (status.hasDeadline = true ↔ deadline ≠ none)) ∧
      (∀ j, ¬ Relatives (origins actions) j k →
        (after (actions ++ [.cancel j])).statuses[k]? = some status) ∧
      (status.isDone = true → ∀ more, ∃ later,
        (after (actions ++ more)).statuses[k]? = some later ∧ later.isDone = true) := by
  have h := tracks_after actions
  refine ⟨fun n hn => getElem?_applyAll _ hn, by rw [statuses, List.length_map, h.length_eq], ?_⟩
  intro k status hstatus
  obtain ⟨c, hc, rfl⟩ := getElem?_statuses_eq_some_iff.mp hstatus
  refine ⟨?_, fun j hj => ?_, fun hdone more => ?_⟩
  · obtain ⟨f, hf⟩ := h.exists_founder hc
    refine ⟨f, c.deadline, ⟨hf.descends.relatives, fun j hj => ?_⟩, hf.descends, hf.created, ?_, ?_⟩
    · exact hf.first j c ((h.getElem?_of_relatives hj).trans hc) rfl
    · rw [isDone_status_iff, relativeCancelled_iff hc]
    · exact Option.isSome_iff_ne_none
  · rw [after_concat, getElem?_statuses_eq_some_iff]
    refine ⟨c, getElem?_of_prefix (contexts_prefix_apply _ _) hc, status_apply_cancel _ j ?_⟩
    exact fun b hb hfamily => hj (h.relatives_of_family hb hc hfamily)
  · obtain ⟨hcontexts, hcancelled⟩ := after_append actions more
    refine ⟨_, getElem?_statuses_eq_some_iff.mpr ⟨c, getElem?_of_prefix hcontexts hc, rfl⟩, ?_⟩
    rw [isDone_status_iff] at hdone ⊢
    exact hdone.imp_right (hcancelled c.family)

/-- Cancelling a copy reaches its original and what is copied from the original later. A context
whose time is up is done without being cancelled, and one with time left is not reached. -/
theorem cancellation_reaches_relatives_sibling :
    let actions : List Action :=
      [.timeout 0, .background, .clone 1, .cancel 2, .clone 1, .timeout 9]
    (after actions).statuses =
        [⟨true, true⟩, ⟨true, false⟩, ⟨true, false⟩, ⟨true, false⟩, ⟨false, true⟩] ∧
      ¬ RelativeCancelled actions 4 ∧
      ∃ first deadline, Descends (origins actions) first 3 ∧
        (origins actions)[first]? = some (.created deadline) ∧
        (deadline = some .elapsed ∨ RelativeCancelled actions 3) := by
  intro actions
  have hstatuses : (after actions).statuses =
      [⟨true, true⟩, ⟨true, false⟩, ⟨true, false⟩, ⟨true, false⟩, ⟨false, true⟩] := by decide
  obtain ⟨-, -, hshown⟩ := cancellation_reaches_relatives actions
  obtain ⟨⟨_, _, -, -, -, hlast, -⟩, -⟩ := hshown 4 ⟨false, true⟩ (by rw [hstatuses]; rfl)
  obtain ⟨⟨first, deadline, -, hdescends, hcreated, hdone, -⟩, -⟩ :=
    hshown 3 ⟨true, false⟩ (by rw [hstatuses]; rfl)
  have hreached : ¬ RelativeCancelled actions 4 := fun h => by simpa using hlast.mpr (.inr h)
  exact ⟨hstatuses, hreached, first, deadline, hdescends, hcreated, hdone.mp rfl⟩

end ContextPool
end Buildfile
