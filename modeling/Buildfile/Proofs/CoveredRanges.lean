import Buildfile.Document
import Mathlib.Data.List.Induction
import Mathlib.Data.Prod.Lex
import Mathlib.Order.Bounds.Basic
import Mathlib.Order.MinMax

/-! # What the range of a body covers

Places are ordered as pairs, so two known ranges merge into the earlier start and the later stop.
An unknown range is recognised by its first line alone and may carry any other numbers. The range of
a body starts where the first of its known statements starts and stops where the last of them stops,
in whatever order they are written.
-/

namespace Buildfile
namespace Position

theorem before_iff (p q : Position) :
    p.before q ↔ toLex (p.line, p.column) ≤ toLex (q.line, q.column) := by
  rw [Prod.Lex.toLex_le_toLex]
  rfl

instance : LinearOrder Position where
  le := before
  le_refl p := (before_iff p p).mpr le_rfl
  le_trans p q r hpq hqr := by
    rw [before_iff] at hpq hqr ⊢
    exact hpq.trans hqr
  le_antisymm p q hpq hqp := by
    rw [before_iff] at hpq hqp
    obtain ⟨hline, hcolumn⟩ := Prod.mk.inj (toLex_inj.mp (hpq.antisymm hqp))
    cases p
    cases q
    exact congrArg₂ Position.mk hline hcolumn
  le_total p q := by
    rw [before_iff, before_iff]
    exact le_total _ _
  toDecidableLE p q := inferInstanceAs (Decidable (p.before q))
  min := earlier
  max := later
  min_def _ _ := rfl
  max_def _ _ := rfl

end Position

namespace SourceRange
variable {r s : SourceRange} {rs : List SourceRange}

/-! ## Two ranges -/

theorem merge_of_known (hr : r.isUnknown = false) (hs : s.isUnknown = false) :
    r.merge s = ⟨min r.start s.start, max r.stop s.stop⟩ := by
  rw [merge, hr, hs]
  rfl

theorem isUnknown_merge (r s : SourceRange) :
    (r.merge s).isUnknown = (r.isUnknown && s.isUnknown) := by
  cases hr : r.isUnknown with
  | true => rw [merge_of_isUnknown_left hr, Bool.true_and]
  | false =>
    cases hs : s.isUnknown with
    | true => rw [merge_of_isUnknown_right hr hs, hr, Bool.false_and]
    | false =>
      rw [merge_of_known hr hs]
      rcases min_choice r.start s.start with hmin | hmin
      · rw [isUnknown, hmin]
        exact hr
      · rw [isUnknown, hmin]
        exact hs

theorem merge_assoc (r s t : SourceRange) : (r.merge s).merge t = r.merge (s.merge t) := by
  cases hr : r.isUnknown with
  | true => rw [merge_of_isUnknown_left hr, merge_of_isUnknown_left hr]
  | false =>
    have hrs : (r.merge s).isUnknown = false := by rw [isUnknown_merge, hr, Bool.false_and]
    cases hs : s.isUnknown with
    | true => rw [merge_of_isUnknown_right hr hs, merge_of_isUnknown_left hs]
    | false =>
      cases ht : t.isUnknown with
      | true => rw [merge_of_isUnknown_right hrs ht, merge_of_isUnknown_right hs ht]
      | false =>
        have hst : (s.merge t).isUnknown = false := by rw [isUnknown_merge, hs, Bool.false_and]
        rw [merge_of_known hrs ht, merge_of_known hr hst, merge_of_known hr hs,
          merge_of_known hs ht, min_assoc, max_assoc]

/-- Of two unknown ranges the second one is left, so the order matters where neither is known. -/
theorem merge_comm (h : r.isUnknown = false ∨ s.isUnknown = false) : r.merge s = s.merge r := by
  cases hr : r.isUnknown with
  | true =>
    have hs : s.isUnknown = false := h.resolve_left (by simp [hr])
    rw [merge_of_isUnknown_left hr, merge_of_isUnknown_right hs hr]
  | false =>
    cases hs : s.isUnknown with
    | true => rw [merge_of_isUnknown_right hr hs, merge_of_isUnknown_left hs]
    | false => rw [merge_of_known hr hs, merge_of_known hs hr, min_comm, max_comm]

example : merge ⟨⟨0, 1⟩, ⟨0, 0⟩⟩ unknown ≠ merge unknown ⟨⟨0, 1⟩, ⟨0, 0⟩⟩ := by decide

/-! ## Several ranges -/

/-- Where the known ones among several ranges have one of their ends. -/
def ends (edge : SourceRange → Position) (rs : List SourceRange) : Set Position :=
  {p | ∃ r ∈ rs, r.isUnknown = false ∧ edge r = p}

/-- A known range starts where the first known one of several starts and stops where the last one
stops. -/
structure Covers (r : SourceRange) (rs : List SourceRange) : Prop where
  known : r.isUnknown = false
  start : IsLeast (ends SourceRange.start rs) r.start
  stop : IsGreatest (ends SourceRange.stop rs) r.stop

theorem ends_append_of_known (edge : SourceRange → Position) (hs : s.isUnknown = false) :
    ends edge (rs ++ [s]) = insert (edge s) (ends edge rs) := by
  ext p
  constructor
  · rintro ⟨r, hr, hknown, rfl⟩
    rcases List.mem_append.mp hr with hr | hr
    · exact .inr ⟨r, hr, hknown, rfl⟩
    · exact .inl (by rw [List.mem_singleton.mp hr])
  · rintro (rfl | ⟨r, hr, hknown, rfl⟩)
    · exact ⟨s, by simp, hs, rfl⟩
    · exact ⟨r, List.mem_append_left _ hr, hknown, rfl⟩

theorem ends_append_of_isUnknown (edge : SourceRange → Position) (hs : s.isUnknown = true) :
    ends edge (rs ++ [s]) = ends edge rs := by
  ext p
  simp [ends, or_and_right, exists_or, hs]

theorem ends_of_all_isUnknown (edge : SourceRange → Position)
    (h : ∀ r ∈ rs, r.isUnknown = true) : ends edge rs = ∅ := by
  ext p
  constructor
  · rintro ⟨r, hr, hknown, -⟩
    exact absurd (h r hr) (by simp [hknown])
  · exact False.elim

/-- Only one range covers several others, and the known ones among them determine it. -/
theorem Covers.eq_of_ends {qs : List SourceRange} (hr : Covers r rs) (hs : Covers s qs)
    (h : ∀ edge, ends edge rs = ends edge qs) : r = s := by
  have hstart : r.start = s.start := hr.start.unique (h _ ▸ hs.start)
  have hstop : r.stop = s.stop := hr.stop.unique (h _ ▸ hs.stop)
  cases r
  cases s
  exact congrArg₂ SourceRange.mk hstart hstop

theorem Covers.merge (h : Covers r rs) (s : SourceRange) : Covers (r.merge s) (rs ++ [s]) := by
  cases hs : s.isUnknown with
  | true =>
    rw [merge_of_isUnknown_right h.known hs]
    constructor
    · exact h.known
    · rw [ends_append_of_isUnknown _ hs]
      exact h.start
    · rw [ends_append_of_isUnknown _ hs]
      exact h.stop
  | false =>
    constructor
    · rw [isUnknown_merge, h.known, Bool.false_and]
    · rw [ends_append_of_known _ hs, merge_of_known h.known hs, min_comm]
      exact h.start.insert s.start
    · rw [ends_append_of_known _ hs, merge_of_known h.known hs, max_comm]
      exact h.stop.insert s.stop

theorem covers_of_known (h : ∀ r ∈ rs, r.isUnknown = true) (hs : s.isUnknown = false) :
    Covers s (rs ++ [s]) := by
  constructor
  · exact hs
  · rw [ends_append_of_known _ hs, ends_of_all_isUnknown _ h, insert_empty_eq]
    exact isLeast_singleton
  · rw [ends_append_of_known _ hs, ends_of_all_isUnknown _ h, insert_empty_eq]
    exact isGreatest_singleton

/-- Ranges are merged one by one: all are unknown so far, or what is merged covers them. -/
theorem foldl_merge_cases (rs : List SourceRange) :
    ((∀ r ∈ rs, r.isUnknown = true) ∧ (rs.foldl SourceRange.merge unknown).isUnknown = true) ∨
      ((∃ r ∈ rs, r.isUnknown = false) ∧ Covers (rs.foldl SourceRange.merge unknown) rs) := by
  induction rs using List.reverseRecOn with
  | nil => exact .inl ⟨by simp, rfl⟩
  | append_singleton rs s ih =>
    rw [List.foldl_append, List.foldl_cons, List.foldl_nil]
    rcases ih with ⟨hall, hfold⟩ | ⟨⟨r, hr, hknown⟩, hcovers⟩
    · rw [merge_of_isUnknown_left hfold]
      cases hs : s.isUnknown with
      | true => exact .inl ⟨by simpa [or_imp, forall_and, hs] using hall, rfl⟩
      | false => exact .inr ⟨⟨s, by simp, hs⟩, covers_of_known hall hs⟩
    · exact .inr ⟨⟨r, List.mem_append_left _ hr, hknown⟩, hcovers.merge s⟩

end SourceRange

/-! ## Bodies -/

namespace Body
open SourceRange

def placed (b : Body) : List Statement := b.statements.filter fun t => !t.range.isUnknown

def ranges (b : Body) : List SourceRange := b.statements.map (·.range)

theorem range_eq (b : Body) : b.range = b.ranges.foldl SourceRange.merge .unknown := by
  rw [range, ranges, List.foldl_map]

theorem mem_ends_ranges_iff (b : Body) (edge : SourceRange → Position) (p : Position) :
    p ∈ ends edge b.ranges ↔ ∃ t ∈ b.placed, edge t.range = p := by
  simp [ends, ranges, placed, and_assoc]

theorem covers_ranges {b : Body} {t : Statement} (ht : t ∈ b.statements)
    (hknown : t.range.isUnknown = false) : Covers b.range b.ranges := by
  rw [range_eq]
  rcases foldl_merge_cases b.ranges with ⟨hall, -⟩ | ⟨-, hcovers⟩
  · exact absurd (hall t.range (List.mem_map_of_mem ht)) (by simp [hknown])
  · exact hcovers

/-- Merging is associative, and commutative unless both ranges are unknown. The range of a body with
a statement at a known place covers all statements at known places, and neither their order nor the
other statements matter to it. Without such a statement it is unknown. A recipe that is appended
with these statements is placed there. -/
theorem ranges_cover_statements (b : Body) :
    (∀ r s t : SourceRange, (r.merge s).merge t = r.merge (s.merge t)) ∧
    (∀ r s : SourceRange, r.isUnknown = false ∨ s.isUnknown = false → r.merge s = s.merge r) ∧
    ((∃ t ∈ b.statements, t.range.isUnknown = false) →
      Covers b.range b.ranges ∧
      ∀ c : Body, c.placed.Perm b.placed → c.range = b.range) ∧
    ((∀ t ∈ b.statements, t.range.isUnknown = true) → b.range.isUnknown = true) ∧
    ∀ (d : Document) (name : String), ∃ r : Recipe,
      (d.withRecipe name b.statements).recipes = d.recipes ++ [r] ∧ r.name = name ∧ r.body = b ∧
        r.range = b.range := by
  refine ⟨merge_assoc, fun r s => merge_comm, ?_, ?_, fun d name => ⟨_, rfl, rfl, rfl, rfl⟩⟩
  · rintro ⟨t, ht, hknown⟩
    refine ⟨covers_ranges ht hknown, fun c hc => ?_⟩
    have hmem : t ∈ c.placed := hc.mem_iff.mpr (List.mem_filter.mpr ⟨ht, by simp [hknown]⟩)
    apply (covers_ranges (List.mem_filter.mp hmem).1 hknown).eq_of_ends (covers_ranges ht hknown)
    intro edge
    ext p
    simp only [mem_ends_ranges_iff, hc.mem_iff]
  · intro hall
    rw [range_eq]
    rcases foldl_merge_cases b.ranges with ⟨-, hunknown⟩ | ⟨⟨r, hr, hknown⟩, -⟩
    · exact hunknown
    · obtain ⟨t, ht, rfl⟩ := List.mem_map.mp hr
      exact absurd (hall t ht) (by simp [hknown])

/-- A first line of zero hides the numbers after it, and a later column on an earlier line comes
first. A recipe with these statements is placed where its body is. -/
theorem ranges_cover_statements_mixed :
    let put (r : SourceRange) : Statement := (Statement.ofWords .workdir ["/srv"]).placed r
    let hidden : SourceRange := ⟨⟨0, 7⟩, ⟨99, 1⟩⟩
    let b : Body :=
      ⟨[put hidden, put ⟨⟨5, 5⟩, ⟨5, 9⟩⟩, put ⟨⟨2, 8⟩, ⟨4, 1⟩⟩, put ⟨⟨5, 1⟩, ⟨5, 30⟩⟩]⟩
    let c : Body :=
      ⟨[put ⟨⟨2, 8⟩, ⟨4, 1⟩⟩, put ⟨⟨5, 5⟩, ⟨5, 9⟩⟩, put .unknown, put ⟨⟨5, 1⟩, ⟨5, 30⟩⟩]⟩
    let e : Body := ⟨[put .unknown, put hidden]⟩
    hidden.merge (.ofLine 3) = (SourceRange.ofLine 3).merge hidden ∧
      b.range = ⟨⟨2, 8⟩, ⟨5, 30⟩⟩ ∧ Covers b.range b.ranges ∧
      c.placed.Perm b.placed ∧ c.range = b.range ∧
      (∃ r, (Document.withRecipe {} "build" b.statements).recipes = [r] ∧
        r.range = ⟨⟨2, 8⟩, ⟨5, 30⟩⟩) ∧
      (∀ t ∈ e.statements, t.range.isUnknown = true) ∧ e.range.isUnknown = true := by
  intro put hidden b c e
  obtain ⟨-, hcomm, hknown, -, hrecipe⟩ := ranges_cover_statements b
  obtain ⟨-, -, -, hunknown, -⟩ := ranges_cover_statements e
  obtain ⟨hcovers, hsame⟩ := hknown ⟨put ⟨⟨5, 5⟩, ⟨5, 9⟩⟩, by simp [b], rfl⟩
  have hperm : c.placed.Perm b.placed := by decide
  have hall : ∀ t ∈ e.statements, t.range.isUnknown = true := by decide
  have hrange : b.range = ⟨⟨2, 8⟩, ⟨5, 30⟩⟩ := by decide
  obtain ⟨r, hrecipes, -, -, hplace⟩ := hrecipe {} "build"
  exact ⟨hcomm _ _ (.inr rfl), hrange, hcovers, hperm, hsame c hperm,
    ⟨r, hrecipes, hplace.trans hrange⟩, hall, hunknown hall⟩

end Body
end Buildfile
