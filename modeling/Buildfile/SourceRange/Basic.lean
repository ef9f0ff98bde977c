/-! # Places in a build file

Lines and columns count from one. A range that starts on line zero is unknown and is ignored when
ranges are merged, whatever its other numbers are.
-/

namespace Buildfile

structure Position where
  line : Nat
  column : Nat
deriving DecidableEq, Repr

namespace Position

/-- Reading order compares lines first and columns second. -/
def before (p q : Position) : Prop := p.line < q.line ∨ (p.line = q.line ∧ p.column ≤ q.column)

instance (p q : Position) : Decidable (p.before q) := by unfold before; infer_instance

def earlier (p q : Position) : Position := if p.before q then p else q

def later (p q : Position) : Position := if p.before q then q else p

end Position

structure SourceRange where
  start : Position
  stop : Position
deriving DecidableEq, Repr

namespace SourceRange

def unknown : SourceRange := ⟨⟨0, 0⟩, ⟨0, 0⟩⟩

instance : Inhabited SourceRange := ⟨unknown⟩

def ofLine (line : Nat) : SourceRange := ⟨⟨line, 1⟩, ⟨line, 1⟩⟩

def isUnknown (r : SourceRange) : Bool := r.start.line == 0

/-- The smallest range that covers both, of which an unknown one covers nothing. -/
def merge (r s : SourceRange) : SourceRange :=
  if r.isUnknown then s
  else if s.isUnknown then r
  else ⟨r.start.earlier s.start, r.stop.later s.stop⟩

def merges (r : SourceRange) : List SourceRange → List SourceRange
  | [] => []
  | s :: rest => r.merge s :: merges (r.merge s) rest

/-- The line and column where the range starts, or a question mark if it is unknown. -/
def text (r : SourceRange) : String :=
  if r.isUnknown then "?" else s!"{r.start.line}:{r.start.column}"

theorem merge_of_isUnknown_left {r s : SourceRange} (h : r.isUnknown = true) :
    r.merge s = s := by simp [merge, h]

theorem merge_of_isUnknown_right {r s : SourceRange} (hr : r.isUnknown = false)
    (hs : s.isUnknown = true) : r.merge s = r := by simp [merge, hr, hs]

end SourceRange
end Buildfile
