import Buildfile.Statement

/-! # Build files

A build file is a body of base statements followed by recipes. A recipe is a target name with the
statements that make the target. Names may repeat, and the first recipe of a name is the one that
a lookup finds.
-/

namespace Buildfile

/-- Statements in the order in which they are written. -/
structure Body where
  statements : List Statement := []
deriving DecidableEq, Repr

namespace Body

def isEmpty (b : Body) : Bool := b.statements.isEmpty

/-- The range that covers every statement whose range is known. -/
def range (b : Body) : SourceRange :=
  b.statements.foldl (fun covered s => covered.merge s.range) .unknown

end Body

/-- A recipe is placed where its statements are, unless it is given another place. -/
structure Recipe where
  name : String
  body : Body
  range : SourceRange := body.range
deriving DecidableEq, Repr

structure Document where
  base : Body := {}
  recipes : List Recipe := []
deriving DecidableEq, Repr

namespace Document

def withBase (d : Document) (statements : List Statement) : Document :=
  { d with base := ⟨statements⟩ }

/-- Appends a recipe, which gets the range of its body. -/
def withRecipe (d : Document) (name : String) (statements : List Statement) : Document :=
  let body : Body := ⟨statements⟩
  { d with recipes := d.recipes ++ [{ name, body, range := body.range }] }

def indexOf? (d : Document) (name : String) : Option Nat :=
  d.recipes.findIdx? (·.name == name)

/-- The first recipe with a name. -/
def recipe? (d : Document) (name : String) : Option Recipe :=
  d.recipes.find? (·.name == name)

end Document
end Buildfile
