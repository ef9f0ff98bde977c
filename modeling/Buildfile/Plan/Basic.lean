import Buildfile.Expansion
import Buildfile.Refusal

/-! # Plans of statements

A plan says what a statement does as a whole: the calls that it makes and the modes that it leaves
behind if all of them succeed. A statement that is to be refused has no plan. Plans are made from
what a statement can see and touch nothing. The handlers of statements work in place and come to the
same end.
-/

namespace Buildfile

/-- What the events of a statement have gathered. -/
structure Operands where
  /-- The words without their line continuations, or the strings of a JSON array. -/
  words : List String := []
  isArray : Bool := false
  key : String := ""
  value : String := ""
  labelKeys : List String := []
  labelValues : List String := []
deriving DecidableEq, Repr

/-- A statement whose arguments are complete. -/
structure Invocation where
  keyword : Keyword
  text : String
  operands : Operands
deriving DecidableEq, Repr

/-- What a plan depends on besides its statement. -/
structure Scope where
  substitute : String → String
  /-- A push has succeeded, and only pushes may follow. -/
  pushOnly : Bool
  block : DockerBlock
  inBase : Bool

structure Plan where
  /-- What a failure of the builder is about. -/
  context : String := ""
  calls : List Call := []
  /-- The block after the statement. -/
  block : DockerBlock
  /-- Only pushes may follow once the calls have succeeded. -/
  push : Bool := false
  /-- The statement is a deprecated form without effect. -/
  redundant : Bool := false
deriving DecidableEq, Repr

namespace Invocation

def words (i : Invocation) : List String := i.operands.words

def read (i : Invocation) (flags : List Flag) : Except Refusal Flag.Reading :=
  (Flag.read flags i.words).mapError (.flags i.keyword i.words)

end Invocation

namespace Scope

def literal (s : Scope) (word : String) : String := Expansion.literal.expand s.substitute word

def literals (s : Scope) (words : List String) : List String := words.map s.literal

def reference (s : Scope) (word : String) : String := Expansion.reference.expand s.substitute word

def references (s : Scope) (words : List String) : List String := words.map s.reference

/-- Refuses a statement that does not push after one that did. -/
def allow (s : Scope) (i : Invocation) : Except Refusal Unit :=
  if s.pushOnly then .error (.afterPush i.text) else .ok ()

theorem allow_of_fresh {s : Scope} (h : s.pushOnly = false) (i : Invocation) :
    s.allow i = .ok () := by
  rw [allow, h]
  rfl

/-- The platform that a flag gives, if it gives any. -/
def platform (s : Scope) (raw : String) : Except Refusal (Option Platform) :=
  let specifier := s.literal raw
  if specifier.isEmpty then .ok none
  else
    match Platform.parse specifier with
    | .ok p => .ok (some p)
    | .error fault => .error (.platform specifier fault)

/-- The plan of a statement that makes calls and keeps the modes. -/
def issue (s : Scope) (context : String) (calls : List Call) : Plan :=
  { context, calls, block := s.block }

end Scope
end Buildfile
