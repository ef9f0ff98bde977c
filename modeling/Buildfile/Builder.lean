import Buildfile.Call
import Buildfile.Cancellation
import Buildfile.Problem
import Buildfile.Text.Substitution

/-! # Builders

A builder substitutes variables in words and carries out calls. Both may depend on the calls that
it carried out before, and a call may fail.
-/

namespace Buildfile

structure Builder where
  /-- Substitutes variables in a word, after the calls that were carried out. -/
  substitute : List Call → String → String
  /-- Answers a call, after the calls that were carried out, with a failure or with none. -/
  reply : ContextStatus → List Call → Call → Option Failure

/-- Which calls are refused, and with what failure. -/
structure RefusalRule where
  /-- The operation that is refused, or none if every operation is. -/
  operation : Option Operation
  /-- The only one of those calls that is refused, counted from one, or none if all are. -/
  occurrence : Option Nat
  failure : Option Failure
deriving DecidableEq, Repr

namespace RefusalRule

def covers (r : RefusalRule) (c : Call) : Bool :=
  match r.operation with
  | some operation => c.operation == operation
  | none => true

def reply (r : RefusalRule) (history : List Call) (c : Call) : Option Failure :=
  let isDue :=
    match r.occurrence with
    | some n => n == history.countP r.covers + 1
    | none => true
  if r.covers c && isDue then
    some (r.failure.getD { message := s!"{c.operation.name} rejected by builder" })
  else none

end RefusalRule

/-- A builder with a fixed substitution that refuses the calls of a rule. -/
def Builder.scripted (substitute : String → String) (rule : Option RefusalRule) : Builder where
  substitute _ := substitute
  reply _ history c := rule.bind fun r => r.reply history c

end Buildfile
