import Buildfile.Handler.Basic
import Buildfile.Plan.Metadata

/-! # Handlers of statements that describe the image -/

namespace Buildfile.Session
open Handler

def applyWord (s : Session) (context : String) (call : String → Call) (i : Invocation) :
    Handler Unit := do
  s.allow i
  let word ← check (← s.look (·.singleWord i))
  s.ask context (call word)

/-- Asks for a call on all words of the statement, of which there is at least one. -/
def applyWords (s : Session) (context : String) (call : List String → Call) (i : Invocation) :
    Handler Unit := do
  s.allow i
  let words ← check (← s.look (·.someWords i))
  s.ask context (call words)

def applyEnv (s : Session) (i : Invocation) : Handler Unit := do
  s.allow i
  let value ← s.literal i.operands.value
  s.ask "env" (.env i.operands.key value)

def applyArg (s : Session) (i : Invocation) : Handler Unit := do
  s.allow i
  let value ← s.reference i.operands.value
  let isGlobal ← s.look (·.inBase)
  s.ask "arg" (.arg i.operands.key value isGlobal)

def applyLabel (s : Session) (i : Invocation) : Handler Unit := do
  s.allow i
  if i.operands.labelKeys.isEmpty then refuse (.noLabels i.text)
  else if i.operands.labelKeys.length ≠ i.operands.labelValues.length then
    refuse (.unevenLabels i.text)
  else
    let keys ← s.literals i.operands.labelKeys
    let values ← s.literals i.operands.labelValues
    s.ask "label" (.label (sortLabels (keys.zip values)))

end Buildfile.Session
