import Buildfile.Plan.Basic

/-! # Statements that describe the image

The working directory, the user, ports, volumes, variables and labels of an image.
-/

namespace Buildfile

/-- Enters a label into a list that is sorted by key, in place of a label with the same key. -/
def insertLabel (key value : String) : List (String × String) → List (String × String)
  | [] => [(key, value)]
  | (k, v) :: rest =>
    if key < k then (key, value) :: (k, v) :: rest
    else if key = k then (key, value) :: rest
    else (k, v) :: insertLabel key value rest

/-- The labels sorted by key, of which the last one with a key counts. -/
def sortLabels (labels : List (String × String)) : List (String × String) :=
  labels.foldl (fun sorted label => insertLabel label.1 label.2 sorted) []

/-- A label has the value that was entered last, and entering it touches no other label. -/
theorem lookup_insertLabel (key value k : String) (labels : List (String × String)) :
    (insertLabel key value labels).lookup k =
      if k = key then some value else labels.lookup k := by
  induction labels with
  | nil =>
    by_cases h : k = key
    · simp [insertLabel, h]
    · simp [insertLabel, List.lookup_cons, h, beq_eq_false_iff_ne.mpr h]
  | cons label rest ih =>
    obtain ⟨k', v'⟩ := label
    rw [insertLabel]
    split
    · by_cases h : k = key
      · simp [h]
      · simp [List.lookup_cons, h, beq_eq_false_iff_ne.mpr h]
    · split
      · next hk =>
        by_cases h : k = key
        · simp [h]
        · simp [List.lookup_cons, h, beq_eq_false_iff_ne.mpr h, ← hk]
      · next hk =>
        by_cases h : k = k'
        · simp [h, Ne.symm hk]
        · simp [List.lookup_cons, beq_eq_false_iff_ne.mpr h, ih]

namespace Scope

def singleWord (s : Scope) (i : Invocation) : Except Refusal String :=
  match i.words with
  | [word] => .ok (s.literal word)
  | _ => .error (.wordCount i.keyword i.text)

def someWords (s : Scope) (i : Invocation) : Except Refusal (List String) :=
  if i.words.isEmpty then .error (.noArguments i.keyword) else .ok (s.literals i.words)

def planWord (s : Scope) (context : String) (call : String → Call) (i : Invocation) :
    Except Refusal Plan := do
  s.allow i
  return s.issue context [call (← s.singleWord i)]

def planWords (s : Scope) (context : String) (call : List String → Call) (i : Invocation) :
    Except Refusal Plan := do
  s.allow i
  return s.issue context [call (← s.someWords i)]

def planEnv (s : Scope) (i : Invocation) : Except Refusal Plan := do
  s.allow i
  return s.issue "env" [.env i.operands.key (s.literal i.operands.value)]

/-- The value may name a target, so its markers stay escaped. Variables of the base target are
global. -/
def planArg (s : Scope) (i : Invocation) : Except Refusal Plan := do
  s.allow i
  return s.issue "arg" [.arg i.operands.key (s.reference i.operands.value) s.inBase]

def planLabel (s : Scope) (i : Invocation) : Except Refusal Plan := do
  s.allow i
  let keys := i.operands.labelKeys
  let values := i.operands.labelValues
  if keys.isEmpty then .error (.noLabels i.text)
  else if keys.length ≠ values.length then .error (.unevenLabels i.text)
  else
    return s.issue "label" [.label (sortLabels ((s.literals keys).zip (s.literals values)))]

end Scope
end Buildfile
