import Buildfile.Duration.Reader
import Buildfile.Flag.Basic
import Buildfile.Text.Cut

/-! # Reading the flags of a statement

The words of a statement are read from the left as occurrences of flags, up to the first word that
is no flag or a double dash. A flag starts with one or two dashes. A switch may carry a boolean
after an equals sign, and any other flag takes its value from after an equals sign or from the next
word, whatever that is.
-/

namespace Buildfile
namespace Flag

/-- What a word is at the place of a flag. -/
inductive Form where
  /-- The word and all after it are arguments. -/
  | argument
  /-- All words after it are arguments. -/
  | terminator
  | malformed
  /-- A flag, with a value if it has an equals sign. -/
  | occurrence (name : String) (value : Option String)
deriving DecidableEq, Repr

def formOfBody (body : List Char) : Form :=
  match body with
  | [] => .malformed
  | c :: _ =>
    if c = '-' ∨ c = '=' then .malformed
    else
      match Text.cutFirst '=' body with
      | some (name, value) => .occurrence (String.ofList name) (some (String.ofList value))
      | none => .occurrence (String.ofList body) none

def form (word : String) : Form :=
  match word.toList with
  | ['-'] => .argument
  | ['-', '-'] => .terminator
  | '-' :: '-' :: body => formOfBody body
  | '-' :: body => formOfBody body
  | _ => .argument

def readSwitch? : String → Option Bool
  | "1" | "t" | "T" | "true" | "TRUE" | "True" => some true
  | "0" | "f" | "F" | "false" | "FALSE" | "False" => some false
  | _ => none

/-- The values of flags, of which the first entry with a name counts. -/
abbrev Values := List (String × Value)

/-- The values before any flag occurs, of which the last declaration of a name counts. -/
def initialValues (flags : List Flag) : Values :=
  (flags.map fun f => (f.name, f.kind.initial)).reverse

/-- Reads a duration, given a reader of durations with units. A zero alone needs no unit. -/
def readDuration? (units : String → Option Duration) (raw : String) : Option Duration :=
  if raw = "0" then some .zero else units raw

def Kind.read (kind : Kind) (name raw : String) (values : Values)
    (units : String → Option Duration) : Except Fault Value :=
  match kind with
  | .switch =>
    match readSwitch? raw with
    | some on => .ok (.switch on)
    | none => .error (.badBoolean raw name)
  | .text => .ok (.text raw)
  | .list =>
    match values.lookup name with
    | some (.list earlier) => .ok (.list (earlier ++ [raw]))
    | _ => .ok (.list [raw])
  | .duration _ =>
    match readDuration? units raw with
    | some value => .ok (.duration value)
    | none => .error (.badDuration raw name)
  | .integer _ =>
    match Text.readInteger raw with
    | .ok value => .ok (.integer value)
    | .error fault => .error (.badInteger raw name fault)

/-- What the words of a statement mean: the values of its flags and its arguments. -/
structure Reading where
  values : Values
  arguments : List String
deriving DecidableEq, Repr

/-- Reads words after some flags have got their values. -/
def readFrom (units : String → Option Duration) (flags : List Flag) :
    Values → List String → Except Fault Reading
  | values, [] => .ok ⟨values, []⟩
  | values, word :: rest =>
    match form word with
    | .argument => .ok ⟨values, word :: rest⟩
    | .terminator => .ok ⟨values, rest⟩
    | .malformed => .error (.badSyntax word)
    | .occurrence name written =>
      match flags.find? (·.name == name) with
      | none => .error (.undefined name)
      | some flag =>
        match written with
        | some raw =>
          match flag.kind.read name raw values units with
          | .error fault => .error fault
          | .ok value => readFrom units flags ((name, value) :: values) rest
        | none =>
          if flag.kind = .switch then readFrom units flags ((name, .switch true) :: values) rest
          else
            match rest with
            | [] => .error (.needsValue name)
            | raw :: rest =>
              match flag.kind.read name raw values units with
              | .error fault => .error fault
              | .ok value => readFrom units flags ((name, value) :: values) rest

def read (flags : List Flag) (words : List String)
    (units : String → Option Duration := Duration.parse?) : Except Fault Reading :=
  readFrom units flags (initialValues flags) words

namespace Reading

def switch (r : Reading) (name : String) : Bool :=
  match r.values.lookup name with
  | some (.switch on) => on
  | _ => false

def text (r : Reading) (name : String) : String :=
  match r.values.lookup name with
  | some (.text value) => value
  | _ => ""

def list (r : Reading) (name : String) : List String :=
  match r.values.lookup name with
  | some (.list values) => values
  | _ => []

def duration (r : Reading) (name : String) : Duration :=
  match r.values.lookup name with
  | some (.duration value) => value
  | _ => .zero

def integer (r : Reading) (name : String) : Int :=
  match r.values.lookup name with
  | some (.integer value) => value
  | _ => 0

end Reading
end Flag
end Buildfile
