import Buildfile.Duration.Basic
import Buildfile.Text.Integer
import Buildfile.Text.Quoted

/-! # Flags

A statement declares the flags it takes, each with the kind of its value. A flag that does not
occur has the initial value of its kind, and a value that does not fit is a fault with a message.
-/

namespace Buildfile

inductive Flag.Kind where
  /-- A boolean, false unless the flag occurs. -/
  | switch
  /-- A text, of which the last occurrence counts. -/
  | text
  /-- All texts in order of occurrence. -/
  | list
  | duration (default : Duration)
  | integer (default : Int)
deriving DecidableEq, Repr

structure Flag where
  name : String
  kind : Flag.Kind
deriving DecidableEq, Repr

namespace Flag

def switch (name : String) : Flag := ⟨name, .switch⟩
def text (name : String) : Flag := ⟨name, .text⟩
def list (name : String) : Flag := ⟨name, .list⟩
def duration (name : String) (default : Duration) : Flag := ⟨name, .duration default⟩
def integer (name : String) (default : Int) : Flag := ⟨name, .integer default⟩

inductive Value where
  | switch (on : Bool)
  | text (value : String)
  | list (values : List String)
  | duration (value : Duration)
  | integer (value : Int)
deriving DecidableEq, Repr

/-- The value of a flag that does not occur. -/
def Kind.initial : Kind → Value
  | .switch => .switch false
  | .text => .text ""
  | .list => .list []
  | .duration default => .duration default
  | .integer default => .integer default

inductive Fault where
  | badSyntax (word : String)
  | undefined (name : String)
  | badBoolean (raw name : String)
  | needsValue (name : String)
  | badInteger (raw name : String) (fault : Text.IntegerFault)
  | badDuration (raw name : String)
deriving DecidableEq, Repr

namespace Fault

def invalidValue (raw name detail : String) : String :=
  s!"invalid value {Text.quote raw} for flag -{name}: {detail}"

def message : Fault → String
  | badSyntax word => s!"bad flag syntax: {word}"
  | undefined name => s!"flag provided but not defined: -{name}"
  | badBoolean raw name => s!"invalid boolean value {Text.quote raw} for -{name}"
  | needsValue name => s!"flag needs an argument: -{name}"
  | badInteger raw name fault => invalidValue raw name fault.message
  | badDuration raw name => invalidValue raw name "invalid duration"

end Fault

end Flag
end Buildfile
