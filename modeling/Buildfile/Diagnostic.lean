import Buildfile.Json.Record
import Buildfile.Problem

/-! # Diagnostics

A diagnostic is the category and the message of a problem, for tools that read JSON.
-/

namespace Buildfile

structure Diagnostic where
  category : Category
  message : String
deriving DecidableEq, Repr

def Problem.diagnostic (p : Problem) : Diagnostic := ⟨p.category, p.message⟩

namespace Diagnostic

/-- The JSON text of a diagnostic, without blank characters. -/
def json (d : Diagnostic) : String :=
  String.ofList <| Json.writeRecord
    [("category", Json.write d.category.tag.toList), ("message", Json.write d.message.toList)]

inductive Part where
  | category (c : Category)
  | message (m : String)

def fields : List (Json.Field Part) :=
  [⟨"category", fun text => do
      let (c, rest) ← Json.variant Category.ofTag? text
      return (.category c, rest)⟩,
    ⟨"message", fun text => do
      let (m, rest) ← Json.text text
      return (.message m, rest)⟩]

def ofParts? (parts : List (String × Part)) : Option Diagnostic :=
  match parts.lookup "category", parts.lookup "message" with
  | some (.category c), some (.message m) => some ⟨c, m⟩
  | _, _ => none

/-- Reads a diagnostic. Keys that name no field are ignored. -/
def parse (source : String) : Except Json.Fault Diagnostic :=
  Json.readAll (Json.record fields .skip ofParts?) source

end Diagnostic
end Buildfile
