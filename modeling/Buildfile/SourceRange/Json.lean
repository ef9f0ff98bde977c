import Buildfile.Json.Record
import Buildfile.SourceRange.Basic

/-! # The JSON form of a place

A range is a record of its four numbers, each of which fits into 32 bits.
-/

namespace Buildfile.SourceRange

def entries (r : SourceRange) : List (String × Nat) :=
  [("start_line", r.start.line), ("start_col", r.start.column), ("end_line", r.stop.line),
    ("end_col", r.stop.column)]

/-- The greatest number that fits into 32 bits. -/
def greatestNumber : Nat := 4294967295

def fields : List (Json.Field Nat) :=
  unknown.entries.map fun (name, _) => ⟨name, Json.count greatestNumber⟩

def ofEntries? (found : List (String × Nat)) : Option SourceRange := do
  let start := ⟨← found.lookup "start_line", ← found.lookup "start_col"⟩
  let stop := ⟨← found.lookup "end_line", ← found.lookup "end_col"⟩
  return ⟨start, stop⟩

/-- Reads a range. Keys that name no number of it are ignored. -/
def parse (source : String) : Except Json.Fault SourceRange :=
  Json.readAll (Json.record fields .skip ofEntries?) source

end Buildfile.SourceRange
