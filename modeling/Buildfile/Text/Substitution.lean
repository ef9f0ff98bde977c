import Buildfile.Text.Identifier

/-! # Substitution of variables in a word

A dollar sign and the longest run of name characters after it stand for the value of a variable,
and a dollar sign without a name stands for itself. A backslash is dropped and the character after
it is kept as it is. Inserted values are not looked at again.
-/

namespace Buildfile.Text

/-- The values of the variables, of which an unset one has none. -/
abbrev Variables := String → Option String

def reference (vars : Variables) (name : List Char) : List Char :=
  if name.isEmpty then ['$'] else ((vars (String.ofList name)).getD "").toList

/-- Substitutes in a text whose first `skip` characters are a name that was already read. -/
def substituteFrom (vars : Variables) : Nat → List Char → List Char
  | _, [] => []
  | skip + 1, _ :: rest => substituteFrom vars skip rest
  | 0, ['\\'] => []
  | 0, '\\' :: c :: rest => c :: substituteFrom vars 0 rest
  | 0, c :: rest =>
    if c = '$' then
      let name := rest.takeWhile isNameChar
      reference vars name ++ substituteFrom vars name.length rest
    else c :: substituteFrom vars 0 rest

def substitute (vars : Variables) (word : String) : String :=
  String.ofList (substituteFrom vars 0 word.toList)

end Buildfile.Text
