/-! # Identifiers

An identifier is a letter or an underscore followed by letters, digits and underscores. Only
ASCII letters and digits count. In snake case all its letters are small and its words are
separated by underscores.
-/

namespace Buildfile.Text

def isNameStart (c : Char) : Bool := c.isAlpha || c = '_'

def isNameChar (c : Char) : Bool := c.isAlphanum || c = '_'

def isIdentifier (text : String) : Bool :=
  match text.toList with
  | [] => false
  | c :: rest => isNameStart c && rest.all isNameChar

/-- An identifier in snake case. Each capital letter but the first starts another word. -/
def snakeCase (text : String) : String :=
  match text.toList with
  | [] => ""
  | c :: rest =>
    String.ofList <|
      c.toLower :: rest.flatMap fun c => if c.isUpper then ['_', c.toLower] else [c.toLower]

end Buildfile.Text
