/-! # Line continuations

A backslash before a line end, which is a line feed or a carriage return and a line feed, joins
two lines. The backslash, the line end and the tabs and spaces that indent the next line carry no
text.
-/

namespace Buildfile.Text

def isIndent (c : Char) : Bool := c = '\t' || c = ' '

/-- Joins continued lines. The flag tells whether the characters read next may still be the
indentation of a joined line. -/
def joinLinesFrom : Bool → List Char → List Char
  | _, [] => []
  | _, '\\' :: '\n' :: rest => joinLinesFrom true rest
  | _, '\\' :: '\r' :: '\n' :: rest => joinLinesFrom true rest
  | indent, c :: rest =>
    if indent && isIndent c then joinLinesFrom true rest else c :: joinLinesFrom false rest

/-- The word without its line continuations. -/
def joinLines (word : String) : String := String.ofList (joinLinesFrom false word.toList)

end Buildfile.Text
