import Buildfile.Text.Printable

/-! # Quoted text in messages

Messages show words and lists of words in double quotes. A quote and a backslash get a backslash,
NUL, tab, line feed and carriage return have short forms, and any other character that is not
printable is written by its code point.
-/

namespace Buildfile.Text

/-- Hexadecimal digits of a number, lower case and without padding. -/
def hexDigits (n : Nat) : List Char := Nat.toDigits 16 n

def quoteChar (c : Char) : List Char :=
  if c = '"' then ['\\', '"']
  else if c = '\\' then ['\\', '\\']
  else if c = '\x00' then ['\\', '0']
  else if c = '\t' then ['\\', 't']
  else if c = '\n' then ['\\', 'n']
  else if c = '\r' then ['\\', 'r']
  else if isPrintable c then [c]
  else ['\\', 'u', '\x7b'] ++ hexDigits c.toNat ++ ['\x7d']

def quote (text : String) : String :=
  String.ofList ('"' :: text.toList.flatMap quoteChar ++ ['"'])

/-- Quoted texts in square brackets, separated by a comma and a space. -/
def quoteList (texts : List String) : String :=
  "[" ++ String.intercalate ", " (texts.map quote) ++ "]"

end Buildfile.Text
