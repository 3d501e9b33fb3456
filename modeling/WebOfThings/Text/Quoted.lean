import WebOfThings.Text.Hidden

/-!
# Quoted texts

The form in which a text appears inside a diagnostic: between double quotes, with the quote and the
backslash escaped, the common control characters by a letter and every other hidden character by its code
point in braces. Other characters stand for themselves. Lists and sets of texts are written between brackets
and braces, with a comma and a blank between two of them.
-/

namespace WebOfThings.Text

/-- The lower case hexadecimal digits of a number, without leading zeros. -/
def lowerHex (n : Nat) : List Char :=
  Nat.toDigits 16 n

/-- One character of a quoted text. -/
def quoteChar (c : Char) : List Char :=
  if c = '"' then ['\\', '"']
  else if c = '\\' then ['\\', '\\']
  else if c = '\n' then ['\\', 'n']
  else if c = '\r' then ['\\', 'r']
  else if c = '\t' then ['\\', 't']
  else if c.toNat = 0 then ['\\', '0']
  else if isHidden c then ['\\', 'u', '\x7b'] ++ lowerHex c.toNat ++ ['\x7d']
  else [c]

/-- A text between quotes, with its hidden characters escaped. -/
def quote (s : String) : String :=
  String.ofList ('"' :: s.toList.flatMap quoteChar ++ ['"'])

/-- A list of quoted texts between brackets. -/
def quoteList (items : List String) : String :=
  "[" ++ ", ".intercalate (items.map quote) ++ "]"

/-- A set of quoted texts between braces. -/
def quoteSet (items : List String) : String :=
  "\x7b" ++ ", ".intercalate (items.map quote) ++ "\x7d"

end WebOfThings.Text
