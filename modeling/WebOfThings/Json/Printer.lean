import WebOfThings.Json.Basic
import WebOfThings.Text.Hex

/-!
# The text of JSON values

Values are written without blanks, the members of an object in the order in which it has them. In strings
the quote and the backslash are escaped, the control characters by a letter where JSON has one and else by
their code point; nothing else is escaped, so a text keeps its characters beyond ASCII as they are. Numbers
are written by `Number.text`.

The writer is recursive in the value, with the items and the members after the first one in functions of
their own, because a comma stands in front of these. It is total and needs no proof that the value is
normal: an object that repeats a key would be written with the repetition.
-/

namespace WebOfThings.Json

/-- One character of a string. -/
def escape (c : Char) : List Char :=
  if c = '"' then ['\\', '"']
  else if c = '\\' then ['\\', '\\']
  else if c = '\n' then ['\\', 'n']
  else if c = '\r' then ['\\', 'r']
  else if c = '\t' then ['\\', 't']
  else if c.toNat = 8 then ['\\', 'b']
  else if c.toNat = 12 then ['\\', 'f']
  else if c.toNat < 0x20 then
    ['\\', 'u', '0', '0', Text.hexDigit (c.toNat / 16), Text.hexDigit (c.toNat % 16)]
  else [c]

/-- A string between quotes. -/
def renderString (s : String) : List Char :=
  '"' :: s.toList.flatMap escape ++ ['"']

mutual

/-- The text of a value. -/
def render : Json → List Char
  | .null => ['n', 'u', 'l', 'l']
  | .bool true => ['t', 'r', 'u', 'e']
  | .bool false => ['f', 'a', 'l', 's', 'e']
  | .num n => n.text
  | .str s => renderString s
  | .arr [] => ['[', ']']
  | .arr (v :: rest) => '[' :: render v ++ renderItems rest
  | .obj [] => ['\x7b', '\x7d']
  | .obj ((k, v) :: rest) => '\x7b' :: renderString k ++ ':' :: render v ++ renderMembers rest

/-- The items after the first one, and the closing bracket. -/
def renderItems : List Json → List Char
  | [] => [']']
  | v :: rest => ',' :: render v ++ renderItems rest

/-- The members after the first one, and the closing brace. -/
def renderMembers : List (String × Json) → List Char
  | [] => ['\x7d']
  | (k, v) :: rest => ',' :: renderString k ++ ':' :: render v ++ renderMembers rest

end

/-- The text of a value. -/
def text (v : Json) : String := String.ofList v.render

end WebOfThings.Json
