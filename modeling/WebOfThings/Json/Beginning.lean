import WebOfThings.Json.Reader

/-!
# The beginning of a JSON text

A text may stop being JSON somewhere. What stands before that place still counts: a reader that goes through
the text from left to right has already seen it, and an earlier fault is reported in place of a later one. A
*beginning* holds what is complete: a whole value, or the complete parts of the arrays and objects that are
still open.

It is computed with the machine that reads texts, stopped where it would fail: `furthest` takes as many
tokens as the machine does, and `beginning` turns the machine at that point into the part of a value that
its frames hold. Nothing is made of an incomplete token. The only reader that needs beginnings is that of
descriptions and vocabularies, because faults of a vocabulary have a wording and a text that is no JSON has
none.
-/

namespace WebOfThings.Json

/-- What is complete of a value. -/
inductive Beginning where
  /-- Nothing. -/
  | nothing
  /-- All of it. -/
  | whole (v : Json)
  /-- An array with these items, and the beginning of the next one. -/
  | array (items : List Json) (next : Beginning)
  /-- An object with these members. -/
  | object (members : List (String × Json))
  /-- An object with these members, and the beginning of the one under a key. -/
  | member (members : List (String × Json)) (key : String) (value : Beginning)

namespace Reading

/-- A beginning inside of the arrays and objects that are open around it. -/
def enclose : Beginning → List Frame → Beginning
  | b, [] => b
  | .whole v, .array _ items :: stack => enclose (.array (v :: items).reverse .nothing) stack
  | b, .array _ items :: stack => enclose (.array items.reverse b) stack
  | .whole v, .object o members key :: stack =>
    enclose (.object (o.add key v members).reverse) stack
  | b, .object _ members key :: stack => enclose (.member members.reverse key b) stack

/-- What is complete of the value that is being read. -/
def beginning : Reading → Beginning
  | .value _ stack => enclose .nothing stack
  | .firstItem _ stack => enclose (.array [] .nothing) stack
  | .firstKey _ stack => enclose (.object []) stack
  | .nextKey _ members stack | .colon _ members _ stack =>
    enclose (.object members.reverse) stack
  | .complete v stack => enclose (.whole v) stack

/-- The machine after as many of the tokens as it takes. -/
def furthest (m : Reading) : List Token → Reading
  | [] => m
  | t :: rest =>
    match m.step? t with
    | some m => m.furthest rest
    | none => m

end Reading

/-- What is complete of the value of a text that is read in outline. -/
def Beginning.ofText (o : Outline) (s : List Char) : Beginning :=
  ((Reading.start o).furthest (scanTokens s).1).beginning

end WebOfThings.Json
