import WebOfThings.Json.Outline
import WebOfThings.Json.Token

/-!
# Reading JSON text

The tokens of a text drive a machine with a stack: one frame for every array or object that is still open,
with the values it has so far. A text is a value exactly if the machine ends with that value and an empty
stack. Arrays and objects may be nested `maxDepth` deep. What the outline of a value leaves out is passed
over, and does not count as nesting.

The stack replaces the recursion of a descending reader, so every step is a function without recursion and
reading is a fold over tokens. That makes the two things easy that are asked of it: to read what a writer
wrote, token by token, and to say what has been read where a text stops being JSON.

`parse?` gives a value as it is written, with the order and the repetitions of members; `ofText?` is its
normal form, the value that every reader of values gets. Blanks may stand around the text and between
tokens, and nothing else may follow.
-/

namespace WebOfThings.Json

/-- How deep arrays and objects of a text may be nested. -/
def maxDepth : Nat := 127

/-- An array or object that is still open: its outline, and its values so far, the last one first. -/
inductive Frame where
  | array (outline : Outline) (items : List Json)
  | object (outline : Outline) (members : List (String × Json)) (key : String)

/-- What the machine waits for, under the frames that are open. The outline is that of the value, array
or object that comes next or goes on. -/
inductive Reading where
  /-- A value. -/
  | value (outline : Outline) (stack : List Frame)
  /-- The first item of an array, or its end. -/
  | firstItem (outline : Outline) (stack : List Frame)
  /-- The first key of an object, or its end. -/
  | firstKey (outline : Outline) (stack : List Frame)
  /-- The next key of an object. -/
  | nextKey (outline : Outline) (members : List (String × Json)) (stack : List Frame)
  /-- The colon after a key. -/
  | colon (outline : Outline) (members : List (String × Json)) (key : String)
      (stack : List Frame)
  /-- What follows a complete value. -/
  | complete (v : Json) (stack : List Frame)

namespace Reading

/-- The machine before the first token. -/
def start (o : Outline) : Reading := .value o []

/-- Whether one more array or object may be opened. -/
def hasRoom (o : Outline) (stack : List Frame) : Bool :=
  o.isNothing || decide (stack.length < maxDepth)

/-- The token where a value is expected. -/
def stepValue? (o : Outline) (stack : List Frame) : Token → Option Reading
  | .scalar v => (o.value? v).map (.complete · stack)
  | .string s => (o.value? (s.map .str)).map (.complete · stack)
  | .openArray => if hasRoom o stack then some (.firstItem o stack) else none
  | .openObject => if hasRoom o stack then some (.firstKey o stack) else none
  | _ => none

/-- The machine after one token, `none` if no text goes on with it. -/
def step? : Reading → Token → Option Reading
  | .value o stack, t => stepValue? o stack t
  | .firstItem _ stack, .closeArray => some (.complete (.arr []) stack)
  | .firstItem o stack, t => stepValue? (o.itemAfter []) (.array o [] :: stack) t
  | .firstKey _ stack, .closeObject => some (.complete (.obj []) stack)
  | .firstKey o stack, .string key => (o.key? key).map fun key => .colon o [] key stack
  | .nextKey o members stack, .string key =>
    (o.key? key).map fun key => .colon o members key stack
  | .colon o members key stack, .colon =>
    some (.value (o.member key) (.object o members key :: stack))
  | .complete v (.array o items :: stack), .comma =>
    some (.value (o.itemAfter (v :: items)) (.array o (v :: items) :: stack))
  | .complete v (.array _ items :: stack), .closeArray =>
    some (.complete (.arr (v :: items).reverse) stack)
  | .complete v (.object o members key :: stack), .comma =>
    some (.nextKey o (o.add key v members) stack)
  | .complete v (.object o members key :: stack), .closeObject =>
    some (.complete (.obj (o.add key v members).reverse) stack)
  | _, _ => none

/-- The machine after a list of tokens. -/
def run? (m : Reading) : List Token → Option Reading
  | [] => some m
  | t :: rest => (m.step? t).bind fun m => run? m rest

/-- The value that has been read, if nothing is open any more. -/
def result? : Reading → Option Json
  | .complete v [] => some v
  | _ => none

end Reading

/-- What is wanted of the value of a text, as it is written: the members of objects keep their order and
repetitions. -/
def parse? (o : Outline) (s : List Char) : Option Json := do
  (← (Reading.start o).run? (← tokens? s)).result?

/-- The value of a text in normal form. -/
def ofText? (s : String) : Option Json := (parse? .all s.toList).map normal

end WebOfThings.Json
