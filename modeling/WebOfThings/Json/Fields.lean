import WebOfThings.Json.Basic

/-!
# Fields of descriptions

How a description takes its parts from a JSON value, and how it writes them: scalar readers, lists,
dictionaries, the *one or many* form (a bare element stands for the list of it), and the fields of an
object. An optional field may be missing or `null`; a field with a default may be missing.

These are the rules that the records of a description share, each stated once, so that a record is read by
naming its fields. Integers are read into words of their size and never from a double, while a double may be
written as an integer. Names out of a fixed set are texts; some readers also take an object that binds the
name to `null`, which is how such a choice is written in full.

Writers give lists of members, `field` for an optional one, `flag` for one that is only written when it is
true, `listField` for one that is left out while it is empty, and an object is made of their concatenation.
A record may also be written as the array of its fields in order (`record?`).

Main statement: `oneOrMany?_oneOrMany` (a list written in the *one or many* form reads back, provided that
its elements read back and arrays are no elements).
-/

namespace WebOfThings.Json

/-! ## Scalars -/

/-- A text. -/
def asString? : Json → Option String
  | .str s => some s
  | _ => none

/-- A truth value. -/
def asBool? : Json → Option Bool
  | .bool b => some b
  | _ => none

/-- An integer, never a double. -/
def asInt? : Json → Option Int
  | .num n => n.toInt?
  | _ => none

/-- A signed integer of 64 bits. -/
def asInt64? (v : Json) : Option Int64 := do
  let n ← v.asInt?
  if -9223372036854775808 ≤ n ∧ n < 9223372036854775808 then some (.ofInt n) else none

/-- An unsigned integer of 32 bits. -/
def asUInt32? (v : Json) : Option UInt32 := do
  let n ← v.asInt?
  if 0 ≤ n ∧ n < 4294967296 then some (.ofNat n.toNat) else none

/-- An unsigned integer of 64 bits. -/
def asUInt64? (v : Json) : Option UInt64 := do
  let n ← v.asInt?
  if 0 ≤ n ∧ n < 18446744073709551616 then some (.ofNat n.toNat) else none

/-- A number of either kind, as a double. -/
def asBinary64? : Json → Option Binary64
  | .num n => some n.toBinary64
  | _ => none

/-- A name out of a fixed set: a text, or an object that binds it to `null`. -/
def asName? : Json → Option String
  | .str s => some s
  | .obj [(name, .null)] => some name
  | _ => none

/-- A name out of a fixed set among the parameters of a choice: a text, or an object that binds it to
`null` or to an empty object. -/
def asParameterName? : Json → Option String
  | .obj [(name, .obj [])] => some name
  | v => v.asName?

/-- A signed integer of 64 bits as a value. -/
def ofInt64 (n : Int64) : Json :=
  .num (.integer n.toInt ⟨n.le_toInt, by have := n.toInt_lt; omega⟩)

/-- An unsigned integer of 32 bits as a value. -/
def ofUInt32 (n : UInt32) : Json :=
  ofNat n.toNat (by have := n.toNat_lt; omega)

/-- An unsigned integer of 64 bits as a value. -/
def ofUInt64 (n : UInt64) : Json :=
  ofNat n.toNat n.toNat_lt

/-! ## Collections -/

variable {α : Type}

/-- The list of an array. -/
def asList? (read : Json → Option α) : Json → Option (List α)
  | .arr items => items.mapM read
  | _ => none

/-- The dictionary of an object. -/
def asDict? (read : Json → Option α) : Json → Option (Dict α)
  | .obj members => members.mapM fun (key, v) => (read v).map (key, ·)
  | _ => none

/-- One element, or an array of elements. -/
def oneOrMany? (read : Json → Option α) (v : Json) : Option (List α) :=
  match read v with
  | some x => some [x]
  | none => asList? read v

/-- A list of one element is written as that element, every other list as an array. -/
def oneOrMany (write : α → Json) : List α → Json
  | [x] => write x
  | xs => .arr (xs.map write)

/-- A list of values that read back reads back. -/
theorem mapM_map_of_forall {read : Json → Option α} {write : α → Json} {xs : List α}
    (h : ∀ x ∈ xs, read (write x) = some x) : (xs.map write).mapM read = some xs := by
  induction xs with
  | nil => rfl
  | cons x rest ih =>
    rw [List.map_cons, List.mapM_cons, h x (by simp), ih fun y hy => h y (by simp [hy])]
    rfl

/-- A list in the *one or many* form reads back. -/
theorem oneOrMany?_oneOrMany {read : Json → Option α} {write : α → Json} {xs : List α}
    (h : ∀ x ∈ xs, read (write x) = some x) (harr : ∀ items, read (.arr items) = none) :
    oneOrMany? read (oneOrMany write xs) = some xs := by
  match xs, h with
  | [], _ => simp [oneOrMany, oneOrMany?, harr, asList?]
  | [x], h => simp [oneOrMany, oneOrMany?, h x (by simp)]
  | x :: y :: rest, h =>
    simp only [oneOrMany, oneOrMany?, harr, asList?]
    exact mapM_map_of_forall h

/-! ## Fields of an object -/

/-- An optional field: missing or `null`, or a value. -/
def optional? (read : Json → Option α) (key : String) (members : List (String × Json)) :
    Option (Option α) :=
  match Dict.get? key members with
  | none | some .null => some none
  | some v => (read v).map some

/-- A field that may be missing, but is not `null`. -/
def withDefault? (read : Json → Option α) (default : α) (key : String)
    (members : List (String × Json)) : Option α :=
  match Dict.get? key members with
  | none => some default
  | some v => read v

/-- A field that has to be there. -/
def required? (read : Json → Option α) (key : String) (members : List (String × Json)) :
    Option α :=
  (Dict.get? key members).bind read

/-- The members that an optional field contributes. -/
def field (key : String) (v : Option Json) : List (String × Json) :=
  match v with
  | some v => [(key, v)]
  | none => []

/-- The members that a flag contributes: none while it is down. -/
def flag (key : String) (b : Bool) : List (String × Json) :=
  if b then [(key, .bool true)] else []

/-- The members that a list contributes: none while it is empty. -/
def listField (key : String) (write : List α → Json) (xs : List α) : List (String × Json) :=
  if xs.isEmpty then [] else [(key, write xs)]

/-- The object of a dictionary. -/
def ofDict (write : α → Json) (d : Dict α) : Json := .obj (d.mapValues write)

/-- The fields of a record: the members of an object, or the items of an array in the order of the
fields, of which at least `least` are there. -/
def record? (fields : List String) (least : Nat) : Json → Option (List (String × Json))
  | .obj members => some members
  | .arr items =>
    if least ≤ items.length ∧ items.length ≤ fields.length then some (fields.zip items) else none
  | _ => none

end WebOfThings.Json
