import WebOfThings.Json.Reader
import WebOfThings.Thing.Basic

/-!
# Queries

A query is a template of a description. A description matches if it contains the template: every member of
an object is there and matches, every item of an array matches some item, and scalars are equal. A scalar in
the template also matches an array that holds it.

`contains` is the function of that name in the discovery of things; it is recursive in the template, with
one case for each kind of value. Its last case is taken by whatever is neither a pair of objects nor a pair
of arrays, objects in the template included: these are then compared for equality, with the value or with
the items of the array that it is. Numbers are compared as numbers of one kind, so `1` is not `1.0`.

A template has to be an object (`ofTemplate`, `ofText`), and is matched against the exported description of
a thing, not against the thing: what the writer leaves out or rearranges cannot be asked for. `ThingFilter`
puts a method and an optional query together; without a query everything passes.

Main statements: `contains_obj_iff` and `contains_arr_iff` (when an object contains an object, and an array
an array).
-/

namespace WebOfThings

/-- Where to look for things. -/
inductive DiscoveryMethod where
  /-- Everywhere. -/
  | any
  /-- Among the things of this host. -/
  | local
  /-- In a directory. -/
  | directory
  deriving DecidableEq

namespace DiscoveryMethod

/-- Every method. -/
def all : List DiscoveryMethod := [any, .local, directory]

/-- The name of a method. -/
def name : DiscoveryMethod → String
  | any => "any"
  | .local => "local"
  | directory => "directory"

/-- The method that a value names. -/
def ofJson? (v : Json) : Option DiscoveryMethod :=
  v.asName?.bind fun s => all.find? fun m => m.name = s

end DiscoveryMethod

namespace Json

mutual

/-- Whether a value contains a template, which stands last. -/
def contains (value : Json) : Json → Bool
  | .obj template =>
    match value with
    | .obj members => containsMembers members template
    | .arr items => items.any fun item => item == .obj template
    | _ => false
  | .arr template =>
    match value with
    | .arr items => containsItems items template
    | _ => false
  | template =>
    match value with
    | .arr items => items.any fun item => item == template
    | _ => value == template

/-- Whether an object contains the members of a template. -/
def containsMembers (members : List (String × Json)) : List (String × Json) → Bool
  | [] => true
  | (key, template) :: rest =>
    (match Dict.get? key members with
      | some value => contains value template
      | none => false) && containsMembers members rest

/-- Whether every item of a template is contained in some item. -/
def containsItems (items : List Json) : List Json → Bool
  | [] => true
  | template :: rest => (items.any fun item => contains item template) && containsItems items rest

end

/-- An object contains another one if each member of that is contained in its own member of that
name. -/
theorem contains_obj_iff (members template : List (String × Json)) :
    contains (.obj members) (.obj template) = true ↔
      ∀ m ∈ template, ∃ v, Dict.get? m.1 members = some v ∧ contains v m.2 = true := by
  simp only [contains]
  induction template with
  | nil => simp [containsMembers]
  | cons m rest ih =>
    obtain ⟨key, t⟩ := m
    simp only [containsMembers, Bool.and_eq_true, ih, List.forall_mem_cons]
    cases Dict.get? key members <;> simp

/-- An array contains another one if each item of that is contained in some item. -/
theorem contains_arr_iff (items template : List Json) :
    contains (.arr items) (.arr template) = true ↔
      ∀ t ∈ template, ∃ v ∈ items, contains v t = true := by
  simp only [contains]
  induction template with
  | nil => simp [containsItems]
  | cons t rest ih =>
    simp only [containsItems, Bool.and_eq_true, ih, List.forall_mem_cons, List.any_eq_true]

end Json

/-- Why something is no query. -/
inductive QueryError where
  /-- The text is no JSON. -/
  | malformed
  /-- The template is no object; its kind is told. -/
  | notAnObject (found : String)
  deriving DecidableEq

/-- The wording of the error, if it has one. -/
def QueryError.message? : QueryError → Option String
  | malformed => none
  | notAnObject found => some ("A Thing query must be a JSON object, found " ++ found)

/-- A template that is an object. -/
structure ThingQuery where
  members : List (String × Json)

namespace ThingQuery

/-- The template. -/
def template (q : ThingQuery) : Json := .obj q.members

/-- The query of a template. -/
def ofTemplate : Json → Except QueryError ThingQuery
  | .obj members => .ok ⟨members⟩
  | .null => .error (.notAnObject "null")
  | .bool _ => .error (.notAnObject "a boolean")
  | .num _ => .error (.notAnObject "a number")
  | .str _ => .error (.notAnObject "a string")
  | .arr _ => .error (.notAnObject "an array")

/-- The query of a text. -/
def ofText (s : String) : Except QueryError ThingQuery :=
  match Json.ofText? s with
  | some v => ofTemplate v
  | none => .error .malformed

/-- Whether a value contains the template. -/
def matchesValue (q : ThingQuery) (v : Json) : Bool := v.contains q.template

/-- Whether the description of a thing contains the template. -/
def matchesThing (q : ThingQuery) (t : Thing) : Bool := q.matchesValue t.toJson

end ThingQuery

/-- What to look for, and where. -/
structure ThingFilter where
  method : DiscoveryMethod := .any
  url : Option String := none
  query : Option ThingQuery := none

/-- Whether a thing passes the query, if there is one. -/
def ThingFilter.accepts (f : ThingFilter) (t : Thing) : Bool :=
  match f.query with
  | some q => q.matchesThing t
  | none => true

end WebOfThings
