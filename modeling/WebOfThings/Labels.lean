import WebOfThings.Json.Fields

/-!
# Labels

What people read about a thing, an affordance or a schema: its semantic types, and a title and a description
in the default language and in others. The same five fields stand in a thing, in what every affordance has
and in every schema, and the builders share them as `HumanReadableInfo`; so they are one record here, with
one reader and one writer.

`@type` is written in the *one or many* form, a single type as a bare text. What is missing is left out, and
a list or a table that is there is written even if it is empty. The texts in other languages are
dictionaries by language tag. In `titles` and `descriptions` the reader takes any key: tags are not checked.
-/

namespace WebOfThings

/-- The descriptive part that things, affordances and schemas share. -/
structure Labels where
  types : Option (List String) := none
  title : Option String := none
  titles : Option (Dict String) := none
  description : Option String := none
  descriptions : Option (Dict String) := none
  deriving DecidableEq

namespace Labels

instance : Inhabited Labels := ⟨{}⟩

/-- The names of the label fields. -/
def fieldNames : List String := ["@type", "title", "titles", "description", "descriptions"]

/-- The labels among the members of an object. -/
def ofMembers? (members : List (String × Json)) : Option Labels := do
  let types ← Json.optional? (Json.oneOrMany? Json.asString?) "@type" members
  let title ← Json.optional? Json.asString? "title" members
  let titles ← Json.optional? (Json.asDict? Json.asString?) "titles" members
  let description ← Json.optional? Json.asString? "description" members
  let descriptions ← Json.optional? (Json.asDict? Json.asString?) "descriptions" members
  return { types, title, titles, description, descriptions }

/-- The members that labels write. -/
def members (l : Labels) : List (String × Json) :=
  Json.field "@type" (l.types.map (Json.oneOrMany .str)) ++
  Json.field "title" (l.title.map .str) ++
  Json.field "titles" (l.titles.map (Json.ofDict .str)) ++
  Json.field "description" (l.description.map .str) ++
  Json.field "descriptions" (l.descriptions.map (Json.ofDict .str))

/-- The labels with one more semantic type. -/
def addType (l : Labels) (type : String) : Labels :=
  { l with types := some (l.types.getD [] ++ [type]) }

end Labels
end WebOfThings
