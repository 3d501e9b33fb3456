import WebOfThings.Affordance
import WebOfThings.Context
import WebOfThings.Json.Printer
import WebOfThings.Link
import WebOfThings.Security
import WebOfThings.Timestamp

/-!
# Things

A thing is a physical or virtual entity with a description: who it is, what can be done with it and how it
is secured. Top-level members that the vocabulary does not know are kept and written again.

Reading takes a normal value (`from_value`). A fault of the vocabulary is named before any other, because
only these have a wording (`DescriptionError`). Writing gives the known members in the order of the fields
and the unknown ones after them. As a value (`to_value`) that is an object again, where an unknown member
would take the place of a known one of its name; as a text (`to_json`) it is written as it stands. A
description that was read has no unknown member with a known name, one that was built may have.

`formsOf?` is `forms_of`, and `propertiesOfType` is `properties_by_object_type`: the type that is asked for
and those of the properties are both expanded before they are compared.

Two descriptions are of the same thing if they have the same id, whatever else they say (`same`).

Main statement: `mem_propertiesOfType_iff` (which properties have a semantic type).
-/

namespace WebOfThings

/-- The description of a thing. -/
structure Thing where
  context : Context := .standard
  id : String
  labels : Labels := {}
  version : Option VersionInfo := none
  created : Option Timestamp := none
  modified : Option Timestamp := none
  support : Option String := none
  base : Option String := none
  properties : Dict PropertyAffordance := []
  actions : Dict ActionAffordance := []
  events : Dict EventAffordance := []
  links : List Link := []
  forms : List Form := []
  security : List String := []
  securityDefinitions : Dict SecurityScheme := []
  uriVariables : Dict DataSchema := []
  metadata : Dict Json := []

/-- Why a value is no description of a thing. -/
inductive DescriptionError where
  /-- The vocabulary is at fault. -/
  | context (e : ContextError)
  /-- Something else is at fault, or the text is no JSON. -/
  | malformed
  deriving DecidableEq

/-- The wording of the error, where the vocabulary gives one. -/
def DescriptionError.message? : DescriptionError → Option String
  | .context e => e.message?
  | .malformed => none

namespace Thing

/-- The names of the top-level members that the vocabulary knows. -/
def fieldNames : List String :=
  ["@context", "id", "@type", "title", "titles", "description", "descriptions", "version", "created",
   "modified", "support", "base", "properties", "actions", "events", "links", "forms", "security",
   "securityDefinitions", "uriVariables"]

/-- Whether two descriptions are of the same thing. -/
def same (t u : Thing) : Bool := t.id = u.id

/-! ## Reading -/

/-- A point in time in a description. -/
def timestamp? (v : Json) : Option Timestamp := v.asString?.bind Timestamp.ofString?

/-- The vocabulary among the members of an object. -/
def contextOf (members : List (String × Json)) : Except ContextError Context :=
  match Dict.get? "@context" members with
  | none => .ok .standard
  | some v => Context.ofJson v

/-- The members that the vocabulary does not know. -/
def unknownMembers (members : List (String × Json)) : List (String × Json) :=
  members.filter fun (key, _) => !fieldNames.contains key

/-- The description among the members of an object, given its vocabulary. -/
def ofMembers? (context : Context) (members : List (String × Json)) : Option Thing := do
  let id ← Json.required? Json.asString? "id" members
  let labels ← Labels.ofMembers? members
  let version ← Json.optional? VersionInfo.ofJson? "version" members
  let created ← Json.optional? timestamp? "created" members
  let modified ← Json.optional? timestamp? "modified" members
  let support ← Json.optional? Json.asString? "support" members
  let base ← Json.optional? Json.asString? "base" members
  let properties ←
    Json.withDefault? (Json.asDict? PropertyAffordance.ofJson?) [] "properties" members
  let actions ← Json.withDefault? (Json.asDict? ActionAffordance.ofJson?) [] "actions" members
  let events ← Json.withDefault? (Json.asDict? EventAffordance.ofJson?) [] "events" members
  let links ← Json.withDefault? (Json.asList? Link.ofJson?) [] "links" members
  let forms ← Json.withDefault? (Json.asList? Form.ofJson?) [] "forms" members
  let security ← Json.withDefault? (Json.oneOrMany? Json.asString?) [] "security" members
  let securityDefinitions ←
    Json.withDefault? (Json.asDict? SecurityScheme.ofJson?) [] "securityDefinitions" members
  let uriVariables ← Json.withDefault? (Json.asDict? DataSchema.ofJson?) [] "uriVariables" members
  return { context, id, labels, version, created, modified, support, base, properties, actions,
           events, links, forms, security, securityDefinitions, uriVariables,
           metadata := unknownMembers members }

/-- The thing that a normal value describes. A fault of the vocabulary is named before any other. -/
def ofJson : Json → Except DescriptionError Thing
  | .obj members =>
    match contextOf members with
    | .error e => .error (.context e)
    | .ok context =>
      match ofMembers? context members with
      | some t => .ok t
      | none => .error .malformed
  | _ => .error .malformed

/-! ## Writing -/

/-- The members that a description writes, the unknown ones last. -/
def members (t : Thing) : List (String × Json) :=
  [("@context", t.context.toJson), ("id", .str t.id)] ++
  t.labels.members ++
  Json.field "version" (t.version.map VersionInfo.toJson) ++
  Json.field "created" (t.created.map fun c => .str c.toString) ++
  Json.field "modified" (t.modified.map fun m => .str m.toString) ++
  Json.field "support" (t.support.map .str) ++
  Json.field "base" (t.base.map .str) ++
  Json.listField "properties" (Json.ofDict PropertyAffordance.toJson) t.properties ++
  Json.listField "actions" (Json.ofDict ActionAffordance.toJson) t.actions ++
  Json.listField "events" (Json.ofDict EventAffordance.toJson) t.events ++
  Json.listField "links" (fun links => .arr (links.map Link.toJson)) t.links ++
  Json.listField "forms" (fun forms => .arr (forms.map Form.toJson)) t.forms ++
  Json.listField "security" (Json.oneOrMany .str) t.security ++
  Json.listField "securityDefinitions" (Json.ofDict SecurityScheme.toJson) t.securityDefinitions ++
  Json.listField "uriVariables" (Json.ofDict DataSchema.toJson) t.uriVariables ++
  t.metadata

/-- The description as a value. An unknown member takes the place of a known one of its name. -/
def toJson (t : Thing) : Json := .object t.members

/-- The description as a text. Where a known and an unknown member share their name, the text has
both. -/
def toText (t : Thing) : String := (Json.obj t.members).text

/-! ## Looking things up -/

/-- The interaction part of an affordance. -/
def interaction? (t : Thing) (type : AffordanceType) (name : String) : Option Interaction :=
  match type with
  | .property => (Dict.get? name t.properties).map (·.interaction)
  | .action => (Dict.get? name t.actions).map (·.interaction)
  | .event => (Dict.get? name t.events).map (·.interaction)

/-- The forms of an affordance, or those of the thing as a whole. -/
def formsOf? (t : Thing) : Option (AffordanceType × String) → Option (List Form)
  | none => some t.forms
  | some (type, name) => (t.interaction? type name).map (·.forms)

/-- Whether one of the semantic types of a property means the same as `type`. -/
def propertyHasType (t : Thing) (type : String) (p : PropertyAffordance) : Bool :=
  (p.interaction.labels.types.getD []).any fun own => t.context.expand own = t.context.expand type

/-- The properties with a semantic type. The type and those of the properties may be compact terms or
full IRIs. -/
def propertiesOfType (t : Thing) (type : String) : Dict PropertyAffordance :=
  t.properties.filter fun (_, p) => t.propertyHasType type p

/-- A property has a type if one of its own types means the same. -/
theorem mem_propertiesOfType_iff {t : Thing} {type name : String} {p : PropertyAffordance} :
    (name, p) ∈ t.propertiesOfType type ↔
      (name, p) ∈ t.properties ∧
        ∃ own ∈ p.interaction.labels.types.getD [],
          t.context.expand own = t.context.expand type := by
  simp [propertiesOfType, propertyHasType]

end Thing
end WebOfThings
