import WebOfThings.Labels

/-!
# Data schemas

The shape of a value. What every schema has stands in `DataSchema`, what depends on the type in `SchemaKind`
(the program's `DataSchemaSubtype`); a schema without kind is *variable*: the shape of its values is only
known once a value is there.

Schemas contain schemas: alternatives, items of arrays, members of objects. The kind is a functor in its
parts, `SchemaKind σ`, so that the same bounds and rules serve schemas and drafts of schemas.

Reading goes in two steps, because the type decides which members count. `readParts` reads everything that
could be a schema inside of an object, each part as a success or a failure; `assemble?` then looks at `type`
and asks for the parts that go with it. Without `type` nothing is asked for, and with it everything that
goes with the type has to be right: this is `deserialize_subtype`. A number keeps doubles in its bounds, an
integer signed words of 64 bits, and lengths and counts are words of 32 bits.

`accepts` and `initial` are `accepts` and `initial_value`: whether a value is of a type, restrictions aside,
and what a property holds before anything was written.

`isVariable_iff_typeName?_eq_none`: exactly the variable schemas have no type name.
-/

namespace WebOfThings

/-- Lower and upper bounds of numbers of type `α`. -/
structure Bounds (α : Type) where
  minimum : Option α := none
  exclusiveMinimum : Option α := none
  maximum : Option α := none
  exclusiveMaximum : Option α := none
  multipleOf : Option α := none
  deriving DecidableEq

/-- The restrictions on a text. -/
structure StringRules where
  minLength : Option UInt32 := none
  maxLength : Option UInt32 := none
  pattern : Option String := none
  contentEncoding : Option String := none
  contentMediaType : Option String := none
  deriving DecidableEq

/-- The type of a value with what depends on it, over the schemas `σ` of its parts. -/
inductive SchemaKind (σ : Type) where
  | array (items : Option (List σ)) (minItems maxItems : Option UInt32)
  | boolean
  | number (bounds : Bounds Binary64)
  | integer (bounds : Bounds Int64)
  | object (properties : List (String × σ)) (required : List String)
  | string (rules : StringRules)
  | null

/-- The shape of a value. -/
structure DataSchema where
  labels : Labels := {}
  constant : Option Json := none
  default : Option Json := none
  unit : Option String := none
  oneOf : Option (List DataSchema) := none
  enumeration : Option (List Json) := none
  readOnly : Bool := false
  writeOnly : Bool := false
  format : Option String := none
  kind : Option (SchemaKind DataSchema) := none

namespace SchemaKind

variable {σ : Type}

/-- The name of the type in descriptions. -/
def typeName : SchemaKind σ → String
  | .array .. => "array"
  | .boolean => "boolean"
  | .number _ => "number"
  | .integer _ => "integer"
  | .object .. => "object"
  | .string _ => "string"
  | .null => "null"

/-- Whether a value is of the type; the restrictions play no part. -/
def accepts : SchemaKind σ → Json → Bool
  | .array .., .arr _ => true
  | .boolean, .bool _ => true
  | .number _, .num _ => true
  | .integer _, .num (.integer ..) => true
  | .object .., .obj _ => true
  | .string _, .str _ => true
  | .null, .null => true
  | _, _ => false

/-- Whether the kind has parts: the values of a variable in a template are scalars. -/
def isStructured : SchemaKind σ → Bool
  | .array .. | .object .. => true
  | _ => false

end SchemaKind

namespace DataSchema

instance : Inhabited DataSchema := ⟨{}⟩

/-- Whether the type of the values is left open. -/
def isVariable (s : DataSchema) : Bool := s.kind.isNone

/-- The name of the type, if the schema has one. -/
def typeName? (s : DataSchema) : Option String := s.kind.map SchemaKind.typeName

/-- The value that something of this shape has at first: the constant, else the default, else
`null`. -/
def initial (s : DataSchema) : Json := (s.constant.or s.default).getD .null

/-- A schema takes values of any type if it names none. -/
theorem isVariable_iff_typeName?_eq_none (s : DataSchema) :
    s.isVariable = true ↔ s.typeName? = none := by
  simp [isVariable, typeName?]

/-! ## Reading -/

/-- The parts of a schema that are schemas themselves, each as it was read: `none` where it is no
schema. -/
structure Parts where
  oneOf : Option (Option (List DataSchema)) := some none
  items : Option (Option (List DataSchema)) := some none
  properties : Option (Dict DataSchema) := some []

/-- The bounds among the members of an object. -/
def bounds? {α : Type} (read : Json → Option α) (members : List (String × Json)) :
    Option (Bounds α) := do
  let minimum ← Json.optional? read "minimum" members
  let exclusiveMinimum ← Json.optional? read "exclusiveMinimum" members
  let maximum ← Json.optional? read "maximum" members
  let exclusiveMaximum ← Json.optional? read "exclusiveMaximum" members
  let multipleOf ← Json.optional? read "multipleOf" members
  return { minimum, exclusiveMinimum, maximum, exclusiveMaximum, multipleOf }

/-- The restrictions on a text among the members of an object. -/
def stringRules? (members : List (String × Json)) : Option StringRules := do
  let minLength ← Json.optional? Json.asUInt32? "minLength" members
  let maxLength ← Json.optional? Json.asUInt32? "maxLength" members
  let pattern ← Json.optional? Json.asString? "pattern" members
  let contentEncoding ← Json.optional? Json.asString? "contentEncoding" members
  let contentMediaType ← Json.optional? Json.asString? "contentMediaType" members
  return { minLength, maxLength, pattern, contentEncoding, contentMediaType }

/-- The kind of a type name, from the members that go with it. -/
def kindOfName? (name : String) (members : List (String × Json)) (parts : Parts) :
    Option (SchemaKind DataSchema) :=
  match name with
  | "array" => do
    let items ← parts.items
    let minItems ← Json.optional? Json.asUInt32? "minItems" members
    let maxItems ← Json.optional? Json.asUInt32? "maxItems" members
    return .array items minItems maxItems
  | "boolean" => some .boolean
  | "number" => (bounds? Json.asBinary64? members).map .number
  | "integer" => (bounds? Json.asInt64? members).map .integer
  | "object" => do
    let properties ← parts.properties
    let required ← Json.withDefault? (Json.asList? Json.asString?) [] "required" members
    return .object properties required
  | "string" => (stringRules? members).map .string
  | "null" => some .null
  | _ => none

/-- The kind among the members of an object. Without `type` there is none; with it, everything that
goes with the type has to be right. -/
def kind? (members : List (String × Json)) (parts : Parts) :
    Option (Option (SchemaKind DataSchema)) :=
  match Dict.get? "type" members with
  | none => some none
  | some v => do
    let name ← v.asString?
    let kind ← kindOfName? name members parts
    return some kind

/-- The schema of the members of an object, given the parts that are schemas. -/
def assemble? (members : List (String × Json)) (parts : Parts) : Option DataSchema := do
  let labels ← Labels.ofMembers? members
  let constant ← Json.optional? some "const" members
  let default ← Json.optional? some "default" members
  let unit ← Json.optional? Json.asString? "unit" members
  let oneOf ← parts.oneOf
  let enumeration ← Json.optional? (Json.asList? some) "enum" members
  let readOnly ← Json.withDefault? Json.asBool? false "readOnly" members
  let writeOnly ← Json.withDefault? Json.asBool? false "writeOnly" members
  let format ← Json.optional? Json.asString? "format" members
  let kind ← kind? members parts
  return { labels, constant, default, unit, oneOf, enumeration, readOnly, writeOnly, format, kind }

mutual

/-- The schema that a value describes. -/
def ofJson? : Json → Option DataSchema
  | .obj members => assemble? members (readParts members)
  | _ => none

/-- The parts among the members of an object that are schemas. Without kind, or with another one,
what stands under `items` and `properties` does not matter. -/
def readParts : List (String × Json) → Parts
  | [] => {}
  | (key, v) :: rest =>
    if key = "oneOf" then { readParts rest with oneOf := readAlternatives v }
    else if key = "items" then { readParts rest with items := readOneOrMany v }
    else if key = "properties" then { readParts rest with properties := readNamed v }
    else readParts rest

/-- Alternatives: `null` for none, or an array of schemas. -/
def readAlternatives : Json → Option (Option (List DataSchema))
  | .null => some none
  | .arr items => (readEach items).map some
  | _ => none

/-- Schemas of items: `null` for none, one schema, or an array of schemas. -/
def readOneOrMany : Json → Option (Option (List DataSchema))
  | .null => some none
  | .arr items => (readEach items).map some
  | .obj members => (assemble? members (readParts members)).map fun s => some [s]
  | _ => none

/-- Schemas of members, by name. -/
def readNamed : Json → Option (Dict DataSchema)
  | .obj members => readNamedEach members
  | _ => none

/-- The schema of every item. -/
def readEach : List Json → Option (List DataSchema)
  | [] => some []
  | v :: rest => do
    let s ← ofJson? v
    let others ← readEach rest
    return s :: others

/-- The schema of every member. -/
def readNamedEach : List (String × Json) → Option (Dict DataSchema)
  | [] => some []
  | (key, v) :: rest => do
    let s ← ofJson? v
    let others ← readNamedEach rest
    return (key, s) :: others

end

/-- The schema of the members of an object. -/
def ofMembers? (members : List (String × Json)) : Option DataSchema :=
  assemble? members (readParts members)

/-- A schema is read from the members of an object. -/
theorem ofJson?_obj (members : List (String × Json)) :
    ofJson? (.obj members) = ofMembers? members := rfl

/-! ## Writing -/

/-- The members that bounds write. -/
def boundsMembers {α : Type} (write : α → Json) (b : Bounds α) : List (String × Json) :=
  Json.field "minimum" (b.minimum.map write) ++
  Json.field "exclusiveMinimum" (b.exclusiveMinimum.map write) ++
  Json.field "maximum" (b.maximum.map write) ++
  Json.field "exclusiveMaximum" (b.exclusiveMaximum.map write) ++
  Json.field "multipleOf" (b.multipleOf.map write)

/-- The members that the restrictions on a text write. -/
def stringRulesMembers (r : StringRules) : List (String × Json) :=
  Json.field "minLength" (r.minLength.map Json.ofUInt32) ++
  Json.field "maxLength" (r.maxLength.map Json.ofUInt32) ++
  Json.field "pattern" (r.pattern.map .str) ++
  Json.field "contentEncoding" (r.contentEncoding.map .str) ++
  Json.field "contentMediaType" (r.contentMediaType.map .str)

/-- A list of values in the *one or many* form. -/
def bareIfOne : List Json → Json
  | [v] => v
  | vs => .arr vs

mutual

/-- The members that a schema writes. -/
def members : DataSchema → List (String × Json)
  | ⟨labels, constant, default, unit, oneOf, enumeration, readOnly, writeOnly, format, kind⟩ =>
    labels.members ++
    Json.field "const" constant ++
    Json.field "default" default ++
    Json.field "unit" (unit.map .str) ++
    Json.field "oneOf" ((writeOptional oneOf).map .arr) ++
    Json.field "enum" (enumeration.map .arr) ++
    Json.flag "readOnly" readOnly ++
    Json.flag "writeOnly" writeOnly ++
    Json.field "format" (format.map .str) ++
    kindMembers kind

/-- The members that the kind of a schema writes. -/
def kindMembers : Option (SchemaKind DataSchema) → List (String × Json)
  | none => []
  | some (.array items minItems maxItems) =>
    ("type", .str "array") ::
    Json.field "items" ((writeOptional items).map bareIfOne) ++
    Json.field "minItems" (minItems.map Json.ofUInt32) ++
    Json.field "maxItems" (maxItems.map Json.ofUInt32)
  | some .boolean => [("type", .str "boolean")]
  | some (.number bounds) => ("type", .str "number") :: boundsMembers Json.ofBinary64 bounds
  | some (.integer bounds) => ("type", .str "integer") :: boundsMembers Json.ofInt64 bounds
  | some (.object properties required) =>
    ("type", .str "object") ::
    Json.listField "properties" Json.obj (writeNamed properties) ++
    Json.listField "required" (fun names => .arr (names.map .str)) required
  | some (.string rules) => ("type", .str "string") :: stringRulesMembers rules
  | some .null => [("type", .str "null")]

/-- The values of a list of schemas that may be missing. -/
def writeOptional : Option (List DataSchema) → Option (List Json)
  | none => none
  | some schemas => some (writeEach schemas)

/-- The value of every schema. -/
def writeEach : List DataSchema → List Json
  | [] => []
  | s :: rest => .object (members s) :: writeEach rest

/-- The value of every named schema. -/
def writeNamed : Dict DataSchema → List (String × Json)
  | [] => []
  | (key, s) :: rest => (key, .object (members s)) :: writeNamed rest

end

/-- The schema as a value. -/
def toJson (s : DataSchema) : Json := .object s.members

end DataSchema
end WebOfThings
