import WebOfThings.Affordance
import WebOfThings.HostConfig
import WebOfThings.Json.Reader
import WebOfThings.Link

/-!
# Texts of descriptions

The text of an object may repeat a key. Where the vocabulary knows the member, a repetition is a fault;
elsewhere the last member counts. What the vocabulary knows depends on what a value stands for, its *shape*.
In a dictionary the last entry under a key counts too, but each of them has to be readable.

This is what tells reading a text (`from_json`, `from_str`) from reading a value that has been made already
(`from_value`): in a value every key stands once. Records whose fields are written flat into one object are
read as a whole first, so a member that goes with the type of a schema may be repeated while a label may
not. `fields` says which members are known in which shape, and how the shape goes on below them.

A shape has two uses. `isUnambiguous` is the check of the text as it is written. `outline` says what is
wanted of the text at all: a plain record passes over what it does not know, down to numerals and strings
that denote nothing.
-/

namespace WebOfThings

/-- What a value in a description stands for. -/
inductive Shape where
  /-- Anything. -/
  | free
  /-- A text. -/
  | text
  /-- A name out of a fixed set. -/
  | name
  | property
  | action
  | event
  | schema
  | form
  | link
  | version
  | response
  | additionalResponse
  | scheme
  | credentials
  | config
  | list (items : Shape)
  | dict (values : Shape)
  | oneOrMany (items : Shape)

namespace Shape

/-- The label fields. -/
def labelFields : List (String × Shape) :=
  [("@type", free), ("title", free), ("titles", dict text), ("description", free),
   ("descriptions", dict text)]

/-- The fields that belong to every affordance. -/
def interactionFields : List (String × Shape) :=
  labelFields ++ [("forms", list form), ("uriVariables", dict schema)]

/-- The fields of a schema apart from its labels. What goes with its type is not among them. -/
def schemaFields : List (String × Shape) :=
  [("const", free), ("default", free), ("unit", free), ("oneOf", list schema), ("enum", free),
   ("readOnly", free), ("writeOnly", free), ("format", free)]

/-- The fields of a security scheme, which depend on its mechanism. -/
def schemeFields (members : List (String × Json)) : List (String × Shape) :=
  let parameters :=
    match (Dict.get? "scheme" members).bind MechanismName.ofJson? with
    | some m => Mechanism.parameterNames m
    | none => []
  [("@type", free), ("description", free), ("descriptions", dict text), ("proxy", free),
   ("scheme", free)] ++ parameters.map (·, name)

/-- The fields of credentials, which depend on their type. -/
def credentialFields (members : List (String × Json)) : List (String × Shape) :=
  match Dict.get? "type" members with
  | some (.str type) => ("type", free) :: (Credentials.fieldNames type).map (·, free)
  | _ => [("type", free)]

/-- The members of an object that the vocabulary knows, with their shapes. -/
def fields (members : List (String × Json)) : Shape → List (String × Shape)
  | name => members.map fun (key, _) => (key, free)
  | property => interactionFields ++ schemaFields ++ [("observable", free)]
  | action =>
    interactionFields ++
      [("input", schema), ("output", schema), ("safe", free), ("idempotent", free),
       ("synchronous", free)]
  | event =>
    interactionFields ++
      [("subscription", schema), ("data", schema), ("dataResponse", schema), ("cancellation", schema)]
  | schema => labelFields ++ schemaFields
  | form =>
    [("op", oneOrMany name), ("href", free), ("contentType", free), ("contentCoding", free),
     ("subprotocol", free), ("security", free), ("scopes", free), ("response", response),
     ("additionalResponses", oneOrMany additionalResponse)]
  | link => Link.fieldNames.map (·, free)
  | version => VersionInfo.fieldNames.map (·, free)
  | response => ExpectedResponse.fieldNames.map (·, free)
  | additionalResponse => AdditionalResponse.fieldNames.map (·, free)
  | scheme => schemeFields members
  | credentials => credentialFields members
  | config => [("credentials", dict credentials), ("channel_capacity", free)]
  | _ => []

/-- The shape of an object, which may be the single one of many. -/
def single : Shape → Shape
  | oneOrMany s => s
  | s => s

/-- The shape of an item of an array. Records that are written as arrays have their fields in order. -/
def item (s : Shape) (index : Nat) : Shape :=
  match s with
  | list s | oneOrMany s => s
  | s => ((s.fields [])[index]?.map Prod.snd).getD free

/-- What is wanted of the text of a value. Plain records pass over the members that they do not know;
everything else is read in full, also what stands inside of it. -/
def outline : Shape → Json.Outline
  | form =>
    .record <| Form.fieldNames.map fun key =>
      (key, if key = "response" then .ofFields ExpectedResponse.fieldNames else .all)
  | link => .ofFields Link.fieldNames
  | version => .ofFields VersionInfo.fieldNames
  | response => .ofFields ExpectedResponse.fieldNames
  | additionalResponse => .ofFields AdditionalResponse.fieldNames
  | config => .ofFields HostConfig.fieldNames
  | list s => .items s.outline
  | _ => .all

/-- Whether a value of a dictionary can be read, even if another one takes its place. -/
def canRead (v : Json) : Shape → Bool
  | text => v.asString?.isSome
  | property => (PropertyAffordance.ofJson? v.normal).isSome
  | action => (ActionAffordance.ofJson? v.normal).isSome
  | event => (EventAffordance.ofJson? v.normal).isSome
  | schema => (DataSchema.ofJson? v.normal).isSome
  | scheme => (SecurityScheme.ofJson? v.normal).isSome
  | credentials => (Credentials.ofJson? v.normal).isSome
  | _ => true

mutual

/-- Whether a value, as it is written, repeats no member that the vocabulary knows. -/
def isUnambiguous (s : Shape) : Json → Bool
  | .arr items => isUnambiguousEach s 0 items
  | .obj members => isUnambiguousMembers s.single (s.single.fields members) members
  | _ => true

/-- Whether the items from an index on repeat no known members. -/
def isUnambiguousEach (s : Shape) (index : Nat) : List Json → Bool
  | [] => true
  | v :: rest => isUnambiguous (s.item index) v && isUnambiguousEach s (index + 1) rest

/-- Whether these members of an object, some of which the vocabulary knows, are not repeated and
repeat no known members themselves. -/
def isUnambiguousMembers (s : Shape) (known : List (String × Shape)) :
    List (String × Json) → Bool
  | [] => true
  | (key, v) :: rest =>
    (match s with
      | dict values =>
        isUnambiguous values v &&
          (!rest.any (fun m => m.1 = key) || canRead v values)
      | _ =>
        match Dict.get? key known with
        | some field => isUnambiguous field v && !rest.any (fun m => m.1 = key)
        | none => true) && isUnambiguousMembers s known rest

end

/-- What is wanted of the value of a text, in normal form, provided that it repeats no member that the
vocabulary knows. -/
def value? (s : Shape) (text : String) : Option Json := do
  let v ← Json.parse? s.outline text.toList
  if s.isUnambiguous v then some v.normal else none

/-- What a text of a shape describes. -/
def read? {α : Type} (s : Shape) (ofJson? : Json → Option α) (text : String) : Option α :=
  (s.value? text).bind ofJson?

end Shape

/-- The configuration that a text describes. -/
def HostConfig.ofText? (text : String) : Option HostConfig := Shape.config.read? HostConfig.ofJson? text

end WebOfThings
