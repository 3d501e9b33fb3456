import WebOfThings.DataSchema
import WebOfThings.Form

/-!
# Affordances

What can be done with a thing: its properties, its actions and its events. Each has labels, forms and
declared variables for the templates in its forms (`Interaction`, the program's `InteractionAffordance`).

The three kinds are written flat: the members of the interaction stand in the same object as those of the
kind. So a property is one object with two readers. The labels, the forms and the variables belong to the
affordance, all other members to the schema of its value, and `schemaMembers` says which these are. The
schema of a property therefore has no labels of its own, neither when a description is read nor when it is
built.

Readers are partial functions on values (`ofJson?`), writers give the members in the order in which the
fields are declared (`members`), and what is empty or false is left out. `ActionAffordance` adds an input,
an output and three flags, of which `safe` and `idempotent` are false and `synchronous` is open unless they
are said; `EventAffordance` adds the schemas of the subscription, the data, the response and the
cancellation.
-/

namespace WebOfThings

/-- The three kinds of affordances. -/
inductive AffordanceType where
  | property
  | action
  | event
  deriving DecidableEq

/-- The word for an affordance in messages. -/
def AffordanceType.word : AffordanceType → String
  | property => "property"
  | action => "action"
  | event => "event"

/-- What all affordances have. -/
structure Interaction where
  labels : Labels := {}
  forms : List Form := []
  uriVariables : Dict DataSchema := []

/-- A value of a thing that can be read, written or observed. -/
structure PropertyAffordance where
  interaction : Interaction := {}
  schema : DataSchema := {}
  observable : Option Bool := none

/-- A function of a thing. -/
structure ActionAffordance where
  interaction : Interaction := {}
  input : Option DataSchema := none
  output : Option DataSchema := none
  safe : Bool := false
  idempotent : Bool := false
  synchronous : Option Bool := none

/-- A source of notifications of a thing. -/
structure EventAffordance where
  interaction : Interaction := {}
  subscription : Option DataSchema := none
  data : Option DataSchema := none
  dataResponse : Option DataSchema := none
  cancellation : Option DataSchema := none

namespace Interaction

instance : Inhabited Interaction := ⟨{}⟩

/-- The names of the fields that belong to every affordance. -/
def fieldNames : List String := Labels.fieldNames ++ ["forms", "uriVariables"]

/-- What all affordances have, among the members of an object. -/
def ofMembers? (members : List (String × Json)) : Option Interaction := do
  let labels ← Labels.ofMembers? members
  let forms ← Json.withDefault? (Json.asList? Form.ofJson?) [] "forms" members
  let uriVariables ← Json.withDefault? (Json.asDict? DataSchema.ofJson?) [] "uriVariables" members
  return { labels, forms, uriVariables }

/-- The members that all affordances write. -/
def members (i : Interaction) : List (String × Json) :=
  i.labels.members ++
  Json.listField "forms" (fun forms => .arr (forms.map Form.toJson)) i.forms ++
  Json.listField "uriVariables" (Json.ofDict DataSchema.toJson) i.uriVariables

end Interaction

namespace PropertyAffordance

/-- The members that describe the value of a property. -/
def schemaMembers (members : List (String × Json)) : List (String × Json) :=
  members.filter fun (key, _) => !Interaction.fieldNames.contains key

/-- The property that a value describes. -/
def ofJson? : Json → Option PropertyAffordance
  | .obj members => do
    let interaction ← Interaction.ofMembers? members
    let schema ← DataSchema.ofMembers? (schemaMembers members)
    let observable ← Json.optional? Json.asBool? "observable" members
    return { interaction, schema, observable }
  | _ => none

/-- The property as a value. -/
def toJson (p : PropertyAffordance) : Json :=
  .object <|
    p.interaction.members ++ p.schema.members ++
    Json.field "observable" (p.observable.map .bool)

end PropertyAffordance

namespace ActionAffordance

/-- The action that a value describes. -/
def ofJson? : Json → Option ActionAffordance
  | .obj members => do
    let interaction ← Interaction.ofMembers? members
    let input ← Json.optional? DataSchema.ofJson? "input" members
    let output ← Json.optional? DataSchema.ofJson? "output" members
    let safe ← Json.withDefault? Json.asBool? false "safe" members
    let idempotent ← Json.withDefault? Json.asBool? false "idempotent" members
    let synchronous ← Json.optional? Json.asBool? "synchronous" members
    return { interaction, input, output, safe, idempotent, synchronous }
  | _ => none

/-- The action as a value. -/
def toJson (a : ActionAffordance) : Json :=
  .object <|
    a.interaction.members ++
    Json.field "input" (a.input.map DataSchema.toJson) ++
    Json.field "output" (a.output.map DataSchema.toJson) ++
    Json.flag "safe" a.safe ++
    Json.flag "idempotent" a.idempotent ++
    Json.field "synchronous" (a.synchronous.map .bool)

end ActionAffordance

namespace EventAffordance

/-- The event that a value describes. -/
def ofJson? : Json → Option EventAffordance
  | .obj members => do
    let interaction ← Interaction.ofMembers? members
    let subscription ← Json.optional? DataSchema.ofJson? "subscription" members
    let data ← Json.optional? DataSchema.ofJson? "data" members
    let dataResponse ← Json.optional? DataSchema.ofJson? "dataResponse" members
    let cancellation ← Json.optional? DataSchema.ofJson? "cancellation" members
    return { interaction, subscription, data, dataResponse, cancellation }
  | _ => none

/-- The event as a value. -/
def toJson (e : EventAffordance) : Json :=
  .object <|
    e.interaction.members ++
    Json.field "subscription" (e.subscription.map DataSchema.toJson) ++
    Json.field "data" (e.data.map DataSchema.toJson) ++
    Json.field "dataResponse" (e.dataResponse.map DataSchema.toJson) ++
    Json.field "cancellation" (e.cancellation.map DataSchema.toJson)

end EventAffordance
end WebOfThings
