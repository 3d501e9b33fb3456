import WebOfThings.Draft.Schema

/-!
# Drafts of affordances

Building an affordance checks the operations of its forms, then the variables of its hrefs, then its
schemas, and reports the first fault. These are the `build` functions of the affordance builders.

The operations that a form may list depend on where it stands (`FormPlace`): those of a property on a
property, those of an action on an action, and so on. A form that says nothing about its operations is right
on an affordance, where there is a natural choice, and not on the thing. A form with an empty list is right
nowhere.

A variable of an href must not be structured, because only scalars have an obvious text: its schema is built
first and then looked at. Of two variables with one name the last one counts, while two affordances with one
name are a fault of the thing. The labels of a property belong to the affordance, so those of its schema are
dropped.

Main statement: `formFault?_eq_none_iff` (what a form may list where it stands).
-/

namespace WebOfThings

/-- The fault of the operations that a form lists in its place. -/
def FormPlace.formFault? (place : FormPlace) (f : Form) : Option DraftError :=
  match f.op with
  | .any => if place = .thing then some .missingOperation else none
  | .only [] => some .missingOperation
  | .only ops => (ops.find? fun op => !place.allows op).map (.invalidOperation place)

/-- A form is right in its place if it lists operations that are allowed there; outside of the thing it
may also list none at all. -/
theorem FormPlace.formFault?_eq_none_iff (place : FormPlace) (f : Form) :
    place.formFault? f = none ↔
      (f.op = .any ∧ place ≠ .thing) ∨
        ∃ ops, f.op = .only ops ∧ ops ≠ [] ∧ ∀ op ∈ ops, place.allows op = true := by
  unfold formFault?
  split
  · next h => by_cases hp : place = .thing <;> simp [h, hp]
  · next h => simp [h]
  · next ops hne h =>
    have : ops ≠ [] := fun e => hne e
    simp [h, this]

/-- What is written down about every affordance. -/
structure InteractionDraft where
  labels : Labels := {}
  forms : List Form := []
  uriVariables : List (String × SchemaDraft) := []

/-- A property that is being written down. -/
structure PropertyDraft where
  interaction : InteractionDraft := {}
  schema : Option SchemaDraft := none
  observable : Option Bool := none

/-- An action that is being written down. -/
structure ActionDraft where
  interaction : InteractionDraft := {}
  input : Option SchemaDraft := none
  output : Option SchemaDraft := none
  safe : Bool := false
  idempotent : Bool := false
  synchronous : Option Bool := none

/-- An event that is being written down. -/
structure EventDraft where
  interaction : InteractionDraft := {}
  subscription : Option SchemaDraft := none
  data : Option SchemaDraft := none
  dataResponse : Option SchemaDraft := none
  cancellation : Option SchemaDraft := none

/-- The variable of an href that a draft describes, whose values have to be scalars. -/
def SchemaDraft.buildVariable (entry : String × SchemaDraft) :
    Except DraftError (String × DataSchema) := do
  let schema ← entry.2.build
  match schema.kind with
  | some kind => if kind.isStructured then .error .structuredVariable else .ok (entry.1, schema)
  | none => .ok (entry.1, schema)

/-- The variables of hrefs; of two with one name the last one counts. -/
def SchemaDraft.buildVariables (entries : List (String × SchemaDraft)) :
    Except DraftError (Dict DataSchema) :=
  (entries.mapM buildVariable).map Dict.ofList

/-- The first fault among the forms of a place. -/
def FormPlace.checkForms (place : FormPlace) (forms : List Form) : Except DraftError Unit :=
  match forms.findSome? place.formFault? with
  | some e => .error e
  | none => .ok ()

/-- What all affordances have, or the first fault in it. -/
def InteractionDraft.build (d : InteractionDraft) (type : AffordanceType) :
    Except DraftError Interaction := do
  FormPlace.checkForms (.affordance type) d.forms
  let uriVariables ← SchemaDraft.buildVariables d.uriVariables
  return { labels := d.labels, forms := d.forms, uriVariables }

/-- The property of a draft. The labels belong to the affordance, so the schema has none. -/
def PropertyDraft.build (d : PropertyDraft) : Except DraftError PropertyAffordance := do
  let interaction ← d.interaction.build .property
  let schema ← SchemaDraft.buildOptional d.schema
  return { interaction, schema := { schema.getD {} with labels := {} }, observable := d.observable }

/-- The action of a draft. -/
def ActionDraft.build (d : ActionDraft) : Except DraftError ActionAffordance := do
  let interaction ← d.interaction.build .action
  let input ← SchemaDraft.buildOptional d.input
  let output ← SchemaDraft.buildOptional d.output
  return { interaction, input, output, safe := d.safe, idempotent := d.idempotent,
           synchronous := d.synchronous }

/-- The event of a draft. -/
def EventDraft.build (d : EventDraft) : Except DraftError EventAffordance := do
  let interaction ← d.interaction.build .event
  let subscription ← SchemaDraft.buildOptional d.subscription
  let data ← SchemaDraft.buildOptional d.data
  let dataResponse ← SchemaDraft.buildOptional d.dataResponse
  let cancellation ← SchemaDraft.buildOptional d.cancellation
  return { interaction, subscription, data, dataResponse, cancellation }

end WebOfThings
