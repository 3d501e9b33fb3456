import WebOfThings.Affordance

/-!
# Faults of drafts

What may be inconsistent in a description that is being written down, with the wording of each fault. The
faults name what they are about: a security definition or an affordance by its name, a form by the place in
which it stands and the operation that does not belong there. `FormPlace.allows` is the table that decides
the latter.
-/

namespace WebOfThings

/-- Where a form stands. -/
inductive FormPlace where
  | thing
  | affordance (type : AffordanceType)
  deriving DecidableEq

namespace FormPlace

/-- The name of the place for people. -/
def label : FormPlace → String
  | thing => "Thing"
  | affordance .property => "PropertyAffordance"
  | affordance .action => "ActionAffordance"
  | affordance .event => "EventAffordance"

/-- Whether a form in this place may list an operation. -/
def allows (place : FormPlace) (op : Operation) : Bool :=
  match place, op with
  | thing, op => op.isThingLevel
  | affordance .property,
    .readProperty | affordance .property, .writeProperty
  | affordance .property, .observeProperty | affordance .property, .unobserveProperty => true
  | affordance .action, .invokeAction | affordance .action, .queryAction
  | affordance .action, .cancelAction => true
  | affordance .event, .subscribeEvent | affordance .event, .unsubscribeEvent => true
  | _, _ => false

end FormPlace

/-- What is inconsistent in a draft. -/
inductive DraftError where
  /-- Two security definitions have one name. -/
  | duplicateSecurityDefinition (name : String)
  /-- A form lists no operation where it has to. -/
  | missingOperation
  /-- A form lists an operation that its place does not allow. -/
  | invalidOperation (place : FormPlace) (op : Operation)
  /-- A name in a security list has no definition. -/
  | undefinedSecurity (name : String)
  /-- A lower bound is above the upper one. -/
  | lowerAboveUpper
  /-- A bound is not a number. -/
  | boundNotANumber
  /-- Two affordances of one type have one name. -/
  | duplicateAffordance (type : AffordanceType) (name : String)
  /-- A divisor is not above zero. -/
  | invalidMultipleOf
  /-- The schema of a variable in an href has parts. -/
  | structuredVariable
  /-- An IRI of the vocabulary is empty. -/
  | emptyIri
  deriving DecidableEq

/-- The wording of the error. -/
def DraftError.message : DraftError → String
  | duplicateSecurityDefinition name =>
    "Two security definitions use the name \"" ++ name ++ "\""
  | missingOperation =>
    "A Form directly placed in a Thing must contain at least one relevant operation"
  | invalidOperation place op =>
    "Invalid Form operation " ++ op.name ++ " in " ++ place.label ++ " context"
  | undefinedSecurity name =>
    "Security \"" ++ name ++ "\" is not specified in Thing security definitions"
  | lowerAboveUpper => "Min value greater than max value"
  | boundNotANumber => "Min or Max value is NaN"
  | duplicateAffordance type name =>
    "Two affordances of type " ++ type.word ++ " use the name \"" ++ name ++ "\""
  | invalidMultipleOf => "\"multipleOf\" field must be strictly greater than 0"
  | structuredVariable => "An uriVariable cannot be an ObjectSchema or ArraySchema"
  | emptyIri => "Invalid @context: IRI cannot be an empty string"

end WebOfThings
