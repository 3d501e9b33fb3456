/-!
# Operations

What a form can be used for: nine operations on single affordances and nine on a thing as a whole
(`FormOperation`). The table of names is the only place where they are spelled; reading goes through it, so
that `ofName?` and `name` cannot disagree. Names are case sensitive and take no blanks.

`isThingLevel` tells the two halves apart: forms of a thing as a whole may list only these, forms of
affordances only the others, and drafts are checked for it. `position` is the place of an operation in the
list of all.

Main statement: `ofName?_name` (the name of an operation names it). An unknown name is an error with a
wording of its own (`from_str`).
-/

namespace WebOfThings

/-- An operation on an affordance or on a whole thing. -/
inductive Operation where
  | readProperty
  | writeProperty
  | observeProperty
  | unobserveProperty
  | invokeAction
  | queryAction
  | cancelAction
  | subscribeEvent
  | unsubscribeEvent
  | readAllProperties
  | writeAllProperties
  | readMultipleProperties
  | writeMultipleProperties
  | observeAllProperties
  | unobserveAllProperties
  | subscribeAllEvents
  | unsubscribeAllEvents
  | queryAllActions
  deriving DecidableEq

namespace Operation

/-- Every operation, those on single affordances first. -/
def all : List Operation :=
  [readProperty, writeProperty, observeProperty, unobserveProperty, invokeAction, queryAction,
   cancelAction, subscribeEvent, unsubscribeEvent, readAllProperties, writeAllProperties,
   readMultipleProperties, writeMultipleProperties, observeAllProperties, unobserveAllProperties,
   subscribeAllEvents, unsubscribeAllEvents, queryAllActions]

/-- The name of an operation in descriptions. -/
def name : Operation → String
  | readProperty => "readproperty"
  | writeProperty => "writeproperty"
  | observeProperty => "observeproperty"
  | unobserveProperty => "unobserveproperty"
  | invokeAction => "invokeaction"
  | queryAction => "queryaction"
  | cancelAction => "cancelaction"
  | subscribeEvent => "subscribeevent"
  | unsubscribeEvent => "unsubscribeevent"
  | readAllProperties => "readallproperties"
  | writeAllProperties => "writeallproperties"
  | readMultipleProperties => "readmultipleproperties"
  | writeMultipleProperties => "writemultipleproperties"
  | observeAllProperties => "observeallproperties"
  | unobserveAllProperties => "unobserveallproperties"
  | subscribeAllEvents => "subscribeallevents"
  | unsubscribeAllEvents => "unsubscribeallevents"
  | queryAllActions => "queryallactions"

/-- The operation with a name. -/
def ofName? (s : String) : Option Operation := all.find? fun op => op.name = s

/-- Whether an operation is on a thing as a whole. -/
def isThingLevel : Operation → Bool
  | readAllProperties | writeAllProperties | readMultipleProperties | writeMultipleProperties
  | observeAllProperties | unobserveAllProperties | subscribeAllEvents | unsubscribeAllEvents
  | queryAllActions => true
  | _ => false

/-- The place of an operation among all of them. -/
def position (op : Operation) : Nat := all.findIdx (· = op)

/-- Every operation is known by its name. -/
theorem ofName?_name (op : Operation) : ofName? op.name = some op := by
  cases op <;> rfl

end Operation

/-- A name that no operation has. -/
structure UnknownOperation where
  name : String
  deriving DecidableEq

/-- The wording of the error. -/
def UnknownOperation.message (e : UnknownOperation) : String :=
  "Unknown form operation \"" ++ e.name ++ "\""

/-- The operation with a name, or the name as an error. -/
def Operation.ofName (s : String) : Except UnknownOperation Operation :=
  match ofName? s with
  | some op => .ok op
  | none => .error ⟨s⟩

end WebOfThings
