import WebOfThings.Draft.Error

/-!
# Drafts of schemas

A schema that is being written down: what is said about its values, and its parts, which are drafts
themselves, in the order in which they were added. Building it checks the parts first, in that order, and
then its own bounds (`check_range`, `check_subtype`).

A schema builder starts without a type and becomes the builder of a type once one is chosen: only an array
has items, only an object members, only numbers bounds. Here the type is a field, so these rules are a
function: `PartRole.fits` says which parts a type has, and `addPart?` has no result for the others.
Alternatives fit every type. Choosing a type again starts its particulars anew. Items and members that were
added before are no longer part of the schema; but a fault in one of them is still reported, since the first
fault that a builder meets is kept. Therefore `choose` does not delete these parts: `afterChoice` gives them
the role `replaced`, in which they are built and left out.

Bounds are in order if no lower bound is above its upper one; bounds of doubles must be numbers as well, and
divisors above zero.

Main statements: `isAbove_eq_false_iff` and `boundsFault?_eq_none_iff` (which bounds are consistent).
-/

namespace WebOfThings

/-- The type of a schema in a draft, apart from its parts. -/
inductive DraftKind where
  | variable
  | boolean
  | null
  | number (bounds : Bounds Binary64)
  | integer (bounds : Bounds Int64)
  | string (rules : StringRules)
  | array (minItems maxItems : Option UInt32)
  | object

/-- The role of a part of a schema. -/
inductive PartRole where
  /-- One of several schemas for the value itself. -/
  | alternative
  /-- The schema of the next item of an array. -/
  | item
  /-- The schema of a member of an object. -/
  | member (name : String) (required : Bool)
  /-- An item or a member of a type that another choice of the type has replaced. The part is still checked. -/
  | replaced
  deriving DecidableEq

namespace PartRole

/-- Whether a schema of a type has parts in this role. -/
def fits : PartRole → DraftKind → Bool
  | alternative, _ => true
  | item, .array .. => true
  | member .., .object => true
  | _, _ => false

/-- The role of a part once the type of its schema is chosen again. -/
def afterChoice : PartRole → PartRole
  | alternative => alternative
  | _ => replaced

end PartRole

/-- A schema that is being written down. -/
structure SchemaDraft where
  labels : Labels := {}
  constant : Option Json := none
  default : Option Json := none
  unit : Option String := none
  enumeration : Option (List Json) := none
  readOnly : Bool := false
  writeOnly : Bool := false
  format : Option String := none
  kind : DraftKind := .variable
  parts : List (PartRole × SchemaDraft) := []

namespace SchemaDraft

instance : Inhabited SchemaDraft := ⟨{}⟩

/-! ## Writing down -/

/-- The draft with one more allowed value. -/
def addValue (d : SchemaDraft) (v : Json) : SchemaDraft :=
  { d with enumeration := some (d.enumeration.getD [] ++ [v]) }

/-- The draft with one more part, if its type has parts in that role. -/
def addPart? (d : SchemaDraft) (role : PartRole) (part : SchemaDraft) : Option SchemaDraft :=
  if role.fits d.kind then some { d with parts := d.parts ++ [(role, part)] } else none

/-- The draft with another type. Its alternatives stay; items and members belong to the type before. -/
def choose (d : SchemaDraft) (kind : DraftKind) : SchemaDraft :=
  { d with kind, parts := d.parts.map fun p => (p.1.afterChoice, p.2) }

/-! ## Bounds -/

/-- Whether a lower bound is above an upper one; a missing bound is fine. -/
def isAbove {α : Type} (lt : α → α → Bool) : Option α → Option α → Bool
  | some lower, some upper => lt upper lower
  | _, _ => false

/-- The fault of bounds, given when a divisor is above zero. -/
def boundsFault? {α : Type} (lt : α → α → Bool) (isPositive : α → Bool) (b : Bounds α) :
    Option DraftError :=
  if isAbove lt b.minimum b.maximum || isAbove lt b.exclusiveMinimum b.exclusiveMaximum then
    some .lowerAboveUpper
  else if b.multipleOf.any fun d => !isPositive d then some .invalidMultipleOf
  else none

/-- Whether one of the bounds is not a number. The divisor is no bound. -/
def hasNaN (b : Bounds Binary64) : Bool :=
  b.minimum.any Binary64.isNaN || b.maximum.any Binary64.isNaN ||
    b.exclusiveMinimum.any Binary64.isNaN || b.exclusiveMaximum.any Binary64.isNaN

/-- The fault in what a draft says about values of its type. -/
def kindFault? : DraftKind → Option DraftError
  | .number b =>
    if hasNaN b then some .boundNotANumber
    else boundsFault? Binary64.lt (fun d => Binary64.lt (.zero false) d) b
  | .integer b => boundsFault? (fun x y => decide (x < y)) (fun d => decide (0 < d)) b
  | .string r =>
    if isAbove (fun x y => decide (x < y)) r.minLength r.maxLength then some .lowerAboveUpper
    else none
  | .array minItems maxItems =>
    if isAbove (fun x y => decide (x < y)) minItems maxItems then some .lowerAboveUpper else none
  | .variable | .boolean | .null | .object => none

/-- Bounds are in order if the upper one, where both are given, is not below the lower one. -/
theorem isAbove_eq_false_iff {α : Type} {lt : α → α → Bool} {lower upper : Option α} :
    isAbove lt lower upper = false ↔
      ∀ l ∈ lower, ∀ u ∈ upper, lt u l = false := by
  cases lower <;> cases upper <;> simp [isAbove]

/-- Bounds are right if no lower one is above its upper one and the divisor is above zero. -/
theorem boundsFault?_eq_none_iff {α : Type} {lt : α → α → Bool} {isPositive : α → Bool}
    {b : Bounds α} :
    boundsFault? lt isPositive b = none ↔
      isAbove lt b.minimum b.maximum = false ∧
        isAbove lt b.exclusiveMinimum b.exclusiveMaximum = false ∧
        ∀ d ∈ b.multipleOf, isPositive d = true := by
  unfold boundsFault?
  split
  · next h =>
    simp only [Bool.or_eq_true] at h
    rcases h with h | h <;> simp [h]
  · next h =>
    simp only [Bool.or_eq_true, not_or, Bool.not_eq_true] at h
    cases b.multipleOf <;> simp [h]

/-! ## Building -/

/-- The schemas of the parts in a role, in order; none if there are no such parts. -/
def inRole (role : PartRole) (parts : List (PartRole × DataSchema)) : Option (List DataSchema) :=
  let schemas := (parts.filter fun p => p.1 = role).map Prod.snd
  if schemas.isEmpty then none else some schemas

/-- The schemas of the members among built parts; of two with one name the last one counts. -/
def properties (parts : List (PartRole × DataSchema)) : Dict DataSchema :=
  Dict.ofList <| parts.filterMap fun
    | (.member name _, s) => some (name, s)
    | _ => none

/-- The names of the members that are required, as often as they were added. -/
def required (parts : List (PartRole × DataSchema)) : List String :=
  parts.filterMap fun
    | (.member name true, _) => some name
    | _ => none

/-- The kind of a schema with its built parts. -/
def builtKind (parts : List (PartRole × DataSchema)) : DraftKind → Option (SchemaKind DataSchema)
  | .variable => none
  | .boolean => some .boolean
  | .null => some .null
  | .number b => some (.number b)
  | .integer b => some (.integer b)
  | .string r => some (.string r)
  | .array minItems maxItems => some (.array (inRole .item parts) minItems maxItems)
  | .object => some (.object (properties parts) (required parts))

mutual

/-- The schema of a draft, or its first fault. -/
def build : SchemaDraft → Except DraftError DataSchema
  | ⟨labels, constant, default, unit, enumeration, readOnly, writeOnly, format, kind, parts⟩ =>
    match buildParts parts with
    | .error e => .error e
    | .ok parts =>
      match kindFault? kind with
      | some e => .error e
      | none =>
        .ok { labels, constant, default, unit, oneOf := inRole .alternative parts, enumeration, readOnly,
              writeOnly, format, kind := builtKind parts kind }

/-- The parts of a draft, or the first fault among them. -/
def buildParts : List (PartRole × SchemaDraft) → Except DraftError (List (PartRole × DataSchema))
  | [] => .ok []
  | (role, d) :: rest =>
    match build d with
    | .error e => .error e
    | .ok s =>
      match buildParts rest with
      | .error e => .error e
      | .ok others => .ok ((role, s) :: others)

end

/-- The schema of a draft that may be missing. -/
def buildOptional : Option SchemaDraft → Except DraftError (Option DataSchema)
  | none => .ok none
  | some d => d.build.map some

end SchemaDraft
end WebOfThings
