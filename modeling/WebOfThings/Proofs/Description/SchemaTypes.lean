import WebOfThings.Proofs.Description.Affordance
import WebOfThings.Proofs.Results

/-!
# Types of schemas

A schema that names a type is never read as one that leaves it open, at no depth, and none is read from a
value with something wrong about its type.

A schema and its value are walked through side by side. A step leads from the schema to one that it contains
(`DataSchema.part?`), and from the value to the value of that one (`Json.schemaPart?`, which says what
counts in a value and what does not). Either there is something on both sides or on neither
(`rel_part?_of_ofMembers?`); by induction over the path the same holds of whole paths (`Describes.rel_at?`).

`Describes` says no more than that the members which types and parts are read from are those of the schema,
since the value of a property holds the schema among other members.

A value with something wrong about its type (`IllTyped`) is described independently of the reader: an
unknown name, a type that is no text, or a member of the wrong sort for the type. That such a value is read
as no schema, and not as one that leaves the type open, is what `deserialize_subtype` is for. The proof
follows the reader through the members that go with the type, field by field.
-/

namespace WebOfThings

/-! ## Values -/

namespace Json

/-- A text. -/
def IsText (v : Json) : Prop := ∃ s, v = .str s

/-- A number of either kind. -/
def IsNumber (v : Json) : Prop := ∃ n, v = .num n

/-- An integer from `low` on and below `high`. -/
def IsIntegerIn (low high : Int) (v : Json) : Prop := ∃ n h, v = .num (.integer n h) ∧ low ≤ n ∧ n < high

/-- An object. -/
def IsObject (v : Json) : Prop := ∃ members, v = .obj members

/-- An array of which all items are of one sort. -/
def IsArrayOf (P : Json → Prop) (v : Json) : Prop := ∃ items, v = .arr items ∧ ∀ w ∈ items, P w

/-- A value of some sort, or `null` in its place. -/
def OrNull (P : Json → Prop) (v : Json) : Prop := v = .null ∨ P v

/-- The items of an array. -/
def items : Json → List Json
  | .arr items => items
  | _ => []

/-- The elements of a value in the *one or many* form. -/
def elements : Json → List Json
  | .arr items => items
  | v => [v]

/-- The member under a key, unless it is `null`. -/
def given? (key : String) (v : Json) : Option Json :=
  match v.get? key with
  | some .null => none
  | w => w

theorem given?_congr {key : String} {v w : Json} (h : v.get? key = w.get? key) : v.given? key = w.given? key := by
  rw [given?, h, given?]

/-- The type that the value of a schema names. -/
def typeName? (v : Json) : Option String := (v.get? "type").bind asString?

/-- What is read as a text is one. -/
theorem isText_of_asString? {v : Json} {s : String} (h : asString? v = some s) : v.IsText := by
  cases v with
  | str t => exact ⟨t, rfl⟩
  | _ => cases h

/-- What is read as a double is a number. -/
theorem isNumber_of_asBinary64? {v : Json} {x : Binary64} (h : asBinary64? v = some x) : v.IsNumber := by
  cases v with
  | num n => exact ⟨n, rfl⟩
  | _ => cases h

/-- What is read as an integer is a number of this kind. -/
theorem eq_integer_of_asInt? {v : Json} {n : Int} (h : asInt? v = some n) :
    ∃ hn, v = .num (.integer n hn) := by
  cases v with
  | num m =>
    cases m with
    | integer k hk =>
      cases h
      exact ⟨hk, rfl⟩
    | float => cases h
  | _ => cases h

/-- Integers are read within bounds. -/
theorem isIntegerIn_of_asInt? {α : Type} {low high : Int} {of : Int → α} {v : Json} {x : α}
    (h : (v.asInt?.bind fun n => if low ≤ n ∧ n < high then some (of n) else none) = some x) :
    v.IsIntegerIn low high := by
  obtain ⟨n, hn, h⟩ := Option.bind_eq_some_iff.1 h
  obtain ⟨hrange, hv⟩ := eq_integer_of_asInt? hn
  split at h
  · next hlt => exact ⟨n, hrange, hv, hlt⟩
  · cases h

theorem isIntegerIn_of_asUInt32? {v : Json} {x : UInt32} (h : asUInt32? v = some x) :
    v.IsIntegerIn 0 4294967296 :=
  isIntegerIn_of_asInt? h

/-- What is read as a signed integer of 64 bits is an integer in range. -/
theorem isIntegerIn_of_asInt64? {v : Json} {x : Int64} (h : asInt64? v = some x) :
    v.IsIntegerIn (-9223372036854775808) 9223372036854775808 :=
  isIntegerIn_of_asInt? h

/-! ## Collections, value by value -/

section

variable {α : Type} {read : Json → Option α} {v : Json}

/-- Lists side by side have elements in the same places. -/
theorem rel_getElem? {γ δ : Type} {r : γ → δ → Prop} {xs : List γ} {ys : List δ} (h : List.Forall₂ r xs ys)
    (i : Nat) : Option.Rel r xs[i]? ys[i]? := by
  induction h generalizing i with
  | nil => exact .none
  | cons hxy _ ih =>
    cases i with
    | zero => exact .some hxy
    | succ i => exact ih i

/-- The list of an array has an element for every item. -/
theorem forall₂_of_asList? {xs : List α} (h : asList? read v = some xs) :
    List.Forall₂ (fun w x => read w = some x) v.items xs := by
  cases v with
  | arr items => exact forall₂_of_mapM h
  | _ => cases h

/-- What is read as a list is an array of what its items are read as. -/
theorem isArrayOf_of_asList? {P : Json → Prop} (hread : ∀ {w x}, read w = some x → P w) {xs : List α}
    (h : asList? read v = some xs) : v.IsArrayOf P := by
  cases v with
  | arr items =>
    refine ⟨items, rfl, ?_⟩
    have hitems := forall₂_of_mapM h
    clear h
    induction hitems with
    | nil => exact List.forall_mem_nil _
    | cons hitem _ ih => exact List.forall_mem_cons.2 ⟨hread hitem, ih⟩
  | _ => cases h

/-- What is read as a dictionary is an object. -/
theorem isObject_of_asDict? {d : Dict α} (h : asDict? read v = some d) : v.IsObject := by
  cases v with
  | obj members => exact ⟨members, rfl⟩
  | _ => cases h

/-- In the *one or many* form, the list has an element for every one of the value. -/
theorem forall₂_of_oneOrMany? {xs : List α} (harr : ∀ items, read (.arr items) = none)
    (h : oneOrMany? read v = some xs) : List.Forall₂ (fun w x => read w = some x) v.elements xs := by
  unfold oneOrMany? at h
  cases v with
  | arr items =>
    rw [harr] at h
    exact forall₂_of_mapM h
  | _ =>
    split at h
    · next x hx =>
      cases h
      exact .cons hx .nil
    · cases h

/-- The dictionary of an object has an entry for every member. -/
theorem rel_get?_of_asDict? {d : Dict α} (h : asDict? read v = some d) (key : String) :
    Option.Rel (fun w x => read w = some x) (v.get? key) (Dict.get? key d) := by
  cases v with
  | obj members =>
    have hentries := forall₂_of_mapM h
    show Option.Rel _ (Dict.get? key members) _
    clear h
    induction hentries with
    | nil => exact .none
    | @cons member _ _ _ hentry _ ih =>
      obtain ⟨x, hx, rfl⟩ := Option.map_eq_some_iff.1 hentry
      rw [Dict.get?_cons, Dict.get?_cons]
      split
      · exact .some hx
      · exact ih
  | _ => cases h

/-- A field that holds a dictionary has an entry for every member of its value. -/
theorem rel_get?_of_dictField {m : List (String × Json)} {d : Dict α} {field : String}
    (h : withDefault? (asDict? read) [] field m = some d) (key : String) :
    Option.Rel (fun w x => read w = some x) ((Dict.get? field m).bind (Json.get? key)) (Dict.get? key d) := by
  rw [withDefault?_eq] at h
  cases hv : Dict.get? field m with
  | none =>
    rw [hv] at h
    cases h
    exact .none
  | some v =>
    rw [hv] at h
    exact rel_get?_of_asDict? h key

/-- An optional field holds something if it has been given. -/
theorem rel_given? {m : List (String × Json)} {x : Option α} {key : String}
    (h : optional? read key m = some x) :
    Option.Rel (fun w y => read w = some y) ((Json.obj m).given? key) x := by
  rw [optional?_eq] at h
  show Option.Rel _ (match Dict.get? key m with | some .null => none | w => w) x
  cases hv : Dict.get? key m with
  | none =>
    rw [hv] at h
    cases h
    exact .none
  | some v =>
    rw [hv] at h
    cases v with
    | null =>
      cases h
      exact .none
    | _ =>
      obtain ⟨y, hy, rfl⟩ := Option.map_eq_some_iff.1 h
      exact .some hy

end

end Json

/-! ## Positions of schemas -/

/-- The step from a schema to one that it contains: an alternative, an item or a member. -/
inductive SchemaStep where
  | alternative (index : Nat)
  | item (index : Nat)
  | member (name : String)

/-- The value of the schema that a step leads to. What stands under `items` counts for arrays only, what
stands under `properties` for objects only. -/
def Json.schemaPart? (v : Json) : SchemaStep → Option Json
  | .alternative index => (v.given? "oneOf").bind (·.items[index]?)
  | .item index => if v.typeName? = some "array" then (v.given? "items").bind (·.elements[index]?) else none
  | .member name => if v.typeName? = some "object" then (v.get? "properties").bind (Json.get? name) else none

/-- The value of the schema at the end of a path. -/
def Json.schemaAt? (v : Json) : List SchemaStep → Option Json
  | [] => some v
  | step :: path => (v.schemaPart? step).bind (·.schemaAt? path)

namespace DataSchema

open Json

/-- The schema that a step leads to. -/
def part? (s : DataSchema) : SchemaStep → Option DataSchema
  | .alternative index => s.oneOf.bind (·[index]?)
  | .item index =>
    match s.kind with
    | some (.array items _ _) => items.bind (·[index]?)
    | _ => none
  | .member name =>
    match s.kind with
    | some (.object properties _) => Dict.get? name properties
    | _ => none

/-- The schema at the end of a path. -/
def at? (s : DataSchema) : List SchemaStep → Option DataSchema
  | [] => some s
  | step :: path => (s.part? step).bind (·.at? path)

/-! ## What goes with a type -/

/-- The names of the types. -/
def typeNames : List String := ["array", "boolean", "number", "integer", "object", "string", "null"]

/-- The names of the bounds. -/
def boundNames : List String :=
  ["minimum", "exclusiveMinimum", "maximum", "exclusiveMaximum", "multipleOf"]

/-- The members that go with a type, each with what may stand under its name. -/
def typeFields : String → List (String × (Json → Prop))
  | "array" =>
    [("items", OrNull fun v => v.IsObject ∨ v.IsArrayOf fun _ => True),
     ("minItems", OrNull (IsIntegerIn 0 4294967296)),
     ("maxItems", OrNull (IsIntegerIn 0 4294967296))]
  | "number" => boundNames.map (·, OrNull IsNumber)
  | "integer" =>
    boundNames.map (·, OrNull (IsIntegerIn (-9223372036854775808) 9223372036854775808))
  | "object" => [("properties", IsObject), ("required", IsArrayOf IsText)]
  | "string" =>
    [("minLength", OrNull (IsIntegerIn 0 4294967296)),
     ("maxLength", OrNull (IsIntegerIn 0 4294967296)),
     ("pattern", OrNull IsText),
     ("contentEncoding", OrNull IsText),
     ("contentMediaType", OrNull IsText)]
  | _ => []

/-- A value that is no schema for the type that it names: it is no object, the type is none of the seven, or
a member that goes with the type is wrong. -/
inductive IllTyped : Json → Prop where
  | noObject {v : Json} (h : ¬ v.IsObject) : IllTyped v
  | unknownType {v w : Json} (htype : v.get? "type" = some w) (h : ∀ name ∈ typeNames, w ≠ .str name) :
    IllTyped v
  | member {v w : Json} {name : String} {field : String × (Json → Prop)}
    (htype : v.get? "type" = some (.str name)) (hfield : field ∈ typeFields name)
    (hw : v.get? field.1 = some w) (h : ¬ field.2 w) : IllTyped v

/-- The schema has the type that the value names; it leaves the type open if the value names none. -/
structure SameType (v : Json) (s : DataSchema) : Prop where
  variable_iff : s.isVariable = true ↔ v.get? "type" = none
  type_eq : v.get? "type" = s.typeName?.map .str

/-! ## What has been read has the type that is named -/

variable {m : List (String × Json)}

theorem typeName_mem_typeNames {σ : Type} (k : SchemaKind σ) : k.typeName ∈ typeNames := by
  cases k <;> simp [SchemaKind.typeName, typeNames]

/-- What stands under the name of an optional field was read, or is `null`. -/
theorem orNull_of_optional? {α : Type} {read : Json → Option α} {P : Json → Prop} {key : String} {x : Option α}
    (h : optional? read key m = some x) (hread : ∀ {v y}, read v = some y → P v) :
    ∀ v, Dict.get? key m = some v → OrNull P v := by
  intro v hv
  rw [optional?_eq, hv] at h
  cases v with
  | null => exact .inl rfl
  | _ =>
    obtain ⟨y, hy, -⟩ := Option.map_eq_some_iff.1 h
    exact .inr (hread hy)

/-- A member that is read, or missing, has the sort that the reader accepts. -/
theorem of_withDefault? {α : Type} {read : Json → Option α} {P : Json → Prop} {key : String} {d x : α}
    (h : withDefault? read d key m = some x) (hread : ∀ {v y}, read v = some y → P v) :
    ∀ v, Dict.get? key m = some v → P v := by
  intro v hv
  rw [withDefault?_eq, hv] at h
  exact hread h

/-- Bounds that are read have the sort that the reader accepts, or are null. -/
theorem orNull_of_bounds? {α : Type} {read : Json → Option α} {P : Json → Prop} {b : Bounds α}
    (h : bounds? read m = some b) (hread : ∀ {v y}, read v = some y → P v) :
    ∀ field ∈ boundNames.map (·, OrNull P), ∀ v, Dict.get? field.1 m = some v → field.2 v := by
  simp only [bounds?, Option.bind_eq_bind, Option.bind_eq_some_iff] at h
  obtain ⟨_, h1, _, h2, _, h3, _, h4, _, h5, -⟩ := h
  simp only [boundNames, List.map_cons, List.map_nil, List.forall_mem_cons]
  exact ⟨orNull_of_optional? h1 hread, orNull_of_optional? h2 hread, orNull_of_optional? h3 hread,
    orNull_of_optional? h4 hread, orNull_of_optional? h5 hread, List.forall_mem_nil _⟩

/-- Whatever goes with a type that was read is right. -/
theorem typeFields_of_kindOfName? {k : SchemaKind DataSchema}
    (h : kindOfName? k.typeName m (readParts m) = some k) :
    ∀ field ∈ typeFields k.typeName, ∀ v, Dict.get? field.1 m = some v → field.2 v := by
  -- By the type that was read, each of which reads its own members.
  rw [readParts_eq] at h
  cases k with
  | array items minItems maxItems =>
    simp only [SchemaKind.typeName, kindOfName?, Option.bind_eq_bind, Option.bind_eq_some_iff] at h
    obtain ⟨_, hitems, _, hmin, _, hmax, -⟩ := h
    simp only [SchemaKind.typeName, typeFields, List.forall_mem_cons]
    refine ⟨orNull_of_optional? hitems ?_, orNull_of_optional? hmin isIntegerIn_of_asUInt32?,
      orNull_of_optional? hmax isIntegerIn_of_asUInt32?, List.forall_mem_nil _⟩
    intro v l hl
    cases v with
    | arr items => exact .inr ⟨items, rfl, fun _ _ => trivial⟩
    | obj members => exact .inl ⟨members, rfl⟩
    | _ => cases hl
  | boolean | null => exact List.forall_mem_nil _
  | number bounds =>
    obtain ⟨_, hbounds, -⟩ := Option.map_eq_some_iff.1 h
    exact orNull_of_bounds? hbounds isNumber_of_asBinary64?
  | integer bounds =>
    obtain ⟨_, hbounds, -⟩ := Option.map_eq_some_iff.1 h
    exact orNull_of_bounds? hbounds isIntegerIn_of_asInt64?
  | object properties required =>
    simp only [SchemaKind.typeName, kindOfName?, Option.bind_eq_bind, Option.bind_eq_some_iff] at h
    obtain ⟨_, hproperties, _, hrequired, -⟩ := h
    simp only [SchemaKind.typeName, typeFields, List.forall_mem_cons]
    exact ⟨of_withDefault? hproperties isObject_of_asDict?,
      of_withDefault? hrequired (isArrayOf_of_asList? isText_of_asString?), List.forall_mem_nil _⟩
  | string rules =>
    obtain ⟨_, hrules, -⟩ := Option.map_eq_some_iff.1 h
    simp only [stringRules?, Option.bind_eq_bind, Option.bind_eq_some_iff] at hrules
    obtain ⟨_, hmin, _, hmax, _, hpattern, _, hencoding, _, hmedia, -⟩ := hrules
    simp only [SchemaKind.typeName, typeFields, List.forall_mem_cons]
    exact ⟨orNull_of_optional? hmin isIntegerIn_of_asUInt32?,
      orNull_of_optional? hmax isIntegerIn_of_asUInt32?,
      orNull_of_optional? hpattern isText_of_asString?, orNull_of_optional? hencoding isText_of_asString?,
      orNull_of_optional? hmedia isText_of_asString?, List.forall_mem_nil _⟩

/-- A schema that is read has the type that its members name. -/
theorem sameType_of_ofMembers? {s : DataSchema} (h : ofMembers? m = some s) : SameType (.obj m) s := by
  obtain ⟨htype, -⟩ := kind?_eq_some (fieldsRead_of_ofMembers? h).kind
  have htype_eq : (Json.obj m).get? "type" = s.typeName?.map .str := by
    rw [typeName?, Option.map_map]
    exact htype
  refine ⟨?_, htype_eq⟩
  rw [isVariable_iff_typeName?_eq_none, htype_eq, Option.map_eq_none_iff]

/-- Members that are read as a schema are right about its type. -/
theorem not_illTyped_of_ofMembers? {s : DataSchema} (h : ofMembers? m = some s) : ¬ IllTyped (.obj m) := by
  obtain ⟨htype, hread⟩ := kind?_eq_some (fieldsRead_of_ofMembers? h).kind
  have htyped : ∀ w, Dict.get? "type" m = some w → ∃ k, s.kind = some k ∧ w = .str k.typeName := by
    intro w hw
    obtain ⟨k, hk, hkw⟩ := Option.map_eq_some_iff.1 (htype.symm.trans hw)
    exact ⟨k, hk, hkw.symm⟩
  intro hill
  cases hill with
  | noObject hobject => exact hobject ⟨m, rfl⟩
  | unknownType hw hunknown =>
    obtain ⟨k, -, hname⟩ := htyped _ hw
    exact hunknown _ (typeName_mem_typeNames k) hname
  | member hname hfield hw hwrong =>
    obtain ⟨k, hk, hkname⟩ := htyped _ hname
    cases hkname
    exact hwrong (typeFields_of_kindOfName? (hread k hk) _ hfield _ hw)

/-- One step leads to a schema and to the value that it was read from, or to nothing on both sides. -/
theorem rel_part?_of_ofMembers? {s : DataSchema} (h : ofMembers? m = some s) (step : SchemaStep) :
    Option.Rel (fun w p => ofJson? w = some p) ((Json.obj m).schemaPart? step) (s.part? step) := by
  have hfields := fieldsRead_of_ofMembers? h
  have htype : (Json.obj m).typeName? = s.typeName? := by
    rw [Json.typeName?, (sameType_of_ofMembers? h).type_eq]
    cases s.typeName? <;> rfl
  have hread := kindRead_of_kind? hfields.kind
  rw [readParts_eq] at hread
  cases step with
  | alternative index =>
    exact rel_bind (rel_given? hfields.oneOf) fun hl => rel_getElem? (forall₂_of_asList? hl) index
  | item index =>
    rw [Json.schemaPart?, part?, htype, typeName?]
    cases hk : s.kind with
    | none => exact .none
    | some k =>
      rw [hk] at hread
      cases k with
      | array items minItems maxItems =>
        exact rel_bind (rel_given? (hread.items _ _ _ rfl)) fun hl =>
          rel_getElem? (forall₂_of_oneOrMany? ofJson?_arr hl) index
      | _ => exact .none
  | member name =>
    rw [Json.schemaPart?, part?, htype, typeName?]
    cases hk : s.kind with
    | none => exact .none
    | some k =>
      rw [hk] at hread
      cases k with
      | object properties required =>
        exact rel_get?_of_dictField (hread.properties _ _ rfl) name
      | _ => exact .none

/-! ## Described schemas -/

/-- The names of the members that the parts and the type of a schema are read from. -/
def typingNames : List String := "oneOf" :: kindFieldNames

/-- The value describes the schema: the parts and the type of the schema were read from its members. Other
members may belong to something else, as those of a property do. -/
def Describes (v : Json) (s : DataSchema) : Prop :=
  ∃ members m, v = .obj members ∧ ofMembers? m = some s ∧
    ∀ key ∈ typingNames, Dict.get? key members = Dict.get? key m

/-- A value describes the schema that is read from it. -/
theorem describes_of_ofJson? {v : Json} {s : DataSchema} (h : ofJson? v = some s) : Describes v s := by
  cases v with
  | obj members => exact ⟨members, members, rfl, h, fun _ _ => rfl⟩
  | _ => cases h

/-- The members about a type are those that count. -/
theorem name_mem_typingNames {name : String} {field : String × (Json → Prop)} (h : field ∈ typeFields name) :
    field.1 ∈ typingNames := by
  have hnames : ∀ name, (typeFields name).map Prod.fst ⊆ typingNames := by
    intro name
    unfold typeFields
    split <;> simp [typingNames, kindFieldNames, boundNames]
  exact hnames name (List.mem_map_of_mem h)

/-- Whether something is wrong about a type depends on the members about it only. -/
theorem IllTyped.congr {members m : List (String × Json)} (h : IllTyped (.obj members))
    (hsame : ∀ key ∈ typingNames, Dict.get? key members = Dict.get? key m) : IllTyped (.obj m) := by
  have htype : Dict.get? "type" members = Dict.get? "type" m := hsame _ (by decide)
  cases h with
  | noObject hobject => exact absurd ⟨members, rfl⟩ hobject
  | unknownType hw hunknown => exact .unknownType (htype.symm.trans hw) hunknown
  | member hname hfield hw hwrong =>
    have hfieldName := hsame _ (name_mem_typingNames hfield)
    exact .member (htype.symm.trans hname) hfield (hfieldName.symm.trans hw) hwrong

/-- Which values are parts depends on the members about the type only. -/
theorem schemaPart?_congr {members m : List (String × Json)}
    (hsame : ∀ key ∈ typingNames, Dict.get? key members = Dict.get? key m) (step : SchemaStep) :
    (Json.obj members).schemaPart? step = (Json.obj m).schemaPart? step := by
  have hget : ∀ key ∈ typingNames, (Json.obj members).get? key = (Json.obj m).get? key := hsame
  have htype : (Json.obj members).typeName? = (Json.obj m).typeName? := by
    rw [Json.typeName?, hget _ (by decide), Json.typeName?]
  cases step with
  | alternative index => rw [schemaPart?, given?_congr (hget _ (by decide)), schemaPart?]
  | item index => rw [schemaPart?, htype, given?_congr (hget _ (by decide)), schemaPart?]
  | member name => rw [schemaPart?, htype, hget _ (by decide), schemaPart?]

namespace Describes

variable {v : Json} {s : DataSchema}

/-- What describes a schema names its type. -/
theorem sameType (h : Describes v s) : SameType v s := by
  obtain ⟨members, m, rfl, hm, hsame⟩ := h
  have htype : Dict.get? "type" members = Dict.get? "type" m := hsame _ (by decide)
  obtain ⟨hvariable, heq⟩ := sameType_of_ofMembers? hm
  exact ⟨hvariable.trans (iff_of_eq (congrArg (· = none) htype.symm)), htype.trans heq⟩

theorem not_illTyped (h : Describes v s) : ¬ IllTyped v := by
  obtain ⟨members, m, rfl, hm, hsame⟩ := h
  exact fun hill => not_illTyped_of_ofMembers? hm (hill.congr hsame)

/-- One step leads from what is described to what is described. -/
theorem rel_part? (h : Describes v s) (step : SchemaStep) :
    Option.Rel Describes (v.schemaPart? step) (s.part? step) := by
  obtain ⟨members, m, rfl, hm, hsame⟩ := h
  rw [schemaPart?_congr hsame]
  exact rel_imp (rel_part?_of_ofMembers? hm step) describes_of_ofJson?

/-- So does a path. -/
theorem rel_at? (h : Describes v s) (path : List SchemaStep) :
    Option.Rel Describes (v.schemaAt? path) (s.at? path) := by
  induction path generalizing v s with
  | nil => exact .some h
  | cons step path ih => exact rel_bind (h.rel_part? step) ih

end Describes

/-- At every position the value and the schema have the same type, or neither has anything. -/
def KeepsTypes (v : Json) (s : DataSchema) : Prop :=
  ∀ path, Option.Rel SameType (v.schemaAt? path) (s.at? path)

/-- Somewhere in the value there is a value that is no schema for its type. -/
def HoldsIllTyped (v : Json) : Prop := ∃ path w, v.schemaAt? path = some w ∧ IllTyped w

theorem Describes.keepsTypes {v : Json} {s : DataSchema} (h : Describes v s) : KeepsTypes v s :=
  fun path => rel_imp (h.rel_at? path) Describes.sameType

/-- What describes a schema is right about types at every depth. -/
theorem Describes.not_holdsIllTyped {v : Json} {s : DataSchema} (h : Describes v s) :
    ¬ HoldsIllTyped v := by
  intro ⟨path, w, hw, hill⟩
  have hrel := h.rel_at? path
  rw [hw] at hrel
  obtain ⟨p, -, hp⟩ := exists_of_rel_some hrel
  exact hp.not_illTyped hill

end DataSchema
end WebOfThings
