import WebOfThings.DataSchema
import WebOfThings.Proofs.Description.Record
import WebOfThings.Proofs.Json.Scalar

/-!
# Schemas that read back

Schemas nest without bound, and what they contain is read and written by functions that call each other. The
first part says that these functions are the readers and writers of the other descriptions, applied to the
schemas of the parts (`readParts_eq`, `members_eq`): of one level there is nothing left to show but the
fields.

`WellFormed` is what reading keeps true at every level (`wellFormed_of_ofJson?`, by induction over the
value). By induction over it, a schema is read as it was written (`readsAs_toJson`). `Canonical` is what is
true of every schema, read or made: its dictionaries are in order and the values that it holds are normal.
No more is needed for what it writes to be normal (`Canonical.isNormal_toJson`).

A number schema keeps doubles in its bounds, and only finite doubles can be written; reading never leaves
others, but a program can make them, so finiteness is part of `WellFormed` and not of `Canonical`. The list
of items has two forms in a value, one schema or an array of schemas; they cannot be confused, since no
array is a schema (`ofJson?_arr`).
-/

namespace WebOfThings.DataSchema

open Json

/-! ## One level of reading and writing -/

/-- Schemas in a list are read one by one. -/
theorem readEach_eq (items : List Json) : readEach items = items.mapM ofJson? := by
  induction items with
  | nil => rfl
  | cons v rest ih =>
    rw [readEach, ih, List.mapM_cons]

/-- Named schemas are read one by one. -/
theorem readNamedEach_eq (members : List (String × Json)) :
    readNamedEach members = asDict? ofJson? (.obj members) := by
  simp only [asDict?]
  induction members with
  | nil => rfl
  | cons e rest ih =>
    obtain ⟨key, v⟩ := e
    rw [readNamedEach, ih, List.mapM_cons]
    cases ofJson? v <;> rfl

/-- Named schemas are read as a dictionary. -/
theorem readNamed_eq (v : Json) : readNamed v = asDict? ofJson? v := by
  cases v with
  | obj members => exact readNamedEach_eq members
  | _ => rfl

/-- Alternatives are read as a list that may be missing. -/
theorem readAlternatives_eq (v : Json) :
    readAlternatives v = optionalValue? (asList? ofJson?) (some v) := by
  cases v with
  | arr items =>
    show (readEach items).map some = (items.mapM ofJson?).map some
    rw [readEach_eq]
  | _ => rfl

/-- Items are read in the one or many form, and may be missing. -/
theorem readOneOrMany_eq (v : Json) :
    readOneOrMany v = optionalValue? (oneOrMany? ofJson?) (some v) := by
  cases v with
  | arr items =>
    show (readEach items).map some = (items.mapM ofJson?).map some
    rw [readEach_eq]
  | obj members =>
    have hbare : readOneOrMany (.obj members) = (ofMembers? members).map fun s => some [s] := rfl
    rw [hbare, optionalValue?, oneOrMany?, ofJson?_obj]
    · cases ofMembers? members <;> rfl
    · simp
  | _ => rfl

/-- The parts of a schema are read as the fields of other descriptions are. -/
theorem readParts_eq (members : List (String × Json)) :
    readParts members =
      { oneOf := optional? (asList? ofJson?) "oneOf" members
        items := optional? (oneOrMany? ofJson?) "items" members
        properties := withDefault? (asDict? ofJson?) [] "properties" members } := by
  induction members with
  | nil => rfl
  | cons e rest ih =>
    obtain ⟨key, v⟩ := e
    simp only [readParts, ih, optional?_eq, withDefault?_eq, Dict.get?_cons]
    split
    · next h =>
      subst h
      simp [readAlternatives_eq]
    · split
      · next h =>
        subst h
        simp [readOneOrMany_eq]
      · split
        · next h =>
          subst h
          simp [readNamed_eq, defaultValue?]
        · simp

/-- Schemas in a list are written one by one. -/
theorem writeEach_eq (schemas : List DataSchema) : writeEach schemas = schemas.map toJson := by
  induction schemas with
  | nil => rfl
  | cons s rest ih =>
    rw [writeEach, ih]
    rfl

/-- Named schemas are written one by one. -/
theorem writeNamed_eq (schemas : Dict DataSchema) : writeNamed schemas = schemas.mapValues toJson := by
  induction schemas with
  | nil => rfl
  | cons e rest ih =>
    obtain ⟨key, s⟩ := e
    rw [writeNamed, ih]
    rfl

/-- A list of schemas that may be missing is written where there is one. -/
theorem writeOptional_eq (schemas : Option (List DataSchema)) :
    writeOptional schemas = schemas.map (List.map toJson) := by
  cases schemas with
  | none => rfl
  | some l => exact congrArg some (writeEach_eq l)

/-- A single schema is written bare. -/
theorem bareIfOne_map (schemas : List DataSchema) :
    bareIfOne (schemas.map toJson) = oneOrMany toJson schemas := by
  match schemas with
  | [] => rfl
  | [_] => rfl
  | _ :: _ :: _ => rfl

/-- The parts of a schema are written as the fields of other descriptions are. -/
theorem members_eq (s : DataSchema) :
    s.members =
      s.labels.members ++
      field "const" s.constant ++
      field "default" s.default ++
      field "unit" (s.unit.map .str) ++
      field "oneOf" (s.oneOf.map fun l => .arr (l.map toJson)) ++
      field "enum" (s.enumeration.map .arr) ++
      flag "readOnly" s.readOnly ++
      flag "writeOnly" s.writeOnly ++
      field "format" (s.format.map .str) ++
      kindMembers s.kind := by
  obtain ⟨labels, constant, default, unit, oneOf, enumeration, readOnly, writeOnly, format, kind⟩ := s
  rw [members, writeOptional_eq, Option.map_map]
  rfl

/-- The members that are written for an array. -/
theorem kindMembers_array (items : Option (List DataSchema)) (minItems maxItems : Option UInt32) :
    kindMembers (some (.array items minItems maxItems)) =
      ("type", .str "array") ::
      field "items" (items.map (oneOrMany toJson)) ++
      field "minItems" (minItems.map ofUInt32) ++
      field "maxItems" (maxItems.map ofUInt32) := by
  rw [kindMembers, writeOptional_eq, Option.map_map]
  simp only [Function.comp_def, bareIfOne_map]

/-- The members that are written for an object. -/
theorem kindMembers_object (properties : Dict DataSchema) (required : List String) :
    kindMembers (some (.object properties required)) =
      ("type", .str "object") ::
      listField "properties" (ofDict toJson) properties ++
      listField "required" (fun names => .arr (names.map .str)) required := by
  rw [kindMembers, writeNamed_eq]
  cases properties <;> rfl

/-! ## Well-formed schemas -/

/-- The schemas that a schema contains. -/
def parts (s : DataSchema) : List DataSchema :=
  s.oneOf.getD [] ++
  match s.kind with
  | some (.array items _ _) => items.getD []
  | some (.object properties _) => Dict.values properties
  | _ => []

/-- An alternative is a part of its schema. -/
theorem mem_parts_of_oneOf {s p : DataSchema} {l : List DataSchema} (h : s.oneOf = some l) (hp : p ∈ l) :
    p ∈ s.parts := by
  rw [parts, h]
  exact List.mem_append_left _ hp

/-- A schema of items is a part of that of the array. -/
theorem mem_parts_of_items {s p : DataSchema} {l : List DataSchema} {minItems maxItems : Option UInt32}
    (h : s.kind = some (.array (some l) minItems maxItems)) (hp : p ∈ l) : p ∈ s.parts := by
  rw [parts, h]
  exact List.mem_append_right _ hp

/-- A schema of a member is a part of that of the object. -/
theorem mem_parts_of_properties {s : DataSchema} {d : Dict DataSchema} {required : List String}
    {e : String × DataSchema} (h : s.kind = some (.object d required)) (he : e ∈ d) : e.2 ∈ s.parts := by
  rw [parts, h]
  exact List.mem_append_right _ (List.mem_map_of_mem he)

/-- The bounds are finite. -/
def FiniteBounds (b : Bounds Binary64) : Prop :=
  ∀ x ∈ [b.minimum, b.exclusiveMinimum, b.maximum, b.exclusiveMaximum, b.multipleOf],
    ∀ y, x = some y → y.isFinite = true

/-- What reading keeps true of a schema apart from its parts. -/
structure LevelWellFormed (s : DataSchema) : Prop where
  labels : s.labels.WellFormed
  constant : ∀ v, s.constant = some v → v.IsNormal ∧ v ≠ .null
  default : ∀ v, s.default = some v → v.IsNormal ∧ v ≠ .null
  enumeration : ∀ vs, s.enumeration = some vs → ∀ v ∈ vs, v.IsNormal
  bounds : ∀ b, s.kind = some (.number b) → FiniteBounds b
  properties : ∀ d required, s.kind = some (.object d required) → Dict.Sorted d

/-- What reading keeps true of a schema, at every level. -/
inductive WellFormed : DataSchema → Prop where
  | intro {s : DataSchema} (level : s.LevelWellFormed) (parts : ∀ p ∈ s.parts, WellFormed p) :
    WellFormed s

/-- The dictionaries of a schema are in order and the values that it holds are normal; nothing is said about
its parts. -/
structure LevelCanonical (s : DataSchema) : Prop where
  labels : s.labels.WellFormed
  constant : ∀ v, s.constant = some v → v.IsNormal
  default : ∀ v, s.default = some v → v.IsNormal
  enumeration : ∀ vs, s.enumeration = some vs → ∀ v ∈ vs, v.IsNormal
  properties : ∀ d required, s.kind = some (.object d required) → Dict.Sorted d

/-- The dictionaries of a schema are in order and the values that it holds are normal, at every level. -/
inductive Canonical : DataSchema → Prop where
  | intro {s : DataSchema} (level : s.LevelCanonical) (parts : ∀ p ∈ s.parts, Canonical p) : Canonical s

/-- What is well-formed at one level can be written there. -/
theorem LevelWellFormed.canonical {s : DataSchema} (h : s.LevelWellFormed) : s.LevelCanonical where
  labels := h.labels
  constant := fun v hv => (h.constant v hv).1
  default := fun v hv => (h.default v hv).1
  enumeration := h.enumeration
  properties := h.properties

theorem WellFormed.canonical {s : DataSchema} (h : s.WellFormed) : s.Canonical := by
  induction h with
  | intro level _ ih => exact .intro level.canonical ih

/-! ## The fields of a schema -/

/-- The names of the fields that depend on the type. -/
def kindFieldNames : List String :=
  ["type", "items", "minItems", "maxItems", "minimum", "exclusiveMinimum", "maximum", "exclusiveMaximum",
   "multipleOf", "properties", "required", "minLength", "maxLength", "pattern", "contentEncoding",
   "contentMediaType"]

/-- The names of the other fields, those of the labels apart. -/
def plainFieldNames : List String :=
  ["const", "default", "unit", "oneOf", "enum", "readOnly", "writeOnly", "format"]

/-- The names of the fields of a schema. -/
def fieldNames : List String := Labels.fieldNames ++ plainFieldNames ++ kindFieldNames

/-- The members of bounds are those of a type. -/
theorem mem_boundsMembers {α : Type} {write : α → Json} {b : Bounds α} {e : String × Json}
    (h : e ∈ boundsMembers write b) : e.1 ∈ kindFieldNames := by
  simp only [boundsMembers, List.mem_append] at h
  rcases h with (((h | h) | h) | h) | h <;> simp [mem_field h, kindFieldNames]

/-- So are the members of rules about texts. -/
theorem mem_stringRulesMembers {r : StringRules} {e : String × Json} (h : e ∈ stringRulesMembers r) :
    e.1 ∈ kindFieldNames := by
  simp only [stringRulesMembers, List.mem_append] at h
  rcases h with (((h | h) | h) | h) | h <;> simp [mem_field h, kindFieldNames]

/-- So are the members of a type. -/
theorem mem_kindMembers {kind : Option (SchemaKind DataSchema)} {e : String × Json}
    (h : e ∈ kindMembers kind) : e.1 ∈ kindFieldNames := by
  match kind with
  | none => cases h
  | some (.array items minItems maxItems) =>
    rw [kindMembers_array] at h
    simp only [List.mem_append, List.mem_cons] at h
    rcases h with ((rfl | h) | h) | h
    · simp [kindFieldNames]
    all_goals simp [mem_field h, kindFieldNames]
  | some .boolean =>
    rcases List.mem_singleton.1 h with rfl
    simp [kindFieldNames]
  | some (.number bounds) =>
    rcases List.mem_cons.1 h with rfl | h
    · simp [kindFieldNames]
    · exact mem_boundsMembers h
  | some (.integer bounds) =>
    rcases List.mem_cons.1 h with rfl | h
    · simp [kindFieldNames]
    · exact mem_boundsMembers h
  | some (.object properties required) =>
    rw [kindMembers_object] at h
    simp only [List.mem_append, List.mem_cons] at h
    rcases h with (rfl | h) | h
    · simp [kindFieldNames]
    all_goals simp [mem_listField h, kindFieldNames]
  | some (.string rules) =>
    rcases List.mem_cons.1 h with rfl | h
    · simp [kindFieldNames]
    · exact mem_stringRulesMembers h
  | some .null =>
    rcases List.mem_singleton.1 h with rfl
    simp [kindFieldNames]

/-- The members of a schema have its field names. -/
theorem mem_members {s : DataSchema} {e : String × Json} (h : e ∈ s.members) : e.1 ∈ fieldNames := by
  rw [members_eq] at h
  simp only [List.mem_append] at h
  rcases h with ((((((((h | h) | h) | h) | h) | h) | h) | h) | h) | h
  · exact List.mem_append_left _ (List.mem_append_left _ (Labels.mem_members h))
  · simp [mem_field h, fieldNames, plainFieldNames]
  · simp [mem_field h, fieldNames, plainFieldNames]
  · simp [mem_field h, fieldNames, plainFieldNames]
  · simp [mem_field h, fieldNames, plainFieldNames]
  · simp [mem_field h, fieldNames, plainFieldNames]
  · simp [mem_flag h, fieldNames, plainFieldNames]
  · simp [mem_flag h, fieldNames, plainFieldNames]
  · simp [mem_field h, fieldNames, plainFieldNames]
  · exact List.mem_append_right _ (mem_kindMembers h)

theorem get?_members_eq_none {s : DataSchema} {key : String} (h : key ∉ fieldNames) :
    Dict.get? key (Dict.ofList s.members) = none :=
  Dict.get?_ofList_eq_none fun _ he hkey => h (hkey ▸ mem_members he)

/-- The kind depends on its fields only. -/
theorem kind?_congr {m m' : List (String × Json)}
    (h : ∀ key ∈ kindFieldNames, Dict.get? key m = Dict.get? key m') (p : Parts) :
    kind? m p = kind? m' p := by
  simp only [kindFieldNames, List.forall_mem_cons] at h
  simp only [kind?, kindOfName?, bounds?, stringRules?, optional?_eq, withDefault?_eq, h]

/-- A schema depends on the fields of schemas only. -/
theorem ofMembers?_congr {m m' : List (String × Json)}
    (h : ∀ key ∈ fieldNames, Dict.get? key m = Dict.get? key m') : ofMembers? m = ofMembers? m' := by
  have hlabels : Labels.ofMembers? m = Labels.ofMembers? m' :=
    Labels.ofMembers?_congr fun key hkey =>
      h key (List.mem_append_left _ (List.mem_append_left _ hkey))
  have hplain : ∀ key ∈ plainFieldNames, Dict.get? key m = Dict.get? key m' := fun key hkey =>
    h key (List.mem_append_left _ (List.mem_append_right _ hkey))
  have hkind : ∀ key ∈ kindFieldNames, Dict.get? key m = Dict.get? key m' := fun key hkey =>
    h key (List.mem_append_right _ hkey)
  simp only [ofMembers?, assemble?, hlabels, kind?_congr hkind]
  simp only [plainFieldNames, List.forall_mem_cons] at hplain
  simp only [kindFieldNames, List.forall_mem_cons] at hkind
  simp only [readParts_eq, optional?_eq, withDefault?_eq, hplain, hkind]

/-! ## Reading what was written -/

/-- A list of schemas written one after the other is no schema. -/
theorem ofJson?_arr (items : List Json) : ofJson? (.arr items) = none := rfl

theorem toJson_ne_null (s : DataSchema) : s.toJson ≠ .null := by simp [toJson, object]

/-- Schemas that read back read back in the one or many form. -/
theorem readsAs_oneOrMany {schemas : List DataSchema}
    (h : ∀ s ∈ schemas, ofJson? s.toJson = some s) :
    ReadsAs (oneOrMany? ofJson?) (oneOrMany toJson schemas) schemas where
  read_eq := oneOrMany?_oneOrMany h ofJson?_arr
  ne_null := by
    unfold oneOrMany
    split
    · exact toJson_ne_null _
    · simp

/-- Schemas that read back read back in a list. -/
theorem readsAs_arr {schemas : List DataSchema} (h : ∀ s ∈ schemas, ofJson? s.toJson = some s) :
    ReadsAs (asList? ofJson?) (.arr (schemas.map toJson)) schemas where
  read_eq := mapM_map_of_forall h
  ne_null := by simp

/-- The bounds are read among members that hold them. -/
theorem bounds?_of_get? {α : Type} {read : Json → Option α} {write : α → Json} {b : Bounds α}
    {m : List (String × Json)}
    (hm : ∀ key ∈ kindFieldNames.tail,
      Dict.get? key m = Dict.get? key (Dict.ofList (boundsMembers write b)))
    (h : ∀ x ∈ [b.minimum, b.exclusiveMinimum, b.maximum, b.exclusiveMaximum, b.multipleOf],
      ∀ y, x = some y → ReadsAs read (write y) y) :
    bounds? read m = some b := by
  have hvalue : ∀ x ∈ [b.minimum, b.exclusiveMinimum, b.maximum, b.exclusiveMaximum, b.multipleOf],
      optionalValue? read (x.map write) = some x := fun x hx => optionalValue?_map (h x hx)
  simp only [List.forall_mem_cons] at hvalue
  simp only [kindFieldNames, List.tail_cons, List.forall_mem_cons] at hm
  simp [bounds?, optional?_eq, hm, boundsMembers, hvalue]

/-- Rules about texts are read from members that agree with what was written. -/
theorem stringRules?_of_get? {r : StringRules} {m : List (String × Json)}
    (hm : ∀ key ∈ kindFieldNames.tail,
      Dict.get? key m = Dict.get? key (Dict.ofList (stringRulesMembers r))) :
    stringRules? m = some r := by
  simp only [kindFieldNames, List.tail_cons, List.forall_mem_cons] at hm
  simp [stringRules?, optional?_eq, hm, stringRulesMembers]

/-- A kind is read under its name. -/
theorem kind?_of_name {m : List (String × Json)} {p : Parts} {name : String} {k : SchemaKind DataSchema}
    (htype : Dict.get? "type" m = some (.str name)) (hk : kindOfName? name m p = some k) :
    kind? m p = some (some k) := by
  unfold kind?
  rw [htype]
  show (kindOfName? name m p).bind (fun k => some (some k)) = some (some k)
  rw [hk]
  rfl

/-- What the members of a kind hold under `type`. -/
theorem get?_type_kindMembers (k : SchemaKind DataSchema) :
    Dict.get? "type" (Dict.ofList (kindMembers (some k))) = some (.str k.typeName) := by
  cases k with
  | array items minItems maxItems => simp [kindMembers_array, SchemaKind.typeName]
  | number bounds => simp [kindMembers, boundsMembers, SchemaKind.typeName]
  | integer bounds => simp [kindMembers, boundsMembers, SchemaKind.typeName]
  | object properties required => simp [kindMembers_object, SchemaKind.typeName]
  | string rules => simp [kindMembers, stringRulesMembers, SchemaKind.typeName]
  | boolean | null => rfl

/-- The items of an array read back if their schemas do. -/
theorem items_of_kindMembers {items : Option (List DataSchema)} {minItems maxItems : Option UInt32}
    (h : ∀ l, items = some l → ∀ s ∈ l, ofJson? s.toJson = some s) :
    optional? (oneOrMany? ofJson?) "items"
      (Dict.ofList (kindMembers (some (.array items minItems maxItems)))) = some items := by
  have hread : optionalValue? (oneOrMany? ofJson?) (items.map (oneOrMany toJson)) = some items :=
    optionalValue?_map fun l hl => readsAs_oneOrMany (h l hl)
  rw [kindMembers_array]
  simpa [optional?_eq] using hread

/-- The members of an object read back if their schemas do. -/
theorem properties_of_kindMembers {properties : Dict DataSchema} {required : List String}
    (h : ∀ e ∈ properties, ofJson? e.2.toJson = some e.2) :
    withDefault? (asDict? ofJson?) [] "properties"
      (Dict.ofList (kindMembers (some (.object properties required)))) = some properties := by
  have hdict : asDict? ofJson? (ofDict toJson properties) = some properties := asDict?_ofDict_self h
  rw [kindMembers_object]
  simpa [withDefault?_eq] using defaultValue?_list_self hdict

/-- The required names read back. -/
theorem required_of_kindMembers (properties : Dict DataSchema) (required : List String) :
    withDefault? (asList? asString?) [] "required"
      (Dict.ofList (kindMembers (some (.object properties required)))) = some required := by
  have hlist : asList? asString? (.arr (required.map .str)) = some required :=
    mapM_map_of_forall fun _ _ => rfl
  rw [kindMembers_object]
  simpa [withDefault?_eq] using defaultValue?_list_self hlist

/-- The kind is read among the members that it writes. -/
theorem kind?_kindMembers {s : DataSchema} (hbounds : ∀ b, s.kind = some (.number b) → FiniteBounds b)
    (h : ∀ p ∈ s.parts, ofJson? p.toJson = some p) {p : Parts}
    (hitems : p.items =
      optional? (oneOrMany? ofJson?) "items" (Dict.ofList (kindMembers s.kind)))
    (hproperties : p.properties =
      withDefault? (asDict? ofJson?) [] "properties" (Dict.ofList (kindMembers s.kind))) :
    kind? (Dict.ofList (kindMembers s.kind)) p = some s.kind := by
  -- Arrays and objects need what is known of their parts, the other types only their own members.
  match hkind : s.kind with
  | none => rfl
  | some (.array items minItems maxItems) =>
    rw [hkind, items_of_kindMembers fun l hl q hq => h q (mem_parts_of_items (hl ▸ hkind) hq)] at hitems
    refine kind?_of_name (get?_type_kindMembers _) ?_
    rw [kindMembers_array]
    simp [kindOfName?, SchemaKind.typeName, hitems, optional?_eq]
  | some .boolean => rfl
  | some (.number bounds) =>
    have hread : bounds? asBinary64? (Dict.ofList (kindMembers (some (.number bounds)))) = some bounds :=
      bounds?_of_get? (by simp [kindFieldNames, kindMembers])
        fun x hx y hy => readsAs_ofBinary64 (hbounds bounds hkind x hx y hy)
    refine kind?_of_name (get?_type_kindMembers _) ?_
    simp [kindOfName?, SchemaKind.typeName, hread]
  | some (.integer bounds) =>
    have hread : bounds? asInt64? (Dict.ofList (kindMembers (some (.integer bounds)))) = some bounds :=
      bounds?_of_get? (by simp [kindFieldNames, kindMembers]) fun _ _ y _ => readsAs_ofInt64 y
    refine kind?_of_name (get?_type_kindMembers _) ?_
    simp [kindOfName?, SchemaKind.typeName, hread]
  | some (.object properties required) =>
    rw [hkind, properties_of_kindMembers fun e he => h e.2 (mem_parts_of_properties hkind he)] at hproperties
    refine kind?_of_name (get?_type_kindMembers _) ?_
    simp [kindOfName?, SchemaKind.typeName, hproperties, required_of_kindMembers]
  | some (.string rules) =>
    have hread : stringRules? (Dict.ofList (kindMembers (some (.string rules)))) = some rules :=
      stringRules?_of_get? (by simp [kindFieldNames, kindMembers])
    refine kind?_of_name (get?_type_kindMembers _) ?_
    simp [kindOfName?, SchemaKind.typeName, hread]
  | some .null => rfl

theorem get?_kindMembers_eq_none (kind : Option (SchemaKind DataSchema)) {key : String}
    (h : key ∉ kindFieldNames) : Dict.get? key (Dict.ofList (kindMembers kind)) = none :=
  Dict.get?_ofList_eq_none fun _ he hkey => h (hkey ▸ mem_kindMembers he)

/-- The members of a schema hold its labels. -/
theorem labels_members (s : DataSchema) :
    Labels.ofMembers? (Dict.ofList s.members) = some s.labels := by
  refine Labels.ofMembers?_of_get? fun key hkey => ?_
  have hdisjoint : ∀ k ∈ Labels.fieldNames, k ∉ kindFieldNames := by decide
  have hkind := get?_kindMembers_eq_none s.kind (hdisjoint key hkey)
  simp only [Labels.fieldNames, List.mem_cons, List.not_mem_nil, or_false] at hkey
  rcases hkey with rfl | rfl | rfl | rfl | rfl <;> simp [members_eq, hkind]

/-- The members of a schema hold the fields of its kind. -/
theorem get?_members_of_mem_kindFieldNames (s : DataSchema) {key : String}
    (hkey : key ∈ kindFieldNames) :
    Dict.get? key (Dict.ofList s.members) = Dict.get? key (Dict.ofList (kindMembers s.kind)) := by
  have hlabels : Dict.get? key (Dict.ofList s.labels.members) = none := by
    have hdisjoint : ∀ k ∈ kindFieldNames, k ∉ Labels.fieldNames := by decide
    exact Labels.get?_members_eq_none (hdisjoint key hkey)
  have hplain : ∀ k ∈ plainFieldNames, k ≠ key := by
    have hdisjoint : ∀ k ∈ plainFieldNames, k ∉ kindFieldNames := by decide
    exact fun k hk e => hdisjoint k hk (e ▸ hkey)
  simp only [plainFieldNames, List.forall_mem_cons] at hplain
  simp [members_eq, hlabels, hplain]

/-- The type of a schema reads back if its parts do. -/
theorem kind?_members {s : DataSchema} (hs : s.LevelWellFormed)
    (h : ∀ p ∈ s.parts, ofJson? p.toJson = some p) :
    kind? (Dict.ofList s.members) (readParts (Dict.ofList s.members)) = some s.kind := by
  -- Only the fields of the kind matter, and all of them are written by the kind.
  rw [kind?_congr fun _ => s.get?_members_of_mem_kindFieldNames]
  refine kind?_kindMembers hs.bounds h ?_ ?_
  · rw [readParts_eq]
    show optional? _ "items" _ = _
    rw [optional?_eq, optional?_eq, s.get?_members_of_mem_kindFieldNames (by decide)]
  · rw [readParts_eq]
    show withDefault? _ _ "properties" _ = _
    rw [withDefault?_eq, withDefault?_eq, s.get?_members_of_mem_kindFieldNames (by decide)]

/-- One level of a schema is read as it was written if its parts are. -/
theorem ofMembers?_members {s : DataSchema} (hs : s.LevelWellFormed)
    (h : ∀ p ∈ s.parts, ofJson? p.toJson = some p) :
    ofMembers? (Dict.ofList s.members) = some s := by
  -- Neither the labels nor the kind have fields of the names that are left.
  have hplain : ∀ key ∈ plainFieldNames,
      Dict.get? key (Dict.ofList (kindMembers s.kind)) = none ∧
        Dict.get? key (Dict.ofList s.labels.members) = none := by
    have hdisjoint : ∀ k ∈ plainFieldNames, k ∉ kindFieldNames ∧ k ∉ Labels.fieldNames := by decide
    exact fun key hkey => ⟨get?_kindMembers_eq_none _ (hdisjoint key hkey).1,
      Labels.get?_members_eq_none (hdisjoint key hkey).2⟩
  simp only [plainFieldNames, List.forall_mem_cons] at hplain
  have hvalue : ∀ x : Option Json, (∀ v, x = some v → v.IsNormal ∧ v ≠ .null) →
      optionalValue? some x = some x := by
    intro x hx
    cases x with
    | none => rfl
    | some v => exact optionalValue?_some ⟨rfl, (hx v rfl).2⟩
  have henum : optionalValue? (asList? some) (s.enumeration.map .arr) = some s.enumeration :=
    optionalValue?_map fun vs _ => ⟨asList?_some vs, by simp⟩
  have honeOf : optionalValue? (asList? ofJson?) (s.oneOf.map fun l => .arr (l.map toJson)) =
      some s.oneOf :=
    optionalValue?_map fun l hl => readsAs_arr fun q hq => h q (mem_parts_of_oneOf hl hq)
  have hpart : (readParts (Dict.ofList s.members)).oneOf = some s.oneOf := by
    rw [readParts_eq]
    simpa [optional?_eq, members_eq, hplain] using honeOf
  simp only [ofMembers?, assemble?, labels_members, kind?_members hs h, hpart]
  simp [optional?_eq, withDefault?_eq, members_eq, hplain, hvalue _ hs.constant, hvalue _ hs.default,
    henum]
  cases s
  rfl

/-- A schema is read as it was written, at every level. -/
theorem ofJson?_toJson {s : DataSchema} (h : s.WellFormed) : ofJson? s.toJson = some s := by
  induction h with
  | intro level _ ih => exact ofMembers?_members level ih

/-! ## What reading keeps true -/

/-- Bounds that are read are finite. -/
theorem finiteBounds_of_bounds? {m : List (String × Json)} {b : Bounds Binary64}
    (h : bounds? asBinary64? m = some b) : FiniteBounds b := by
  simp only [bounds?, optional?_eq, Option.bind_eq_bind, Option.bind_eq_some_iff] at h
  obtain ⟨minimum, h1, exclusiveMinimum, h2, maximum, h3, exclusiveMaximum, h4, multipleOf, h5, h⟩ := h
  cases h
  have hfinite : ∀ {key : String} {x : Option Binary64},
      optionalValue? asBinary64? (Dict.get? key m) = some x → ∀ y, x = some y → y.isFinite = true := by
    rintro key x hx y rfl
    obtain ⟨v, -, -, hv⟩ := exists_of_optionalValue? hx
    exact isFinite_of_asBinary64? hv
  simp only [FiniteBounds, List.forall_mem_cons]
  exact ⟨hfinite h1, hfinite h2, hfinite h3, hfinite h4, hfinite h5, List.forall_mem_nil _⟩

/-- A type that is read has the name that was given. -/
theorem typeName_of_kindOfName? {m : List (String × Json)} {p : Parts} {name : String} {k : SchemaKind DataSchema}
    (h : kindOfName? name m p = some k) : k.typeName = name := by
  unfold kindOfName? at h
  split at h
  · simp only [Option.bind_eq_bind, Option.bind_eq_some_iff] at h
    obtain ⟨_, -, _, -, _, -, h⟩ := h
    cases h
    rfl
  · cases h
    rfl
  · obtain ⟨_, -, rfl⟩ := Option.map_eq_some_iff.1 h
    rfl
  · obtain ⟨_, -, rfl⟩ := Option.map_eq_some_iff.1 h
    rfl
  · simp only [Option.bind_eq_bind, Option.bind_eq_some_iff] at h
    obtain ⟨_, -, _, -, h⟩ := h
    cases h
    rfl
  · obtain ⟨_, -, rfl⟩ := Option.map_eq_some_iff.1 h
    rfl
  · cases h
    rfl
  · cases h

/-- Without type there is no kind; with one, the kind has been read under its name. -/
theorem kind?_eq_some {m : List (String × Json)} {p : Parts} {kind : Option (SchemaKind DataSchema)}
    (h : kind? m p = some kind) :
    Dict.get? "type" m = kind.map (.str ·.typeName) ∧
      ∀ k, kind = some k → kindOfName? k.typeName m p = some k := by
  unfold kind? at h
  split at h
  · next hnone =>
    cases h
    exact ⟨hnone, nofun⟩
  · next v hv =>
    simp only [Option.bind_eq_bind, Option.bind_eq_some_iff] at h
    obtain ⟨name, hname, k, hk, h⟩ := h
    cases h
    have hstr : v = .str name := by
      cases v with
      | str s => exact congrArg Json.str (Option.some.inj hname)
      | _ => cases hname
    have htype := typeName_of_kindOfName? hk
    subst htype
    exact ⟨hv.trans (congrArg some hstr), fun _ hk' => Option.some.inj hk' ▸ hk⟩

/-- What a kind that was read is made of. -/
structure KindRead (m : List (String × Json)) (p : Parts) (kind : Option (SchemaKind DataSchema)) :
    Prop where
  bounds : ∀ b, kind = some (.number b) → bounds? asBinary64? m = some b
  items : ∀ items minItems maxItems,
    kind = some (.array items minItems maxItems) → p.items = some items
  properties : ∀ d required, kind = some (.object d required) → p.properties = some d

/-- What the reader says of a type. -/
theorem kindRead_of_kind? {m : List (String × Json)} {p : Parts} {kind : Option (SchemaKind DataSchema)}
    (h : kind? m p = some kind) : KindRead m p kind := by
  obtain ⟨-, hread⟩ := kind?_eq_some h
  refine ⟨fun b hkind => ?_, fun items minItems maxItems hkind => ?_, fun d required hkind => ?_⟩
  · obtain ⟨_, hbounds, hk⟩ := Option.map_eq_some_iff.1 (hread _ hkind)
    cases hk
    exact hbounds
  · obtain ⟨_, hitems, hk⟩ := Option.bind_eq_some_iff.1 (hread _ hkind)
    simp only [Option.bind_eq_bind, Option.bind_eq_some_iff] at hk
    obtain ⟨_, -, _, -, hk⟩ := hk
    cases hk
    exact hitems
  · obtain ⟨_, hproperties, hk⟩ := Option.bind_eq_some_iff.1 (hread _ hkind)
    obtain ⟨_, -, hk⟩ := Option.bind_eq_some_iff.1 hk
    cases hk
    exact hproperties

/-- The fields of a schema, each as it was read. -/
structure FieldsRead (m : List (String × Json)) (s : DataSchema) : Prop where
  labels : Labels.ofMembers? m = some s.labels
  constant : optional? some "const" m = some s.constant
  default : optional? some "default" m = some s.default
  unit : optional? asString? "unit" m = some s.unit
  oneOf : optional? (asList? ofJson?) "oneOf" m = some s.oneOf
  enumeration : optional? (asList? some) "enum" m = some s.enumeration
  readOnly : withDefault? asBool? false "readOnly" m = some s.readOnly
  writeOnly : withDefault? asBool? false "writeOnly" m = some s.writeOnly
  format : optional? asString? "format" m = some s.format
  kind : kind? m (readParts m) = some s.kind

/-- What the reader says of the fields of a schema. -/
theorem fieldsRead_of_ofMembers? {m : List (String × Json)} {s : DataSchema} (h : ofMembers? m = some s) :
    FieldsRead m s := by
  simp only [ofMembers?, assemble?, Option.bind_eq_bind, Option.bind_eq_some_iff] at h
  obtain ⟨labels, hlabels, constant, hconstant, default, hdefault, unit, hunit, oneOf, honeOf, enumeration,
    henum, readOnly, hreadOnly, writeOnly, hwriteOnly, format, hformat, kind, hkind, h⟩ := h
  cases h
  rw [readParts_eq] at honeOf
  exact ⟨hlabels, hconstant, hdefault, hunit, honeOf, henum, hreadOnly, hwriteOnly, hformat, hkind⟩

/-- A schema that is read from normal members is well-formed at its level. -/
theorem levelWellFormed_of_ofMembers? {m : List (String × Json)} {s : DataSchema} (hm : AllNormal m)
    (h : ofMembers? m = some s) : s.LevelWellFormed := by
  have hfields := fieldsRead_of_ofMembers? h
  have hread := kindRead_of_kind? hfields.kind
  refine ⟨Labels.wellFormed_of_ofMembers? hm hfields.labels, ?_, ?_, ?_,
    fun b hb => finiteBounds_of_bounds? (hread.bounds b hb), ?_⟩
  · exact of_optionalValue? hm hfields.constant fun v w hv hnull hw => Option.some.inj hw ▸ ⟨hv, hnull⟩
  · exact of_optionalValue? hm hfields.default fun v w hv hnull hw => Option.some.inj hw ▸ ⟨hv, hnull⟩
  · exact of_optionalValue? hm hfields.enumeration fun v vs hv _ hvs =>
      forall_of_asList? (fun w x hw hx => Option.some.inj hx ▸ hw) hv hvs
  · intro d required hd
    have hproperties := hread.properties d required hd
    rw [readParts_eq] at hproperties
    exact of_defaultValue? hm hproperties List.Pairwise.nil fun v hv hd => sorted_of_asDict? hv hd

/-- The parts of a schema were read from the values of members, or from what those contain. -/
theorem exists_of_mem_parts {m : List (String × Json)} {s p : DataSchema}
    (h : ofMembers? m = some s) (hp : p ∈ s.parts) :
    ∃ e ∈ m, ∃ w, (w = e.2 ∨ w ∈ e.2.parts) ∧ ofJson? w = some p := by
  have hfields := fieldsRead_of_ofMembers? h
  obtain ⟨-, hitems, hproperties⟩ := kindRead_of_kind? hfields.kind
  rw [readParts_eq] at hitems hproperties
  -- A part is one of the alternatives, or it belongs to the kind.
  rw [parts, List.mem_append] at hp
  rcases hp with hp | hp
  · cases hl : s.oneOf with
    | none =>
      rw [hl] at hp
      cases hp
    | some l =>
      rw [hl] at hp
      obtain ⟨v, hv, -, hread⟩ := exists_of_optionalValue? (hl ▸ hfields.oneOf)
      obtain ⟨w, hw, hwp⟩ := exists_of_asList? hread p hp
      exact ⟨("oneOf", v), Dict.mem_of_get? hv, w, .inr hw, hwp⟩
  · split at hp
    · next items minItems maxItems hkind =>
      cases items with
      | none => cases hp
      | some l =>
        obtain ⟨v, hv, -, hl⟩ := exists_of_optionalValue? (hitems _ _ _ hkind)
        obtain ⟨w, hw, hwp⟩ := exists_of_oneOrMany? hl p hp
        exact ⟨("items", v), Dict.mem_of_get? hv, w, hw, hwp⟩
    · next d required hkind =>
      obtain ⟨e, he, rfl⟩ := List.mem_map.1 hp
      have hread := hproperties d required hkind
      simp only [withDefault?_eq] at hread
      cases hv : Dict.get? "properties" m with
      | none =>
        -- no field, no properties
        rw [hv] at hread
        cases hread
        cases he
      | some v =>
        rw [hv] at hread
        obtain ⟨w, hw, hwp⟩ := exists_of_asDict? hread e he
        exact ⟨("properties", v), Dict.mem_of_get? hv, w, .inr hw, hwp⟩
    · cases hp

/-- What holds of every schema that is read from members if it holds of its parts, holds of all schemas that
are read. `Q` is what is known about the values that are read, and passes to the values inside of them. -/
theorem ofMembers?_induction {P : DataSchema → Prop} {Q : Json → Prop}
    (inside : ∀ {v w}, Q v → w ∈ v.parts → Q w)
    (step : ∀ {m s}, (∀ e ∈ m, Q e.2) → ofMembers? m = some s → (∀ p ∈ s.parts, P p) → P s)
    {m : List (String × Json)} {s : DataSchema} (hm : ∀ e ∈ m, Q e.2) (h : ofMembers? m = some s) :
    P s := by
  -- A part is read from the value of a member, or, where that is a collection, one level further down.
  suffices hread : ∀ v : Json, ∀ m s, v = .obj m → (∀ e ∈ m, Q e.2) → ofMembers? m = some s → P s by
    exact hread (.obj m) m s rfl hm h
  intro v
  induction v using forall_of_two_levels with
  | h v ih =>
    rintro m s rfl hm h
    refine step hm h fun p hp => ?_
    obtain ⟨e, he, w, hw, hread⟩ := exists_of_mem_parts h hp
    have hmem : e.2 ∈ (Json.obj m).parts := List.mem_map_of_mem he
    cases w with
    | obj members =>
      rw [ofJson?_obj] at hread
      rcases hw with hw | hw
      · have hq : Q (.obj members) := hw ▸ hm e he
        exact (ih _ hmem).1 members p hw.symm (fun x hx => inside hq (List.mem_map_of_mem hx)) hread
      · have hq : Q (.obj members) := inside (hm e he) hw
        exact (ih _ hmem).2 _ hw members p rfl (fun x hx => inside hq (List.mem_map_of_mem hx)) hread
    | _ => cases hread

theorem wellFormed_of_ofMembers? {m : List (String × Json)} {s : DataSchema} (hm : AllNormal m)
    (h : ofMembers? m = some s) : s.WellFormed :=
  ofMembers?_induction IsNormal.of_mem_parts (fun hm h => .intro (levelWellFormed_of_ofMembers? hm h)) hm h

/-- A schema read from a normal value is well-formed, at every level. -/
theorem wellFormed_of_ofJson? {v : Json} {s : DataSchema} (hv : v.IsNormal) (h : ofJson? v = some s) :
    s.WellFormed := by
  cases v with
  | obj members => exact wellFormed_of_ofMembers? (isNormal_obj_iff.1 hv).2 h
  | _ => cases h

/-! ## What is written is normal -/

theorem allNormal_boundsMembers {α : Type} {write : α → Json} (b : Bounds α)
    (h : ∀ x, (write x).IsNormal) : AllNormal (boundsMembers write b) := by
  simp [boundsMembers, h]

/-- The members of a type are normal if its parts are. -/
theorem allNormal_kindMembers {s : DataSchema}
    (hsorted : ∀ d required, s.kind = some (.object d required) → Dict.Sorted d)
    (h : ∀ p ∈ s.parts, p.toJson.IsNormal) : AllNormal (kindMembers s.kind) := by
  match hkind : s.kind with
  | none => exact allNormal_nil
  | some (.array items minItems maxItems) =>
    have hitems : ∀ l, items = some l → (oneOrMany toJson l).IsNormal := fun l hl =>
      isNormal_oneOrMany fun p hp => h p (mem_parts_of_items (hl ▸ hkind) hp)
    rw [kindMembers_array]
    simpa [ofUInt32, ofNat] using hitems
  | some .boolean => simp [kindMembers]
  | some (.number bounds) =>
    exact allNormal_cons.2 ⟨isNormal_str _, allNormal_boundsMembers _ isNormal_ofBinary64⟩
  | some (.integer bounds) =>
    exact allNormal_cons.2 ⟨isNormal_str _, allNormal_boundsMembers _ fun n => isNormal_num _⟩
  | some (.object properties required) =>
    have hproperties : (ofDict toJson properties).IsNormal :=
      isNormal_ofDict (hsorted _ _ hkind) fun e he => h e.2 (mem_parts_of_properties hkind he)
    have hrequired : (arr (required.map .str)).IsNormal := isNormal_arr_map fun _ _ => isNormal_str _
    rw [kindMembers_object]
    simp [hproperties, hrequired]
  | some (.string rules) => simp [kindMembers, stringRulesMembers, ofUInt32, ofNat]
  | some .null => simp [kindMembers]

/-- One level of a schema writes normal members if its parts do. -/
theorem allNormal_members {s : DataSchema} (hs : s.LevelCanonical)
    (h : ∀ p ∈ s.parts, p.toJson.IsNormal) : AllNormal s.members := by
  rw [members_eq]
  simp only [allNormal_append, allNormal_flag, and_true]
  refine ⟨⟨⟨⟨⟨⟨⟨Labels.allNormal_members hs.labels, ?_⟩, ?_⟩, ?_⟩, ?_⟩, ?_⟩, ?_⟩,
    allNormal_kindMembers hs.properties h⟩
  · exact allNormal_field.2 hs.constant
  · exact allNormal_field.2 hs.default
  · exact allNormal_field_map fun _ _ => isNormal_str _
  · exact allNormal_field_map fun l hl => isNormal_arr_map fun p hp => h p (mem_parts_of_oneOf hl hp)
  · exact allNormal_field_map fun vs hvs => isNormal_arr_iff.2 (hs.enumeration vs hvs)
  · exact allNormal_field_map fun _ _ => isNormal_str _

theorem Canonical.isNormal_toJson {s : DataSchema} (h : s.Canonical) : s.toJson.IsNormal := by
  induction h with
  | intro level _ ih => exact isNormal_object (allNormal_members level ih)

theorem Canonical.allNormal_members {s : DataSchema} (h : s.Canonical) : AllNormal s.members := by
  cases h with
  | intro level parts => exact DataSchema.allNormal_members level fun p hp => (parts p hp).isNormal_toJson

end WebOfThings.DataSchema
