import WebOfThings.Proofs.Description.Thing

/-!
# Descriptions that can be written

A description can be put together without being read, and then it may say things that are lost when it is
written: a prefix that looks like a keyword, an unknown member that takes the place of a known one, a
constant or default of `null`, a bound that is not finite. `Thing.Writable` leaves these out. It is a
condition on what is read (`Thing.writable_of_ofJson`), so nothing else can come back as it was written.

No member is written twice: the keys of what is written are a part of the list of all field names
(`DataSchema.keys_members_sublist`), beside which a description has only its unknown members
(`Thing.nodup_keys_members`).

The condition is on what a program has put together; what has been read has it already. Its parts are of
different kinds: a name, a value, a number, a member that would collide. Each of them has an example that is
lost when it is left out, so none of them is stronger than it has to be. That no member is written twice
rests on the lists of field names, in which no name is repeated.
-/

namespace WebOfThings

open Json

/-! ## Vocabularies -/

namespace Context

/-- No name looks like a keyword. -/
def PlainNames (context : Context) : Prop := ∀ e ∈ context.named, ¬ IsKeyword e.1

/-- Setting the default vocabulary leaves the names. -/
theorem named_setDefault {context context' : Context} {iri : String}
    (h : context.setDefault iri = .ok context') : context'.named = context.named := by
  unfold setDefault at h
  split at h
  · cases h
  · split at h
    all_goals
      cases h
      try rfl

/-- A name that is no keyword may be bound. -/
theorem PlainNames.insert {context : Context} (hc : context.PlainNames) {key : String}
    (hkey : ¬ IsKeyword key) (entry : ContextEntry) :
    PlainNames { context with named := context.named.insert key entry } := by
  intro e he
  rcases Dict.mem_insert he with rfl | he
  · exact hkey
  · exact hc e he

/-- A member whose key looks like a keyword is none of the names. -/
theorem PlainNames.addMember {context context' : Context} (hc : context.PlainNames) {key : String}
    {v : Json} (h : context.addMember key v = .ok context') : context'.PlainNames := by
  unfold Context.addMember at h
  split at h
  · split at h
    · rw [PlainNames, named_setDefault h]
      exact hc
    · cases h
  split at h
  · cases h
    exact hc
  next hkey =>
  split at h
  · split at h
    · next hinsert =>
      cases h
      obtain ⟨i, -, rfl⟩ := Option.map_eq_some_iff.1 hinsert
      exact hc.insert hkey _
    · cases h
  · split at h
    · cases h
    · cases h
      exact hc.insert hkey _
  · cases h

/-- Reading members binds no keyword. -/
theorem PlainNames.addMembers {context context' : Context} (hc : context.PlainNames)
    {members : List (String × Json)} (h : context.addMembers members = .ok context') :
    context'.PlainNames :=
  Except.foldlM_keeps (fun _ _ _ _ hc h => PlainNames.addMember hc h) hc h

/-- Reading an element binds no keyword. -/
theorem PlainNames.addElement {context context' : Context} (hc : context.PlainNames) {v : Json}
    (h : context.addElement v = .ok context') : context'.PlainNames := by
  cases v with
  | str s =>
    rw [PlainNames, named_setDefault h]
    exact hc
  | obj members => exact hc.addMembers h
  | _ => cases h

/-- No keyword is bound in a context that was read. -/
theorem plainNames_of_ofJson {v : Json} {context : Context} (h : ofJson v = .ok context) :
    context.PlainNames := by
  have hempty : empty.PlainNames := List.forall_mem_nil _
  cases v with
  | str s =>
    simp only [ofJson] at h
    split at h
    · next c hc =>
      cases h
      obtain ⟨i, -, rfl⟩ := Option.map_eq_some_iff.1 hc
      exact List.forall_mem_nil _
    · cases h
  | obj members => exact hempty.addMembers h
  | arr items => exact Except.foldlM_keeps (fun _ _ _ _ hc h => PlainNames.addElement hc h) hempty h
  | _ => cases h

end Context

/-! ## Schemas -/

namespace DataSchema

/-- What a schema says, apart from its parts, can be written: `null` would say that there is no constant and
no default, and there are no numerals for infinite bounds. -/
structure LevelWritable (s : DataSchema) : Prop where
  constant : s.constant ≠ some .null
  default : s.default ≠ some .null
  bounds : ∀ b, s.kind = some (.number b) → FiniteBounds b

/-- What a schema says can be written, at every level. -/
inductive Writable : DataSchema → Prop where
  | intro {s : DataSchema} (level : s.LevelWritable) (parts : ∀ p ∈ s.parts, Writable p) : Writable s

/-- A schema that was read can be written at its level. -/
theorem levelWritable_of_ofMembers? {m : List (String × Json)} {s : DataSchema}
    (h : ofMembers? m = some s) : s.LevelWritable := by
  have hfields := fieldsRead_of_ofMembers? h
  have hnull : ∀ {v? : Option Json}, optionalValue? some v? ≠ some (some .null) := by
    intro v? hv
    obtain ⟨v, -, hne, hv⟩ := exists_of_optionalValue? hv
    exact hne (Option.some.inj hv)
  refine ⟨?_, ?_, fun b hb => finiteBounds_of_bounds? ((kindRead_of_kind? hfields.kind).bounds b hb)⟩
  · intro hconstant
    exact hnull (hconstant ▸ hfields.constant)
  · intro hdefault
    exact hnull (hdefault ▸ hfields.default)

/-- A schema that was read from members can be written. -/
theorem writable_of_ofMembers? {m : List (String × Json)} {s : DataSchema} (h : ofMembers? m = some s) :
    s.Writable :=
  ofMembers?_induction (Q := fun _ => True) (fun _ _ => trivial)
    (fun _ h => .intro (levelWritable_of_ofMembers? h)) (fun _ _ => trivial) h

/-- A schema that was read can be written. -/
theorem writable_of_ofJson? {v : Json} {s : DataSchema} (h : ofJson? v = some s) : s.Writable := by
  cases v with
  | obj members => exact writable_of_ofMembers? h
  | _ => cases h

end DataSchema

/-! ## Affordances -/

namespace Interaction

/-- The schemas of the variables. -/
def schemas (i : Interaction) : List DataSchema := Dict.values i.uriVariables

/-- The schemas of an interaction that was read can be written. -/
theorem writable_of_ofMembers? {m : List (String × Json)} {i : Interaction} (h : ofMembers? m = some i) :
    ∀ s ∈ i.schemas, s.Writable := by
  simp only [ofMembers?, withDefault?_eq, Option.bind_eq_bind, Option.bind_eq_some_iff] at h
  obtain ⟨labels, -, forms, -, uriVariables, hvariables, h⟩ := h
  cases h
  exact forall_of_dictField hvariables DataSchema.writable_of_ofJson?

end Interaction

namespace PropertyAffordance

/-- The schemas of a property and of its variables. -/
def schemas (p : PropertyAffordance) : List DataSchema := p.schema :: p.interaction.schemas

/-- The schemas of a property that was read can be written. -/
theorem writable_of_ofJson? {v : Json} {p : PropertyAffordance} (h : ofJson? v = some p) :
    ∀ s ∈ p.schemas, s.Writable := by
  cases v with
  | obj members =>
    simp only [ofJson?, Option.bind_eq_bind, Option.bind_eq_some_iff] at h
    obtain ⟨i, hi, s, hs, observable, -, h⟩ := h
    cases h
    exact List.forall_mem_cons.2
      ⟨DataSchema.writable_of_ofMembers? hs, Interaction.writable_of_ofMembers? hi⟩
  | _ => cases h

end PropertyAffordance

namespace ActionAffordance

/-- The schemas of an action and of its variables. -/
def schemas (a : ActionAffordance) : List DataSchema :=
  a.input.toList ++ a.output.toList ++ a.interaction.schemas

/-- The schemas of an action that was read can be written. -/
theorem writable_of_ofJson? {v : Json} {a : ActionAffordance} (h : ofJson? v = some a) :
    ∀ s ∈ a.schemas, s.Writable := by
  cases v with
  | obj members =>
    simp only [ofJson?, optional?_eq, Option.bind_eq_bind, Option.bind_eq_some_iff] at h
    obtain ⟨i, hi, input, hinput, output, houtput, safe, -, idempotent, -, synchronous, -, h⟩ := h
    cases h
    simp only [schemas, List.forall_mem_append]
    exact ⟨⟨forall_of_optionalField hinput DataSchema.writable_of_ofJson?,
      forall_of_optionalField houtput DataSchema.writable_of_ofJson?⟩, Interaction.writable_of_ofMembers? hi⟩
  | _ => cases h

end ActionAffordance

namespace EventAffordance

/-- The schemas of an event and of its variables. -/
def schemas (e : EventAffordance) : List DataSchema :=
  e.subscription.toList ++ e.data.toList ++ e.dataResponse.toList ++ e.cancellation.toList ++
    e.interaction.schemas

/-- The schemas of an event that was read can be written. -/
theorem writable_of_ofJson? {v : Json} {e : EventAffordance} (h : ofJson? v = some e) :
    ∀ s ∈ e.schemas, s.Writable := by
  cases v with
  | obj members =>
    simp only [ofJson?, optional?_eq, Option.bind_eq_bind, Option.bind_eq_some_iff] at h
    obtain ⟨i, hi, subscription, hsubscription, data, hdata, dataResponse, hdataResponse, cancellation,
      hcancellation, h⟩ := h
    cases h
    simp only [schemas, List.forall_mem_append]
    exact ⟨⟨⟨⟨forall_of_optionalField hsubscription DataSchema.writable_of_ofJson?,
      forall_of_optionalField hdata DataSchema.writable_of_ofJson?⟩,
      forall_of_optionalField hdataResponse DataSchema.writable_of_ofJson?⟩,
      forall_of_optionalField hcancellation DataSchema.writable_of_ofJson?⟩,
      Interaction.writable_of_ofMembers? hi⟩
  | _ => cases h

end EventAffordance

/-! ## Things -/

namespace Thing

/-- The schemas of a thing and of its affordances, those inside of them apart. -/
def schemas (t : Thing) : List DataSchema :=
  Dict.values t.uriVariables ++ (Dict.values t.properties).flatMap (·.schemas) ++
    (Dict.values t.actions).flatMap (·.schemas) ++ (Dict.values t.events).flatMap (·.schemas)

/-- What a description says can be written without loss. -/
structure Writable (t : Thing) : Prop where
  /-- No prefix looks like a keyword of the vocabulary. -/
  prefixes : t.context.PlainNames
  /-- No unknown member has the name of a known one. -/
  metadata : ∀ e ∈ t.metadata, e.1 ∉ fieldNames
  /-- The values and the bounds of all schemas can be written. -/
  schemas : ∀ s ∈ t.schemas, s.Writable

/-- The schemas of a description are those of its variables and of its affordances. -/
theorem forall_schemas_iff {t : Thing} {P : DataSchema → Prop} :
    (∀ s ∈ t.schemas, P s) ↔ (∀ s ∈ Dict.values t.uriVariables, P s) ∧
      (∀ p ∈ Dict.values t.properties, ∀ s ∈ p.schemas, P s) ∧
      (∀ a ∈ Dict.values t.actions, ∀ s ∈ a.schemas, P s) ∧
      ∀ e ∈ Dict.values t.events, ∀ s ∈ e.schemas, P s := by
  simp only [schemas, List.forall_mem_append, List.forall_mem_flatMap, and_assoc]

/-- A description whose fields were read can be written. -/
theorem writable_of_fieldsRead {c : Context} (hcontext : c.PlainNames)
    {m : List (String × Json)} {t : Thing} (h : FieldsRead c m t) : t.Writable := by
  refine ⟨h.context ▸ hcontext, ?_, ?_⟩
  · intro e he
    rw [h.metadata] at he
    simpa using (List.mem_filter.1 he).2
  · exact forall_schemas_iff.2
      ⟨forall_of_dictField h.uriVariables DataSchema.writable_of_ofJson?,
        forall_of_dictField h.properties PropertyAffordance.writable_of_ofJson?,
        forall_of_dictField h.actions ActionAffordance.writable_of_ofJson?,
        forall_of_dictField h.events EventAffordance.writable_of_ofJson?⟩

/-- What was read from any value can be written without loss. -/
theorem writable_of_ofJson {v : Json} {t : Thing} (h : ofJson v = .ok t) : t.Writable := by
  obtain ⟨m, c, rfl, hcontext, hread⟩ := exists_of_ofJson h
  refine writable_of_fieldsRead ?_ hread
  unfold contextOf at hcontext
  split at hcontext
  · cases hcontext
    exact List.forall_mem_nil _
  · exact Context.plainNames_of_ofJson hcontext

end Thing

/-! ## Members are written once -/

/-- Labels write no member twice. -/
theorem Labels.keys_members_sublist (l : Labels) : (Dict.keys l.members).Sublist fieldNames := by
  show (Dict.keys l.members).Sublist (["@type"] ++ ["title"] ++ ["titles"] ++ ["description"] ++ ["descriptions"])
  repeat' apply keys_append_sublist
  all_goals exact keys_field_sublist ..

namespace DataSchema

/-- Bounds write no member twice. -/
theorem keys_boundsMembers_sublist {α : Type} (write : α → Json) (b : Bounds α) :
    (Dict.keys (boundsMembers write b)).Sublist
      (["minimum"] ++ ["exclusiveMinimum"] ++ ["maximum"] ++ ["exclusiveMaximum"] ++ ["multipleOf"]) := by
  unfold boundsMembers
  repeat' apply keys_append_sublist
  all_goals exact keys_field_sublist ..

/-- Rules about texts write no member twice. -/
theorem keys_stringRulesMembers_sublist (r : StringRules) :
    (Dict.keys (stringRulesMembers r)).Sublist
      (["minLength"] ++ ["maxLength"] ++ ["pattern"] ++ ["contentEncoding"] ++ ["contentMediaType"]) := by
  unfold stringRulesMembers
  repeat' apply keys_append_sublist
  all_goals exact keys_field_sublist ..

/-- A kind writes its name and the fields that go with it. -/
theorem keys_kindMembers_sublist (kind : Option (SchemaKind DataSchema)) :
    (Dict.keys (kindMembers kind)).Sublist kindFieldNames := by
  match kind with
  | none => exact List.nil_sublist _
  | some (.array items minItems maxItems) =>
    have hkeys := keys_append_sublist (keys_append_sublist
      (keys_field_sublist "items" (items.map (oneOrMany toJson)))
      (keys_field_sublist "minItems" (minItems.map ofUInt32)))
      (keys_field_sublist "maxItems" (maxItems.map ofUInt32))
    rw [kindMembers_array]
    exact (hkeys.cons_cons "type").trans (by decide)
  | some .boolean | some .null => exact List.Sublist.trans (List.Sublist.refl ["type"]) (by decide)
  | some (.number b) => exact ((keys_boundsMembers_sublist ofBinary64 b).cons_cons "type").trans (by decide)
  | some (.integer b) => exact ((keys_boundsMembers_sublist ofInt64 b).cons_cons "type").trans (by decide)
  | some (.object properties required) =>
    have hkeys := keys_append_sublist (keys_listField_sublist "properties" (ofDict toJson) properties)
      (keys_listField_sublist "required" (fun names => .arr (names.map .str)) required)
    rw [kindMembers_object]
    exact (hkeys.cons_cons "type").trans (by decide)
  | some (.string r) => exact ((keys_stringRulesMembers_sublist r).cons_cons "type").trans (by decide)

/-- The names of the members that a schema writes, given those of its labels. -/
theorem keys_members_sublist {s : DataSchema} {names : List String}
    (h : (Dict.keys s.labels.members).Sublist names) :
    (Dict.keys s.members).Sublist
      (names ++ ["const"] ++ ["default"] ++ ["unit"] ++ ["oneOf"] ++ ["enum"] ++ ["readOnly"] ++ ["writeOnly"] ++
        ["format"] ++ kindFieldNames) := by
  rw [members_eq]
  repeat' apply keys_append_sublist
  all_goals
    first
    | exact h
    | exact keys_field_sublist ..
    | exact keys_flag_sublist ..
    | exact keys_kindMembers_sublist _

end DataSchema

/-- Interactions write no member twice. -/
theorem Interaction.keys_members_sublist (i : Interaction) : (Dict.keys i.members).Sublist fieldNames := by
  show (Dict.keys i.members).Sublist (Labels.fieldNames ++ ["forms"] ++ ["uriVariables"])
  exact keys_append_sublist (keys_append_sublist i.labels.keys_members_sublist (keys_listField_sublist ..))
    (keys_listField_sublist ..)

namespace PropertyAffordance

/-- The members that a property writes: those of the affordance, beside them those of its schema. -/
def members (p : PropertyAffordance) : List (String × Json) :=
  p.interaction.members ++ p.schema.members ++ field "observable" (p.observable.map .bool)

/-- A property writes no member twice if its schema has no labels. -/
theorem nodup_keys_members {p : PropertyAffordance} (hp : p.schema.labels = {}) :
    (Dict.keys p.members).Nodup := by
  have hlabels : (Dict.keys p.schema.labels.members).Sublist [] := by
    rw [hp]
    exact List.Sublist.refl _
  have hkeys := keys_append_sublist (keys_append_sublist p.interaction.keys_members_sublist
    (DataSchema.keys_members_sublist hlabels)) (keys_field_sublist "observable" (p.observable.map .bool))
  exact List.Nodup.sublist hkeys (by decide)

end PropertyAffordance

namespace Thing

/-- The names of the members that a description writes, in order. -/
theorem keys_members_sublist (t : Thing) :
    (Dict.keys t.members).Sublist (fieldNames ++ Dict.keys t.metadata) := by
  show (Dict.keys t.members).Sublist
    (["@context", "id"] ++ Labels.fieldNames ++ ["version"] ++ ["created"] ++ ["modified"] ++ ["support"] ++
      ["base"] ++ ["properties"] ++ ["actions"] ++ ["events"] ++ ["links"] ++ ["forms"] ++ ["security"] ++
      ["securityDefinitions"] ++ ["uriVariables"] ++ Dict.keys t.metadata)
  unfold members
  repeat' apply keys_append_sublist
  all_goals
    first
    | exact t.labels.keys_members_sublist
    | exact keys_field_sublist ..
    | exact keys_listField_sublist ..
    | exact List.Sublist.refl _

/-- A description writes no member twice if its unknown members have names of their own. -/
theorem nodup_keys_members {t : Thing} (hsorted : Dict.Sorted t.metadata)
    (hmetadata : ∀ e ∈ t.metadata, e.1 ∉ fieldNames) : (Dict.keys t.members).Nodup := by
  refine List.Nodup.sublist t.keys_members_sublist (List.nodup_append.2 ⟨by decide, hsorted.nodup_keys, ?_⟩)
  rintro key hkey other hother rfl
  obtain ⟨e, he, rfl⟩ := List.mem_map.1 hother
  exact hmetadata e he hkey

end Thing
end WebOfThings
