import WebOfThings.Thing.Basic
import WebOfThings.Proofs.Description.Affordance
import WebOfThings.Proofs.Description.Security
import WebOfThings.Proofs.Description.Timestamp
import WebOfThings.Proofs.Description.Vocabulary

/-!
# Descriptions that read back

A description that was read is exported as a value, and that value is read as the description it was made
of, but for forms with an empty list of operations: of those, nothing is left but that there is no list
(`reread`). What has been read once more stays as it is.

`WellFormed` collects what reading keeps true (`wellFormed_of_ofJson`); it is what the exported value
depends on to be read again (`ofJson_toJson`). What reading does is said field by field (`FieldsRead`), and
everything else about descriptions that were read starts from there.

Descriptions can also be made field by field, with members that reading never leaves in them. `Canonical` is
what is true of these as well, and enough for the exported value to be normal (`Canonical.isNormal_toJson`).

All fields are treated as the columns of one table (`FieldsRead`): reading gives for each of them a value
and the fact that it came from the member of its name. Reading back is then the concatenation of what the
modules about records, schemas and affordances prove, with the unknown members kept apart by their names.
-/

namespace WebOfThings.Thing

open Json

/-- The description that is read from what was written. -/
def reread (t : Thing) : Thing :=
  { t with
    properties := Dict.mapValues PropertyAffordance.reread t.properties
    actions := Dict.mapValues ActionAffordance.reread t.actions
    events := Dict.mapValues EventAffordance.reread t.events
    forms := t.forms.map Form.reread }

/-- A description that is read once more was changed by that already. -/
@[simp] theorem reread_reread (t : Thing) : t.reread.reread = t.reread := by
  simp [reread, Dict.mapValues, Function.comp_def]

/-- What reading keeps true of a description. -/
structure WellFormed (t : Thing) : Prop where
  context : t.context.WellFormed
  labels : t.labels.WellFormed
  sortedProperties : Dict.Sorted t.properties
  properties : ∀ e ∈ t.properties, e.2.WellFormed
  sortedActions : Dict.Sorted t.actions
  actions : ∀ e ∈ t.actions, e.2.WellFormed
  sortedEvents : Dict.Sorted t.events
  events : ∀ e ∈ t.events, e.2.WellFormed
  sortedDefinitions : Dict.Sorted t.securityDefinitions
  securityDefinitions : ∀ e ∈ t.securityDefinitions, e.2.WellFormed
  sortedVariables : Dict.Sorted t.uriVariables
  uriVariables : ∀ e ∈ t.uriVariables, e.2.WellFormed
  sortedMetadata : Dict.Sorted t.metadata
  metadata : AllNormal t.metadata
  unknown : ∀ e ∈ t.metadata, e.1 ∉ fieldNames

/-- A description that is read once more is well-formed. -/
theorem WellFormed.reread {t : Thing} (h : t.WellFormed) : t.reread.WellFormed where
  context := h.context
  labels := h.labels
  sortedProperties := h.sortedProperties.mapValues _
  properties := by
    intro e he
    obtain ⟨p, hp, rfl⟩ := List.mem_map.1 he
    exact (h.properties p hp).reread
  sortedActions := h.sortedActions.mapValues _
  actions := by
    intro e he
    obtain ⟨a, ha, rfl⟩ := List.mem_map.1 he
    exact (h.actions a ha).reread
  sortedEvents := h.sortedEvents.mapValues _
  events := by
    intro e he
    obtain ⟨x, hx, rfl⟩ := List.mem_map.1 he
    exact (h.events x hx).reread
  sortedDefinitions := h.sortedDefinitions
  securityDefinitions := h.securityDefinitions
  sortedVariables := h.sortedVariables
  uriVariables := h.uriVariables
  sortedMetadata := h.sortedMetadata
  metadata := h.metadata
  unknown := h.unknown

/-- What is true of every description, read or made: its dictionaries are in order and the values that it
holds are normal, at every depth. -/
structure Canonical (t : Thing) : Prop where
  context : t.context.Canonical
  labels : t.labels.WellFormed
  sortedProperties : Dict.Sorted t.properties
  properties : ∀ e ∈ t.properties, e.2.Canonical
  sortedActions : Dict.Sorted t.actions
  actions : ∀ e ∈ t.actions, e.2.Canonical
  sortedEvents : Dict.Sorted t.events
  events : ∀ e ∈ t.events, e.2.Canonical
  sortedDefinitions : Dict.Sorted t.securityDefinitions
  securityDefinitions : ∀ e ∈ t.securityDefinitions, e.2.WellFormed
  sortedVariables : Dict.Sorted t.uriVariables
  uriVariables : ∀ e ∈ t.uriVariables, e.2.Canonical
  sortedMetadata : Dict.Sorted t.metadata
  metadata : AllNormal t.metadata

/-- A well-formed description can be written. -/
theorem WellFormed.canonical {t : Thing} (h : t.WellFormed) : t.Canonical where
  context := h.context.canonical
  labels := h.labels
  sortedProperties := h.sortedProperties
  properties := fun e he => (h.properties e he).canonical
  sortedActions := h.sortedActions
  actions := fun e he => (h.actions e he).canonical
  sortedEvents := h.sortedEvents
  events := fun e he => (h.events e he).canonical
  sortedDefinitions := h.sortedDefinitions
  securityDefinitions := h.securityDefinitions
  sortedVariables := h.sortedVariables
  uriVariables := fun e he => (h.uriVariables e he).canonical
  sortedMetadata := h.sortedMetadata
  metadata := h.metadata

/-! ## Reading what was written -/

/-- The names of the known members, those of the labels apart. -/
def ownFieldNames : List String := fieldNames.filter fun key => !Labels.fieldNames.contains key

/-- The fields that are a description's own, by their names. -/
theorem ownFieldNames_eq : ownFieldNames = ["@context", "id", "version", "created", "modified",
    "support", "base", "properties", "actions", "events", "links", "forms", "security",
    "securityDefinitions", "uriVariables"] := by
  decide

theorem get?_metadata_eq_none {t : Thing} (ht : t.WellFormed) {key : String} (hkey : key ∈ fieldNames) :
    Dict.get? key (Dict.ofList t.metadata) = none :=
  Dict.get?_ofList_eq_none fun e he hek => ht.unknown e he (hek ▸ hkey)

/-- The labels of a description are read as they were written. -/
theorem labels_members {t : Thing} (ht : t.WellFormed) :
    Labels.ofMembers? (Dict.ofList t.members) = some t.labels := by
  refine Labels.ofMembers?_of_get? fun key hkey => ?_
  have hknown : ∀ k ∈ Labels.fieldNames, k ∈ fieldNames := by decide
  have hmetadata := get?_metadata_eq_none ht (hknown key hkey)
  have hne : ∀ k ∈ ownFieldNames, k ≠ key := by
    have hdisjoint : ∀ k ∈ ownFieldNames, k ∉ Labels.fieldNames := by decide
    exact fun k hk e => hdisjoint k hk (e ▸ hkey)
  simp only [ownFieldNames_eq, List.forall_mem_cons] at hne
  simp [members, hmetadata, hne]

/-- Members that are not known are kept as they are. -/
theorem unknownMembers_members {t : Thing} (ht : t.WellFormed) :
    unknownMembers (Dict.ofList t.members) = t.metadata := by
  refine Dict.ext_get? ((Dict.sorted_ofList _).filter _) ht.sortedMetadata fun key => ?_
  rw [unknownMembers, Dict.get?_filter (fun k => !fieldNames.contains k)]
  by_cases hkey : key ∈ fieldNames
  · have hnone := get?_metadata_eq_none ht hkey
    rw [Dict.ofList_eq_self ht.sortedMetadata] at hnone
    simp [hkey, hnone]
  · have hlabels : Dict.get? key (Dict.ofList t.labels.members) = none := by
      have hknown : ∀ k ∈ Labels.fieldNames, k ∈ fieldNames := by decide
      exact Labels.get?_members_eq_none fun h => hkey (hknown key h)
    have hne : ∀ k ∈ fieldNames, k ≠ key := fun k hk e => hkey (e ▸ hk)
    simp only [fieldNames, List.forall_mem_cons] at hne
    simp [hkey, members, hlabels, hne, Dict.ofList_eq_self ht.sortedMetadata]

theorem readsAs_timestamp (x : Timestamp) : ReadsAs timestamp? (.str x.toString) x where
  read_eq := by rw [timestamp?, asString?_str, Option.bind_some, x.ofString?_toString]
  ne_null := by simp

theorem optionalValue?_timestamp (x : Option Timestamp) :
    optionalValue? timestamp? (x.map fun c => .str c.toString) = some x :=
  optionalValue?_map fun c _ => readsAs_timestamp c

theorem optionalValue?_version (x : Option VersionInfo) :
    optionalValue? VersionInfo.ofJson? (x.map VersionInfo.toJson) = some x :=
  optionalValue?_map fun v _ => v.readsAs_toJson

/-- The members of a description are read as it was written. -/
theorem ofMembers?_members {t : Thing} (ht : t.WellFormed) :
    ofMembers? t.context (Dict.ofList t.members) = some t.reread := by
  have hnone : ∀ key ∈ ownFieldNames, Dict.get? key (Dict.ofList t.metadata) = none ∧
      Dict.get? key (Dict.ofList t.labels.members) = none := by
    have hdisjoint : ∀ k ∈ ownFieldNames, k ∈ fieldNames ∧ k ∉ Labels.fieldNames := by decide
    exact fun key hkey => ⟨get?_metadata_eq_none ht (hdisjoint key hkey).1,
      Labels.get?_members_eq_none (hdisjoint key hkey).2⟩
  -- Each field by itself; `hnone` says that metadata and labels hold no member of these names.
  have hproperties : defaultValue? (asDict? PropertyAffordance.ofJson?) []
      (listValue? (ofDict PropertyAffordance.toJson) t.properties) =
        some (Dict.mapValues PropertyAffordance.reread t.properties) :=
    defaultValue?_dict fun e he => PropertyAffordance.ofJson?_toJson (ht.properties e he)
  have hactions : defaultValue? (asDict? ActionAffordance.ofJson?) []
      (listValue? (ofDict ActionAffordance.toJson) t.actions) =
        some (Dict.mapValues ActionAffordance.reread t.actions) :=
    defaultValue?_dict fun e he => ActionAffordance.ofJson?_toJson (ht.actions e he)
  have hevents : defaultValue? (asDict? EventAffordance.ofJson?) []
      (listValue? (ofDict EventAffordance.toJson) t.events) =
        some (Dict.mapValues EventAffordance.reread t.events) :=
    defaultValue?_dict fun e he => EventAffordance.ofJson?_toJson (ht.events e he)
  have hlinks : defaultValue? (asList? Link.ofJson?) []
      (listValue? (fun links => .arr (links.map Link.toJson)) t.links) = some t.links :=
    defaultValue?_list_self (mapM_map_of_forall fun l _ => l.ofJson?_toJson)
  have hforms : defaultValue? (asList? Form.ofJson?) []
      (listValue? (fun forms => .arr (forms.map Form.toJson)) t.forms) =
        some (t.forms.map Form.reread) :=
    defaultValue?_array fun f _ => f.ofJson?_toJson
  have hsecurity : defaultValue? (oneOrMany? asString?) []
      (listValue? (oneOrMany .str) t.security) = some t.security :=
    defaultValue?_list_self (readsAs_strings _).read_eq
  have hdefinitions : defaultValue? (asDict? SecurityScheme.ofJson?) []
      (listValue? (ofDict SecurityScheme.toJson) t.securityDefinitions) =
        some t.securityDefinitions :=
    defaultValue?_list_self (asDict?_ofDict_self fun e _ => e.2.ofJson?_toJson)
  have hvariables : defaultValue? (asDict? DataSchema.ofJson?) []
      (listValue? (ofDict DataSchema.toJson) t.uriVariables) = some t.uriVariables :=
    defaultValue?_list_self
      (asDict?_ofDict_self fun e he => DataSchema.ofJson?_toJson (ht.uriVariables e he))
  simp only [ofMembers?, labels_members ht, unknownMembers_members ht]
  simp only [ownFieldNames_eq, List.forall_mem_cons] at hnone
  simp [members, hnone, required?, optional?_eq, withDefault?_eq, optionalValue?_version,
    optionalValue?_timestamp, hproperties, hactions, hevents, hlinks, hforms, hsecurity, hdefinitions,
    hvariables, reread]

/-- A description is read as it was written. -/
theorem ofJson_toJson {t : Thing} (ht : t.WellFormed) : ofJson t.toJson = .ok t.reread := by
  have hcontext : contextOf (Dict.ofList t.members) = .ok t.context := by
    have hvalue : Dict.get? "@context" (Dict.ofList t.members) = some t.context.toJson := by
      have hmetadata := get?_metadata_eq_none ht (show "@context" ∈ fieldNames by decide)
      have hlabels : Dict.get? "@context" (Dict.ofList t.labels.members) = none :=
        Labels.get?_members_eq_none (by decide)
      simp [members, hmetadata, hlabels]
    rw [contextOf, hvalue]
    exact Context.ofJson_toJson ht.context
  simp only [toJson, object, ofJson, hcontext, ofMembers?_members ht]

/-! ## What reading keeps true -/

/-- The fields of a description, each as it was read. -/
structure FieldsRead (c : Context) (m : List (String × Json)) (t : Thing) : Prop where
  context : t.context = c
  id : required? asString? "id" m = some t.id
  labels : Labels.ofMembers? m = some t.labels
  version : optional? VersionInfo.ofJson? "version" m = some t.version
  created : optional? timestamp? "created" m = some t.created
  modified : optional? timestamp? "modified" m = some t.modified
  support : optional? asString? "support" m = some t.support
  base : optional? asString? "base" m = some t.base
  properties : withDefault? (asDict? PropertyAffordance.ofJson?) [] "properties" m = some t.properties
  actions : withDefault? (asDict? ActionAffordance.ofJson?) [] "actions" m = some t.actions
  events : withDefault? (asDict? EventAffordance.ofJson?) [] "events" m = some t.events
  links : withDefault? (asList? Link.ofJson?) [] "links" m = some t.links
  forms : withDefault? (asList? Form.ofJson?) [] "forms" m = some t.forms
  security : withDefault? (oneOrMany? asString?) [] "security" m = some t.security
  securityDefinitions :
    withDefault? (asDict? SecurityScheme.ofJson?) [] "securityDefinitions" m = some t.securityDefinitions
  uriVariables : withDefault? (asDict? DataSchema.ofJson?) [] "uriVariables" m = some t.uriVariables
  metadata : t.metadata = unknownMembers m

/-- What the reader says of the fields of a description. -/
theorem fieldsRead_of_ofMembers? {c : Context} {m : List (String × Json)} {t : Thing}
    (h : ofMembers? c m = some t) : FieldsRead c m t := by
  unfold ofMembers? at h
  obtain ⟨id, hid, h⟩ := Option.bind_eq_some_iff.1 h
  obtain ⟨labels, hlabels, h⟩ := Option.bind_eq_some_iff.1 h
  obtain ⟨version, hversion, h⟩ := Option.bind_eq_some_iff.1 h
  obtain ⟨created, hcreated, h⟩ := Option.bind_eq_some_iff.1 h
  obtain ⟨modified, hmodified, h⟩ := Option.bind_eq_some_iff.1 h
  obtain ⟨support, hsupport, h⟩ := Option.bind_eq_some_iff.1 h
  obtain ⟨base, hbase, h⟩ := Option.bind_eq_some_iff.1 h
  obtain ⟨properties, hproperties, h⟩ := Option.bind_eq_some_iff.1 h
  obtain ⟨actions, hactions, h⟩ := Option.bind_eq_some_iff.1 h
  obtain ⟨events, hevents, h⟩ := Option.bind_eq_some_iff.1 h
  obtain ⟨links, hlinks, h⟩ := Option.bind_eq_some_iff.1 h
  obtain ⟨forms, hforms, h⟩ := Option.bind_eq_some_iff.1 h
  obtain ⟨security, hsecurity, h⟩ := Option.bind_eq_some_iff.1 h
  obtain ⟨definitions, hdefinitions, h⟩ := Option.bind_eq_some_iff.1 h
  obtain ⟨uriVariables, hvariables, h⟩ := Option.bind_eq_some_iff.1 h
  cases h
  exact ⟨rfl, hid, hlabels, hversion, hcreated, hmodified, hsupport, hbase, hproperties, hactions, hevents,
    hlinks, hforms, hsecurity, hdefinitions, hvariables, rfl⟩

/-- A description is read from an object, once its vocabulary has been read. -/
theorem exists_of_ofJson {v : Json} {t : Thing} (h : ofJson v = .ok t) :
    ∃ m c, v = .obj m ∧ contextOf m = .ok c ∧ FieldsRead c m t := by
  cases v with
  | obj m =>
    simp only [ofJson] at h
    split at h
    · cases h
    · next c hc =>
      split at h
      · next t' ht =>
        cases h
        exact ⟨m, c, rfl, hc, fieldsRead_of_ofMembers? ht⟩
      · cases h
  | _ => cases h

/-- A description whose fields are read from normal members is well-formed. -/
theorem wellFormed_of_fieldsRead {c : Context} (hcontext : c.WellFormed)
    {m : List (String × Json)} (hsorted : Dict.Sorted m) (hm : AllNormal m) {t : Thing}
    (h : FieldsRead c m t) : t.WellFormed := by
  -- Only dictionaries and labels leave something to show.
  have hp := of_dictField hm h.properties fun _ _ => PropertyAffordance.wellFormed_of_ofJson?
  have ha := of_dictField hm h.actions fun _ _ => ActionAffordance.wellFormed_of_ofJson?
  have he := of_dictField hm h.events fun _ _ => EventAffordance.wellFormed_of_ofJson?
  have hd := of_dictField hm h.securityDefinitions fun _ _ => SecurityScheme.wellFormed_of_ofJson?
  have hv := of_dictField hm h.uriVariables fun _ _ => DataSchema.wellFormed_of_ofJson?
  exact {
    context := h.context ▸ hcontext
    labels := Labels.wellFormed_of_ofMembers? hm h.labels
    sortedProperties := hp.1
    properties := hp.2
    sortedActions := ha.1
    actions := ha.2
    sortedEvents := he.1
    events := he.2
    sortedDefinitions := hd.1
    securityDefinitions := hd.2
    sortedVariables := hv.1
    uriVariables := hv.2
    sortedMetadata := h.metadata ▸ hsorted.filter _
    metadata := fun e he => hm e (List.mem_filter.1 (h.metadata ▸ he)).1
    unknown := fun e he => by
      rw [h.metadata] at he
      simpa using (List.mem_filter.1 he).2 }

/-- A description read from a normal value is well-formed. -/
theorem wellFormed_of_ofJson {v : Json} (hv : v.IsNormal) {t : Thing} (h : ofJson v = .ok t) :
    t.WellFormed := by
  obtain ⟨m, c, rfl, hcontext, hread⟩ := exists_of_ofJson h
  obtain ⟨hsorted, hm⟩ := isNormal_obj_iff.1 hv
  refine wellFormed_of_fieldsRead ?_ hsorted hm hread
  unfold contextOf at hcontext
  split at hcontext
  · cases hcontext
    exact Context.wellFormed_iri _
  · next w hw => exact Context.wellFormed_of_ofJson (AllNormal.of_get? hm hw) hcontext

/-! ## Exporting what was read -/

/-- A canonical description is written as a normal value. -/
theorem Canonical.isNormal_toJson {t : Thing} (ht : t.Canonical) : t.toJson.IsNormal := by
  refine isNormal_object (show AllNormal _ from ?_)
  have hdict : ∀ {α : Type} {write : α → Json} {d : Dict α} {P : α → Prop}, d.Sorted →
      (∀ e ∈ d, P e.2) → (∀ x, P x → (write x).IsNormal) → (ofDict write d).IsNormal :=
    fun hd hP hw => isNormal_ofDict hd fun e he => hw e.2 (hP e he)
  have hlinks : (arr (t.links.map Link.toJson)).IsNormal := isNormal_arr_map fun l _ => l.isNormal_toJson
  have hforms : (arr (t.forms.map Form.toJson)).IsNormal := isNormal_arr_map fun f _ => f.isNormal_toJson
  have hsecurity : (oneOrMany .str t.security).IsNormal := isNormal_oneOrMany fun _ _ => isNormal_str _
  have hversion : AllNormal (field "version" (t.version.map VersionInfo.toJson)) :=
    allNormal_field_map fun v _ => v.isNormal_toJson
  have htext : ∀ {α : Type} (key : String) (write : α → String) (x : Option α),
      AllNormal (field key (x.map fun y => .str (write y))) :=
    fun _ _ _ => allNormal_field_map fun _ _ => isNormal_str _
  simp only [members, allNormal_append, allNormal_cons, allNormal_nil, allNormal_listField, and_true]
  exact ⟨⟨⟨⟨⟨⟨⟨⟨⟨⟨⟨⟨⟨⟨⟨⟨ht.context.isNormal_toJson, isNormal_str _⟩,
    Labels.allNormal_members ht.labels⟩, hversion⟩, htext _ _ _⟩, htext _ _ _⟩, htext _ _ _⟩, htext _ _ _⟩,
    fun _ => hdict ht.sortedProperties ht.properties fun _ h => h.isNormal_toJson⟩,
    fun _ => hdict ht.sortedActions ht.actions fun _ h => h.isNormal_toJson⟩,
    fun _ => hdict ht.sortedEvents ht.events fun _ h => h.isNormal_toJson⟩,
    fun _ => hlinks⟩, fun _ => hforms⟩, fun _ => hsecurity⟩,
    fun _ => hdict ht.sortedDefinitions ht.securityDefinitions fun _ => SecurityScheme.isNormal_toJson⟩,
    fun _ => hdict ht.sortedVariables ht.uriVariables fun _ h => h.isNormal_toJson⟩, ht.metadata⟩

theorem isNormal_toJson {t : Thing} (ht : t.WellFormed) : t.toJson.IsNormal :=
  ht.canonical.isNormal_toJson

/-- A description that was read from a value is exported as a value that is read as the same description,
but that a form with an empty list of operations has no list any more. What is read then is exported and
read again without any change. -/
theorem ofJson_exported {v : Json} {t : Thing} (h : ofJson v.normal = .ok t) :
    t.toJson.IsNormal ∧
      ofJson t.toJson = .ok t.reread ∧
      t.reread.toJson.IsNormal ∧
      ofJson t.reread.toJson = .ok t.reread := by
  have ht : t.WellFormed := wellFormed_of_ofJson v.isNormal_normal h
  refine ⟨isNormal_toJson ht, ofJson_toJson ht, isNormal_toJson ht.reread, ?_⟩
  rw [ofJson_toJson ht.reread, reread_reread]

/-- The description of a lamp, with a form whose list of operations is empty. -/
def lampDescription : Json :=
  .obj
    [("title", .str "Lamp"), ("id", .str "urn:lamp"), ("x:room", .arr [.str "attic", .null]),
     ("properties", .obj
       [("state", .obj
         [("type", .str "object"),
          ("properties", .obj [("on", .obj [("type", .str "boolean")])]),
          ("forms", .arr [.obj [("href", .str "/state"), ("op", .arr [])]])])])]

/-- The lamp that is described. -/
def lamp : Thing :=
  { id := "urn:lamp"
    labels := { title := some "Lamp" }
    properties :=
      [("state",
        { interaction := { forms := [{ href := "/state", op := .only [] }] }
          schema := { kind := some (.object [("on", { kind := some .boolean })] []) } })]
    metadata := [("x:room", .arr [.str "attic", .null])] }

theorem ofJson_exported_lamp :
    ofJson lampDescription.normal = .ok lamp ∧
      lamp.toJson.IsNormal ∧
      ofJson lamp.toJson = .ok lamp.reread ∧
      lamp.reread.toJson.IsNormal ∧
      ofJson lamp.reread.toJson = .ok lamp.reread :=
  ⟨rfl, ofJson_exported (show ofJson lampDescription.normal = .ok lamp from rfl)⟩

end WebOfThings.Thing
