import WebOfThings.Affordance
import WebOfThings.Proofs.Description.Schema

/-!
# Affordances that read back

Properties, actions and events, read from what they are written as. What all three have in common is part of
a larger record; `Interaction.ofMembers?_of_get?` therefore asks only that the fields of an interaction are
the ones that were written.

The schema of a property stands among the members of the property. Labels, forms and variables are taken out
before it is read, so it has no labels of its own (`PropertyAffordance.WellFormed`), and
`PropertyAffordance.ofJson?_toJson` rests on there being no other name that both have.

For each of the three kinds there are the same four statements: what is read again (`reread`), what reading
keeps true (`WellFormed`), that a well-formed one is read as it was written, and that what is written is
normal. The proofs differ in the fields only and go through the lemmas about single fields.
-/

namespace WebOfThings

open Json

namespace DataSchema

theorem readsAs_toJson {s : DataSchema} (h : s.WellFormed) : ReadsAs ofJson? s.toJson s :=
  ⟨ofJson?_toJson h, s.toJson_ne_null⟩

theorem optionalValue?_toJson {x : Option DataSchema} (h : ∀ s, x = some s → s.WellFormed) :
    optionalValue? ofJson? (x.map toJson) = some x :=
  optionalValue?_map fun s hs => readsAs_toJson (h s hs)

/-- Schemas that were read from a field are well-formed. -/
theorem wellFormed_of_optionalValue? {x : Option DataSchema} {m : List (String × Json)} {key : String}
    (hm : AllNormal m) (h : optionalValue? ofJson? (Dict.get? key m) = some x) :
    ∀ s, x = some s → s.WellFormed :=
  of_optionalValue? hm h fun _ _ hv _ hs => wellFormed_of_ofJson? hv hs

theorem allNormal_field {key : String} {x : Option DataSchema} (h : ∀ s, x = some s → s.Canonical) :
    AllNormal (field key (x.map toJson)) :=
  allNormal_field_map fun s hs => (h s hs).isNormal_toJson

end DataSchema

/-! ## What all affordances have -/

namespace Interaction

/-- The interaction part that is read from what was written. -/
def reread (i : Interaction) : Interaction := { i with forms := i.forms.map Form.reread }

@[simp] theorem reread_reread (i : Interaction) : i.reread.reread = i.reread := by
  simp [reread, Function.comp_def]

/-- What reading keeps true of an interaction part. -/
structure WellFormed (i : Interaction) : Prop where
  labels : i.labels.WellFormed
  sorted : Dict.Sorted i.uriVariables
  uriVariables : ∀ e ∈ i.uriVariables, e.2.WellFormed

theorem WellFormed.reread {i : Interaction} (h : i.WellFormed) : i.reread.WellFormed :=
  ⟨h.labels, h.sorted, h.uriVariables⟩

/-- The dictionaries of an interaction part are in order, and its variables are canonical. -/
structure Canonical (i : Interaction) : Prop where
  labels : i.labels.WellFormed
  sorted : Dict.Sorted i.uriVariables
  uriVariables : ∀ e ∈ i.uriVariables, e.2.Canonical

theorem WellFormed.canonical {i : Interaction} (h : i.WellFormed) : i.Canonical :=
  ⟨h.labels, h.sorted, fun e he => (h.uriVariables e he).canonical⟩

/-- The members of an interaction have its field names. -/
theorem mem_members {i : Interaction} {e : String × Json} (h : e ∈ i.members) : e.1 ∈ fieldNames := by
  simp only [members, List.mem_append] at h
  rcases h with (h | h) | h
  · exact List.mem_append_left _ (Labels.mem_members h)
  · simp [mem_listField h, fieldNames]
  · simp [mem_listField h, fieldNames]

theorem get?_members_eq_none {i : Interaction} {key : String} (h : key ∉ fieldNames) :
    Dict.get? key (Dict.ofList i.members) = none :=
  Dict.get?_ofList_eq_none fun _ he hkey => h (hkey ▸ mem_members he)

/-- An interaction is read from what was written, up to its forms. -/
theorem ofMembers?_members {i : Interaction} (hi : i.WellFormed) :
    ofMembers? (Dict.ofList i.members) = some i.reread := by
  have hlabels : Labels.ofMembers? (Dict.ofList i.members) = some i.labels := by
    refine Labels.ofMembers?_of_get? fun key hkey => ?_
    have hne : key ≠ "forms" ∧ key ≠ "uriVariables" := by
      have hdisjoint : ∀ k ∈ Labels.fieldNames, k ≠ "forms" ∧ k ≠ "uriVariables" := by decide
      exact hdisjoint key hkey
    simp [members, hne.1.symm, hne.2.symm]
  have hown : ∀ key ∈ ["forms", "uriVariables"], Dict.get? key (Dict.ofList i.labels.members) = none := by
    have hdisjoint : ∀ k ∈ ["forms", "uriVariables"], k ∉ Labels.fieldNames := by decide
    exact fun key hkey => Labels.get?_members_eq_none (hdisjoint key hkey)
  simp only [List.forall_mem_cons] at hown
  have hforms : defaultValue? (asList? Form.ofJson?) []
      (listValue? (fun forms => .arr (forms.map Form.toJson)) i.forms) =
        some (i.forms.map Form.reread) :=
    defaultValue?_array fun f _ => f.ofJson?_toJson
  have hvariables : defaultValue? (asDict? DataSchema.ofJson?) []
      (listValue? (ofDict DataSchema.toJson) i.uriVariables) = some i.uriVariables :=
    defaultValue?_list_self
      (asDict?_ofDict_self fun e he => DataSchema.ofJson?_toJson (hi.uriVariables e he))
  simp only [ofMembers?, hlabels, withDefault?_eq]
  simp [members, hown, hforms, hvariables, reread]

/-- An interaction part depends on its own fields only. -/
theorem ofMembers?_congr {m m' : List (String × Json)}
    (h : ∀ key ∈ fieldNames, Dict.get? key m = Dict.get? key m') : ofMembers? m = ofMembers? m' := by
  have hlabels : Labels.ofMembers? m = Labels.ofMembers? m' :=
    Labels.ofMembers?_congr fun key hkey => h key (List.mem_append_left _ hkey)
  simp only [ofMembers?, hlabels, withDefault?_eq, h "forms" (by decide), h "uriVariables" (by decide)]

/-- So it is from any members that agree with those under its field names. -/
theorem ofMembers?_of_get? {i : Interaction} (hi : i.WellFormed) {m : List (String × Json)}
    (h : ∀ key ∈ fieldNames, Dict.get? key m = Dict.get? key (Dict.ofList i.members)) :
    ofMembers? m = some i.reread :=
  (ofMembers?_congr h).trans (ofMembers?_members hi)

/-- An interaction that is read from normal members is well-formed. -/
theorem wellFormed_of_ofMembers? {m : List (String × Json)} {i : Interaction} (hm : AllNormal m)
    (h : ofMembers? m = some i) : i.WellFormed := by
  simp only [ofMembers?, withDefault?_eq, Option.bind_eq_bind, Option.bind_eq_some_iff] at h
  obtain ⟨labels, hlabels, forms, -, uriVariables, hvariables, h⟩ := h
  cases h
  obtain ⟨hsorted, hwell⟩ := of_dictField hm hvariables fun _ _ => DataSchema.wellFormed_of_ofJson?
  exact ⟨Labels.wellFormed_of_ofMembers? hm hlabels, hsorted, hwell⟩

/-- The members that are written for an interaction are normal. -/
theorem Canonical.allNormal_members {i : Interaction} (hi : i.Canonical) : AllNormal i.members := by
  simp only [members, allNormal_append, allNormal_listField]
  refine ⟨⟨Labels.allNormal_members hi.labels, fun _ => ?_⟩, fun _ => ?_⟩
  · exact isNormal_arr_map fun f _ => f.isNormal_toJson
  · exact isNormal_ofDict hi.sorted fun e he => (hi.uriVariables e he).isNormal_toJson

end Interaction

/-! ## Properties -/

namespace PropertyAffordance

/-- The property that is read from what was written. -/
def reread (p : PropertyAffordance) : PropertyAffordance :=
  { p with interaction := p.interaction.reread }

@[simp] theorem reread_reread (p : PropertyAffordance) : p.reread.reread = p.reread := by
  simp [reread]

/-- What reading keeps true of a property: its labels are those of the affordance. -/
structure WellFormed (p : PropertyAffordance) : Prop where
  interaction : p.interaction.WellFormed
  schema : p.schema.WellFormed
  unlabelled : p.schema.labels = {}

theorem WellFormed.reread {p : PropertyAffordance} (h : p.WellFormed) : p.reread.WellFormed :=
  ⟨h.interaction.reread, h.schema, h.unlabelled⟩

/-- A property is canonical if its parts are; its schema may have labels of its own. -/
structure Canonical (p : PropertyAffordance) : Prop where
  interaction : p.interaction.Canonical
  schema : p.schema.Canonical

theorem WellFormed.canonical {p : PropertyAffordance} (h : p.WellFormed) : p.Canonical :=
  ⟨h.interaction.canonical, h.schema.canonical⟩

/-- A schema without labels writes no field of an interaction. -/
theorem get?_schema_members_eq_none {s : DataSchema} (hs : s.labels = {}) {key : String}
    (hkey : key ∈ Interaction.fieldNames) : Dict.get? key (Dict.ofList s.members) = none := by
  have hother : ∀ k ∈ Interaction.fieldNames,
      k ∉ DataSchema.plainFieldNames ∧ k ∉ DataSchema.kindFieldNames := by decide
  have hkind := DataSchema.get?_kindMembers_eq_none s.kind (hother key hkey).2
  have hplain : ∀ k ∈ DataSchema.plainFieldNames, k ≠ key :=
    fun k hk e => (hother key hkey).1 (e ▸ hk)
  simp only [DataSchema.plainFieldNames, List.forall_mem_cons] at hplain
  have hlabels : Labels.members {} = [] := rfl
  simp [DataSchema.members_eq, hs, hlabels, hplain, hkind]

/-- The schema of a property is read from the members that are not those of an interaction. -/
theorem get?_schemaMembers (m : List (String × Json)) (key : String) :
    Dict.get? key (schemaMembers m) =
      if key ∈ Interaction.fieldNames then none else Dict.get? key m := by
  rw [schemaMembers, Dict.get?_filter (fun k => !Interaction.fieldNames.contains k)]
  by_cases h : key ∈ Interaction.fieldNames <;> simp [h]

/-- A property is read as it was written. -/
theorem ofJson?_toJson {p : PropertyAffordance} (hp : p.WellFormed) :
    ofJson? p.toJson = some p.reread := by
  have hinteraction : Interaction.ofMembers? (Dict.ofList (p.interaction.members ++ p.schema.members ++
      field "observable" (p.observable.map .bool))) = some p.interaction.reread := by
    refine Interaction.ofMembers?_of_get? hp.interaction fun key hkey => ?_
    have hne : key ≠ "observable" := by
      rintro rfl
      exact absurd hkey (by decide)
    simp [get?_schema_members_eq_none hp.unlabelled hkey, hne.symm]
  have hschema : DataSchema.ofMembers? (schemaMembers (Dict.ofList (p.interaction.members ++
      p.schema.members ++ field "observable" (p.observable.map .bool)))) = some p.schema := by
    rw [← DataSchema.ofJson?_toJson hp.schema, DataSchema.toJson, object, DataSchema.ofJson?_obj]
    -- What the interaction takes, a schema without labels has nothing under.
    refine DataSchema.ofMembers?_congr fun key hkey => ?_
    rw [get?_schemaMembers]
    split
    · next h => exact (get?_schema_members_eq_none hp.unlabelled h).symm
    · next h =>
      have hne : key ≠ "observable" := by
        rintro rfl
        exact absurd hkey (by decide)
      simp [Interaction.get?_members_eq_none h, hne.symm]
  have hobservable : Dict.get? "observable" (Dict.ofList p.schema.members) = none ∧
      Dict.get? "observable" (Dict.ofList p.interaction.members) = none :=
    ⟨DataSchema.get?_members_eq_none (by decide), Interaction.get?_members_eq_none (by decide)⟩
  simp only [ofJson?, toJson, object, hinteraction, hschema, optional?_eq]
  simp [hobservable, reread]

/-- A property that is read from a normal value is well-formed. -/
theorem wellFormed_of_ofJson? {v : Json} {p : PropertyAffordance} (hv : v.IsNormal)
    (h : ofJson? v = some p) : p.WellFormed := by
  cases v with
  | obj members =>
    have hm : AllNormal members := (isNormal_obj_iff.1 hv).2
    have hms : AllNormal (schemaMembers members) := fun e he => hm e (List.mem_filter.1 he).1
    simp only [ofJson?, Option.bind_eq_bind, Option.bind_eq_some_iff] at h
    obtain ⟨i, hi, s, hs, observable, -, h⟩ := h
    cases h
    refine ⟨Interaction.wellFormed_of_ofMembers? hm hi,
      DataSchema.wellFormed_of_ofMembers? hms hs, ?_⟩
    -- The labels have been taken for the interaction.
    have hnone : ∀ key ∈ Labels.fieldNames, Dict.get? key (schemaMembers members) = none := by
      intro key hkey
      rw [get?_schemaMembers, if_pos (by exact List.mem_append_left _ hkey)]
    have hempty : Labels.ofMembers? (schemaMembers members) = some {} := Labels.ofMembers?_of_get? hnone
    exact Option.some.inj ((DataSchema.fieldsRead_of_ofMembers? hs).labels.symm.trans hempty)
  | _ => cases h

/-- A property is written as a normal value. -/
theorem Canonical.isNormal_toJson {p : PropertyAffordance} (hp : p.Canonical) : p.toJson.IsNormal := by
  refine isNormal_object (show AllNormal _ from ?_)
  simp only [allNormal_append]
  exact ⟨⟨hp.interaction.allNormal_members, hp.schema.allNormal_members⟩,
    allNormal_field_map fun _ _ => isNormal_bool _⟩

end PropertyAffordance

/-! ## Actions -/

namespace ActionAffordance

/-- The action that is read from what was written. -/
def reread (a : ActionAffordance) : ActionAffordance :=
  { a with interaction := a.interaction.reread }

@[simp] theorem reread_reread (a : ActionAffordance) : a.reread.reread = a.reread := by
  simp [reread]

/-- What reading keeps true of an action. -/
structure WellFormed (a : ActionAffordance) : Prop where
  interaction : a.interaction.WellFormed
  input : ∀ s, a.input = some s → s.WellFormed
  output : ∀ s, a.output = some s → s.WellFormed

theorem WellFormed.reread {a : ActionAffordance} (h : a.WellFormed) : a.reread.WellFormed :=
  ⟨h.interaction.reread, h.input, h.output⟩

/-- An action is canonical if its parts are. -/
structure Canonical (a : ActionAffordance) : Prop where
  interaction : a.interaction.Canonical
  input : ∀ s, a.input = some s → s.Canonical
  output : ∀ s, a.output = some s → s.Canonical

/-- A well-formed action can be written. -/
theorem WellFormed.canonical {a : ActionAffordance} (h : a.WellFormed) : a.Canonical where
  interaction := h.interaction.canonical
  input := fun s hs => (h.input s hs).canonical
  output := fun s hs => (h.output s hs).canonical

/-- The names of the fields that actions have besides those of every affordance. -/
def fieldNames : List String := ["input", "output", "safe", "idempotent", "synchronous"]

/-- An action is read as it was written. -/
theorem ofJson?_toJson {a : ActionAffordance} (ha : a.WellFormed) :
    ofJson? a.toJson = some a.reread := by
  have hdisjoint : ∀ k ∈ fieldNames, k ∉ Interaction.fieldNames := by decide
  have hown : ∀ key ∈ fieldNames, Dict.get? key (Dict.ofList a.interaction.members) = none :=
    fun key hkey => Interaction.get?_members_eq_none (hdisjoint key hkey)
  simp only [fieldNames, List.forall_mem_cons] at hown
  simp only [ofJson?, toJson, object]
  rw [Interaction.ofMembers?_of_get? ha.interaction]
  · simp [optional?_eq, withDefault?_eq, hown, DataSchema.optionalValue?_toJson ha.input,
      DataSchema.optionalValue?_toJson ha.output, reread]
  · intro key hkey
    -- The fields of the interaction stand beside those of the action.
    have hne : ∀ k ∈ fieldNames, k ≠ key := fun k hk e => hdisjoint k hk (e ▸ hkey)
    simp only [fieldNames, List.forall_mem_cons] at hne
    simp [hne]

/-- An action that is read from a normal value is well-formed. -/
theorem wellFormed_of_ofJson? {v : Json} {a : ActionAffordance} (hv : v.IsNormal)
    (h : ofJson? v = some a) : a.WellFormed := by
  cases v with
  | obj members =>
    have hm : AllNormal members := (isNormal_obj_iff.1 hv).2
    simp only [ofJson?, optional?_eq, Option.bind_eq_bind, Option.bind_eq_some_iff] at h
    obtain ⟨i, hi, input, hinput, output, houtput, safe, -, idempotent, -, synchronous, -, h⟩ := h
    cases h
    exact ⟨Interaction.wellFormed_of_ofMembers? hm hi, DataSchema.wellFormed_of_optionalValue? hm hinput,
      DataSchema.wellFormed_of_optionalValue? hm houtput⟩
  | _ => cases h

/-- An action is written as a normal value. -/
theorem Canonical.isNormal_toJson {a : ActionAffordance} (ha : a.Canonical) : a.toJson.IsNormal := by
  refine isNormal_object (show AllNormal _ from ?_)
  simp only [allNormal_append, allNormal_flag, and_true]
  exact ⟨⟨⟨ha.interaction.allNormal_members, DataSchema.allNormal_field ha.input⟩,
    DataSchema.allNormal_field ha.output⟩, allNormal_field_map fun _ _ => isNormal_bool _⟩

end ActionAffordance

/-! ## Events -/

namespace EventAffordance

/-- The event that is read from what was written. -/
def reread (e : EventAffordance) : EventAffordance :=
  { e with interaction := e.interaction.reread }

@[simp] theorem reread_reread (e : EventAffordance) : e.reread.reread = e.reread := by
  simp [reread]

/-- What reading keeps true of an event. -/
structure WellFormed (e : EventAffordance) : Prop where
  interaction : e.interaction.WellFormed
  subscription : ∀ s, e.subscription = some s → s.WellFormed
  data : ∀ s, e.data = some s → s.WellFormed
  dataResponse : ∀ s, e.dataResponse = some s → s.WellFormed
  cancellation : ∀ s, e.cancellation = some s → s.WellFormed

theorem WellFormed.reread {e : EventAffordance} (h : e.WellFormed) : e.reread.WellFormed :=
  ⟨h.interaction.reread, h.subscription, h.data, h.dataResponse, h.cancellation⟩

/-- An event is canonical if its parts are. -/
structure Canonical (e : EventAffordance) : Prop where
  interaction : e.interaction.Canonical
  subscription : ∀ s, e.subscription = some s → s.Canonical
  data : ∀ s, e.data = some s → s.Canonical
  dataResponse : ∀ s, e.dataResponse = some s → s.Canonical
  cancellation : ∀ s, e.cancellation = some s → s.Canonical

/-- A well-formed event can be written. -/
theorem WellFormed.canonical {e : EventAffordance} (h : e.WellFormed) : e.Canonical where
  interaction := h.interaction.canonical
  subscription := fun s hs => (h.subscription s hs).canonical
  data := fun s hs => (h.data s hs).canonical
  dataResponse := fun s hs => (h.dataResponse s hs).canonical
  cancellation := fun s hs => (h.cancellation s hs).canonical

/-- The names of the fields that events have besides those of every affordance. -/
def fieldNames : List String := ["subscription", "data", "dataResponse", "cancellation"]

/-- An event is read as it was written. -/
theorem ofJson?_toJson {e : EventAffordance} (he : e.WellFormed) :
    ofJson? e.toJson = some e.reread := by
  have hdisjoint : ∀ k ∈ fieldNames, k ∉ Interaction.fieldNames := by decide
  have hown : ∀ key ∈ fieldNames, Dict.get? key (Dict.ofList e.interaction.members) = none :=
    fun key hkey => Interaction.get?_members_eq_none (hdisjoint key hkey)
  simp only [fieldNames, List.forall_mem_cons] at hown
  simp only [ofJson?, toJson, object]
  rw [Interaction.ofMembers?_of_get? he.interaction]
  · simp [optional?_eq, hown, DataSchema.optionalValue?_toJson he.subscription,
      DataSchema.optionalValue?_toJson he.data, DataSchema.optionalValue?_toJson he.dataResponse,
      DataSchema.optionalValue?_toJson he.cancellation, reread]
  · intro key hkey
    have hne : ∀ k ∈ fieldNames, k ≠ key := fun k hk e => hdisjoint k hk (e ▸ hkey)
    simp only [fieldNames, List.forall_mem_cons] at hne
    simp [hne]

/-- An event that is read from a normal value is well-formed. -/
theorem wellFormed_of_ofJson? {v : Json} {e : EventAffordance} (hv : v.IsNormal)
    (h : ofJson? v = some e) : e.WellFormed := by
  cases v with
  | obj members =>
    have hm : AllNormal members := (isNormal_obj_iff.1 hv).2
    simp only [ofJson?, optional?_eq, Option.bind_eq_bind, Option.bind_eq_some_iff] at h
    obtain ⟨i, hi, subscription, hsubscription, data, hdata, dataResponse, hdataResponse, cancellation,
      hcancellation, h⟩ := h
    cases h
    exact ⟨Interaction.wellFormed_of_ofMembers? hm hi,
      DataSchema.wellFormed_of_optionalValue? hm hsubscription,
      DataSchema.wellFormed_of_optionalValue? hm hdata,
      DataSchema.wellFormed_of_optionalValue? hm hdataResponse,
      DataSchema.wellFormed_of_optionalValue? hm hcancellation⟩
  | _ => cases h

/-- An event is written as a normal value. -/
theorem Canonical.isNormal_toJson {e : EventAffordance} (he : e.Canonical) : e.toJson.IsNormal := by
  refine isNormal_object (show AllNormal _ from ?_)
  simp only [allNormal_append]
  exact ⟨⟨⟨⟨he.interaction.allNormal_members, DataSchema.allNormal_field he.subscription⟩,
    DataSchema.allNormal_field he.data⟩, DataSchema.allNormal_field he.dataResponse⟩,
    DataSchema.allNormal_field he.cancellation⟩

end EventAffordance
end WebOfThings
