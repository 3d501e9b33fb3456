import WebOfThings.Draft.Thing
import WebOfThings.Proofs.Dict
import WebOfThings.Proofs.Draft.Schema

/-!
# Drafts of things that can be built

A description can be built exactly if what the draft says is consistent (`ThingDraft.build_ok_iff`): no IRI
of its vocabulary is empty, no name is used twice, every security scheme that is named is defined, the forms
list operations that are allowed where they stand, and its schemas are consistent. The fault of any part
makes the whole fail, since a draft is built part after part.

The one thing that a draft could say and no script can is a form with an empty list of operations
(`Form.ListsNone`), which is left out here.

Building checks some things while it collects and others once everything is there: names when an entry is
added, security when all of it is known. The specification has no order; it says of each of these conditions
that it holds of the draft as a whole, and that the build succeeds if and only if all of them do. Which of
several faults is reported first is not part of it, and stands in the model.
-/

namespace WebOfThings

/-! ## Affordances -/

/-- A form lists operations, but none is in the list. -/
def Form.ListsNone (f : Form) : Prop := f.op = .only []

/-- What a draft says about any affordance is consistent: its forms list operations of its type only. -/
structure InteractionDraft.Consistent (d : InteractionDraft) (type : AffordanceType) : Prop where
  operations : ∀ f ∈ d.forms, ∀ ops, f.op = .only ops → ∀ op ∈ ops,
    (FormPlace.affordance type).allows op = true
  uriVariables : ∀ e ∈ d.uriVariables, e.2.IsVariable

/-- What a draft says about a property is consistent. -/
structure PropertyDraft.Consistent (d : PropertyDraft) : Prop where
  interaction : d.interaction.Consistent .property
  schema : ∀ s ∈ d.schema, s.Consistent

/-- What a draft says about an action is consistent. -/
structure ActionDraft.Consistent (d : ActionDraft) : Prop where
  interaction : d.interaction.Consistent .action
  input : ∀ s ∈ d.input, s.Consistent
  output : ∀ s ∈ d.output, s.Consistent

/-- What a draft says about an event is consistent. -/
structure EventDraft.Consistent (d : EventDraft) : Prop where
  interaction : d.interaction.Consistent .event
  subscription : ∀ s ∈ d.subscription, s.Consistent
  data : ∀ s ∈ d.data, s.Consistent
  dataResponse : ∀ s ∈ d.dataResponse, s.Consistent
  cancellation : ∀ s ∈ d.cancellation, s.Consistent

/-- Forms pass the check if nothing is wrong with any of them. -/
theorem FormPlace.checkForms_ok_iff {place : FormPlace} {forms : List Form} :
    Succeeds (place.checkForms forms) ↔ ∀ f ∈ forms, place.formFault? f = none := by
  rw [FormPlace.checkForms, ← List.findSome?_eq_none_iff]
  cases forms.findSome? place.formFault? <;> simp

/-- A form of an affordance is right if it lists operations of the affordance only. -/
theorem FormPlace.formFault?_affordance_iff {type : AffordanceType} {f : Form} (hf : ¬ f.ListsNone) :
    (FormPlace.affordance type).formFault? f = none ↔
      ∀ ops, f.op = .only ops → ∀ op ∈ ops, (FormPlace.affordance type).allows op = true := by
  rw [FormPlace.formFault?_eq_none_iff]
  constructor
  · rintro (⟨hany, -⟩ | ⟨ops, hops, -, hallowed⟩) ops' hops'
    · rw [hany] at hops'
      cases hops'
    · rw [hops] at hops'
      cases hops'
      exact hallowed
  · intro h
    cases hop : f.op with
    | any => exact .inl ⟨rfl, FormPlace.noConfusion⟩
    | only ops => exact .inr ⟨ops, rfl, fun hnil => hf (hop.trans (by rw [hnil])), h ops hop⟩

section

variable {type : AffordanceType}

/-- An interaction can be built if its draft is consistent. -/
theorem InteractionDraft.build_ok_iff {d : InteractionDraft} (hforms : ∀ f ∈ d.forms, ¬ f.ListsNone) :
    Succeeds (d.build type) ↔ d.Consistent type := by
  have hchecked : Succeeds ((FormPlace.affordance type).checkForms d.forms) ↔
      ∀ f ∈ d.forms, ∀ ops, f.op = .only ops → ∀ op ∈ ops, (FormPlace.affordance type).allows op = true :=
    FormPlace.checkForms_ok_iff.trans
      (forall_congr' fun f => forall_congr' fun hf => FormPlace.formFault?_affordance_iff (hforms f hf))
  have hbuild : Succeeds (d.build type) ↔ _ ∧ _ :=
    Succeeds.bind_iff_and fun _ _ => Succeeds.bind_iff_and fun _ _ => iff_true_intro (.ok _)
  rw [hbuild, hchecked, SchemaDraft.buildVariables_ok_iff, and_true]
  exact ⟨fun h => ⟨h.1, h.2⟩, fun h => ⟨h.1, h.2⟩⟩

/-- A property can be built if its draft is consistent. -/
theorem PropertyDraft.build_ok_iff {d : PropertyDraft} (hforms : ∀ f ∈ d.interaction.forms, ¬ f.ListsNone) :
    Succeeds d.build ↔ d.Consistent := by
  have hbuild : Succeeds d.build ↔ _ ∧ _ :=
    Succeeds.bind_iff_and fun _ _ => Succeeds.bind_iff_and fun _ _ => iff_true_intro (.ok _)
  rw [hbuild, InteractionDraft.build_ok_iff hforms, SchemaDraft.buildOptional_ok_iff, and_true]
  exact ⟨fun h => ⟨h.1, h.2⟩, fun h => ⟨h.1, h.2⟩⟩

/-- An action can be built if its draft is consistent. -/
theorem ActionDraft.build_ok_iff {d : ActionDraft} (hforms : ∀ f ∈ d.interaction.forms, ¬ f.ListsNone) :
    Succeeds d.build ↔ d.Consistent := by
  have hbuild : Succeeds d.build ↔ _ ∧ _ :=
    Succeeds.bind_iff_and fun _ _ => Succeeds.bind_iff_and fun _ _ =>
      Succeeds.bind_iff_and fun _ _ => iff_true_intro (.ok _)
  rw [hbuild, InteractionDraft.build_ok_iff hforms, SchemaDraft.buildOptional_ok_iff,
    SchemaDraft.buildOptional_ok_iff, and_true]
  exact ⟨fun h => ⟨h.1, h.2.1, h.2.2⟩, fun h => ⟨h.1, h.2, h.3⟩⟩

/-- An event can be built if its draft is consistent. -/
theorem EventDraft.build_ok_iff {d : EventDraft} (hforms : ∀ f ∈ d.interaction.forms, ¬ f.ListsNone) :
    Succeeds d.build ↔ d.Consistent := by
  have hbuild : Succeeds d.build ↔ _ ∧ _ :=
    Succeeds.bind_iff_and fun _ _ => Succeeds.bind_iff_and fun _ _ =>
      Succeeds.bind_iff_and fun _ _ => Succeeds.bind_iff_and fun _ _ =>
        Succeeds.bind_iff_and fun _ _ => iff_true_intro (.ok _)
  rw [hbuild, InteractionDraft.build_ok_iff hforms, SchemaDraft.buildOptional_ok_iff,
    SchemaDraft.buildOptional_ok_iff, SchemaDraft.buildOptional_ok_iff, SchemaDraft.buildOptional_ok_iff,
    and_true]
  exact ⟨fun ⟨h1, h2, h3, h4, h5⟩ => ⟨h1, h2, h3, h4, h5⟩, fun h => ⟨h.1, h.2, h.3, h.4, h.5⟩⟩

/-- A built interaction has the forms of its draft. -/
theorem InteractionDraft.forms_of_build {d : InteractionDraft} {i : Interaction} (h : d.build type = .ok i) :
    i.forms = d.forms := by
  obtain ⟨u, -, h⟩ := Succeeds.bind_eq_ok_iff.1 h
  obtain ⟨uriVariables, -, h⟩ := Succeeds.bind_eq_ok_iff.1 h
  cases h
  rfl

/-- A built property has the forms of its draft. -/
theorem PropertyDraft.forms_of_build {d : PropertyDraft} {p : PropertyAffordance} (h : d.build = .ok p) :
    p.interaction.forms = d.interaction.forms := by
  obtain ⟨i, hi, h⟩ := Succeeds.bind_eq_ok_iff.1 h
  obtain ⟨schema, -, h⟩ := Succeeds.bind_eq_ok_iff.1 h
  cases h
  exact InteractionDraft.forms_of_build hi

/-- A built action has the forms of its draft. -/
theorem ActionDraft.forms_of_build {d : ActionDraft} {a : ActionAffordance} (h : d.build = .ok a) :
    a.interaction.forms = d.interaction.forms := by
  obtain ⟨i, hi, h⟩ := Succeeds.bind_eq_ok_iff.1 h
  obtain ⟨input, -, h⟩ := Succeeds.bind_eq_ok_iff.1 h
  obtain ⟨output, -, h⟩ := Succeeds.bind_eq_ok_iff.1 h
  cases h
  exact InteractionDraft.forms_of_build hi

/-- A built event has the forms of its draft. -/
theorem EventDraft.forms_of_build {d : EventDraft} {e : EventAffordance} (h : d.build = .ok e) :
    e.interaction.forms = d.interaction.forms := by
  obtain ⟨i, hi, h⟩ := Succeeds.bind_eq_ok_iff.1 h
  obtain ⟨subscription, -, h⟩ := Succeeds.bind_eq_ok_iff.1 h
  obtain ⟨data, -, h⟩ := Succeeds.bind_eq_ok_iff.1 h
  obtain ⟨dataResponse, -, h⟩ := Succeeds.bind_eq_ok_iff.1 h
  obtain ⟨cancellation, -, h⟩ := Succeeds.bind_eq_ok_iff.1 h
  cases h
  exact InteractionDraft.forms_of_build hi

end

namespace ThingDraft

/-! ## Named entries -/

section

variable {α β : Type} {build : α → Except DraftError β} {duplicate : String → DraftError}

/-- Names that differ from each other and from those that are there. -/
def FreshNames (d : Dict β) (names : List String) : Prop :=
  names.Nodup ∧ ∀ name ∈ names, d.contains name = false

theorem freshNames_nil_iff {names : List String} : FreshNames ([] : Dict β) names ↔ names.Nodup :=
  and_iff_left fun _ _ => rfl

/-- Names are new if the first one is, and the others are after it was added. -/
theorem freshNames_cons_iff {d : Dict β} {name : String} {y : β} {names : List String} :
    FreshNames d (name :: names) ↔ d.contains name = false ∧ FreshNames (d.insert name y) names := by
  simp only [FreshNames, List.nodup_cons, List.forall_mem_cons, Dict.contains_insert,
    Bool.or_eq_false_iff, decide_eq_false_iff_not]
  constructor
  · rintro ⟨⟨hname, hnodup⟩, hfresh, hnames⟩
    exact ⟨hfresh, hnodup, fun n hn => ⟨fun h => hname (h ▸ hn), hnames n hn⟩⟩
  · rintro ⟨hfresh, hnodup, hnames⟩
    exact ⟨⟨fun hname => (hnames name hname).1 rfl, hnodup⟩, hfresh, fun n hn => (hnames n hn).2⟩

/-- Entries can be collected if each of them can be built and their names are fresh. -/
theorem collect_ok_iff {d : Dict β} {entries : List (String × α)} :
    Succeeds (collect build duplicate d entries) ↔
      (∀ e ∈ entries, Succeeds (build e.2)) ∧ FreshNames d (entries.map Prod.fst) := by
  induction entries generalizing d with
  | nil => simp [collect, FreshNames]
  | cons e rest ih =>
    obtain ⟨name, x⟩ := e
    -- An entry is built before its name is looked at, and its name is taken from then on.
    rw [collect, List.forall_mem_cons, List.map_cons]
    cases hx : build x with
    | error fault => exact iff_of_false (Succeeds.not_error fault) fun h => Succeeds.not_error fault h.1.1
    | ok y =>
      rw [freshNames_cons_iff (y := y)]
      by_cases hname : d.contains name = true
      · simp [hname]
      · simp [hname, ih]

/-- Entries can be collected if what they say is consistent and no name is repeated. -/
theorem collect_nil_ok_iff {entries : List (String × α)} {Consistent : α → Prop}
    (h : ∀ e ∈ entries, Succeeds (build e.2) ↔ Consistent e.2) :
    Succeeds (collect build duplicate [] entries) ↔
      (∀ e ∈ entries, Consistent e.2) ∧ (entries.map Prod.fst).Nodup := by
  rw [collect_ok_iff, freshNames_nil_iff]
  exact and_congr_left' (forall_congr' fun e => forall_congr' (h e))

/-- What is collected is what was built, under the names of the entries. -/
theorem mem_collect_iff {d r : Dict β} {entries : List (String × α)}
    (h : collect build duplicate d entries = .ok r) {p : String × β} :
    p ∈ r ↔ p ∈ d ∨ ∃ e ∈ entries, e.1 = p.1 ∧ build e.2 = .ok p.2 := by
  induction entries generalizing d with
  | nil =>
    cases h
    simp
  | cons e rest ih =>
    obtain ⟨name, x⟩ := e
    rw [collect] at h
    split at h
    · cases h
    next y hy =>
    split at h
    · cases h
    next hname =>
    -- The name is new, so inserting under it displaces nothing.
    rw [ih h, Dict.mem_insert_iff (Bool.eq_false_iff.2 hname)]
    constructor
    · rintro ((rfl | hp) | ⟨e, he, hbuilt⟩)
      · exact .inr ⟨(name, x), List.mem_cons_self .., rfl, hy⟩
      · exact .inl hp
      · exact .inr ⟨e, List.mem_cons_of_mem _ he, hbuilt⟩
    · rintro (hp | ⟨e, he, hbuilt⟩)
      · exact .inl (.inr hp)
      rcases List.mem_cons.1 he with rfl | he
      · refine .inl (.inl (Prod.ext hbuilt.1.symm ?_))
        rw [hy] at hbuilt
        exact (Except.ok.inj hbuilt.2).symm
      · exact .inr ⟨e, he, hbuilt⟩

/-- The forms in what was collected are those of the entries. -/
theorem exists_forms_collect_iff {r : Dict β} {entries : List (String × α)}
    (h : collect build duplicate [] entries = .ok r) {forms : α → List Form} {built : β → List Form}
    (hforms : ∀ {x y}, build x = .ok y → built y = forms x) {f : Form} :
    (∃ y ∈ Dict.values r, f ∈ built y) ↔ ∃ e ∈ entries, f ∈ forms e.2 := by
  constructor
  · rintro ⟨y, hy, hf⟩
    obtain ⟨p, hp, rfl⟩ := List.mem_map.1 hy
    rcases (mem_collect_iff h).1 hp with hp | ⟨e, he, -, hbuilt⟩
    · cases hp
    · exact ⟨e, he, hforms hbuilt ▸ hf⟩
  · rintro ⟨e, he, hf⟩
    obtain ⟨y, hy⟩ := (collect_ok_iff.1 ⟨r, h⟩).1 e he
    have hmem : (e.1, y) ∈ r := (mem_collect_iff h).2 (.inr ⟨e, he, rfl, hy⟩)
    exact ⟨y, List.mem_map.2 ⟨_, hmem, rfl⟩, (hforms hy).symm ▸ hf⟩

end

/-! ## The vocabulary -/

/-- Prefixes can be bound if each of them names an IRI. -/
theorem foldlM_insertPrefix?_isSome_iff {prefixes : List (String × String)} {c : Context} :
    (prefixes.foldlM (fun (c : Context) p => c.insertPrefix? p.1 p.2) c).isSome = true ↔
      ∀ p ∈ prefixes, p.2 ≠ "" := by
  induction prefixes generalizing c with
  | nil => exact iff_of_true rfl (List.forall_mem_nil _)
  | cons p rest ih =>
    rw [List.foldlM_cons, List.forall_mem_cons]
    -- The first empty IRI ends the fold.
    by_cases hp : p.2 = ""
    · have hstep : c.insertPrefix? p.1 p.2 = none := by
        rw [Context.insertPrefix?, Iri.of?, dif_neg (not_not_intro hp), Option.map_none]
      rw [hstep, Option.bind_eq_bind, Option.bind_none]
      exact iff_of_false (fun h => by cases h) fun h => h.1 hp
    · have hstep : c.insertPrefix? p.1 p.2 =
          some { c with named := c.named.insert p.1 (.iri ⟨p.2, hp⟩) } := by
        rw [Context.insertPrefix?, Iri.of?, dif_pos hp, Option.map_some]
      rw [hstep, Option.bind_eq_bind, Option.bind_some, ih]
      exact (and_iff_right hp).symm

/-- The vocabulary can be built if no IRI in it is empty. -/
theorem buildContext_ok_iff {d : ThingDraft} :
    Succeeds d.buildContext ↔ (∀ iri ∈ d.context, iri ≠ "") ∧ ∀ p ∈ d.prefixes, p.2 ≠ "" := by
  cases hcontext : d.context with
  | none =>
    have hnone : ∀ iri ∈ (none : Option String), iri ≠ "" := fun _ h => by cases h
    rw [and_iff_right hnone, ← foldlM_insertPrefix?_isSome_iff (c := .standard), buildContext, hcontext]
    split
    · next c hc => exact iff_of_true (.ok c) (Option.isSome_of_eq_some hc)
    · next hc => exact iff_of_false (Succeeds.not_error _) fun h => Option.isSome_iff_ne_none.1 h hc
  | some iri =>
    by_cases hiri : iri = ""
    · simp [buildContext, hcontext, Context.ofIri?, Iri.of?, hiri]
    have hsome : ∀ i ∈ some iri, i ≠ "" := by simpa using hiri
    have hdefault : Context.ofIri? iri = some ⟨some (.iri ⟨iri, hiri⟩), []⟩ := by
      rw [Context.ofIri?, Iri.of?, dif_pos hiri, Option.map_some]
    rw [and_iff_right hsome, ← foldlM_insertPrefix?_isSome_iff (c := ⟨some (.iri ⟨iri, hiri⟩), []⟩),
      buildContext, hcontext]
    simp only [hdefault]
    split
    · next c hc => exact iff_of_true (.ok c) (Option.isSome_of_eq_some hc)
    · next hc => exact iff_of_false (Succeeds.not_error _) fun h => Option.isSome_iff_ne_none.1 h hc

/-! ## Security -/

/-- The draft has a security definition of a name. -/
def Defines (d : ThingDraft) (name : String) : Prop := name ∈ d.securityDefinitions.map Prod.fst

/-- Names of schemes pass the check if each of them is defined. -/
theorem checkSecurity_ok_iff {definitions : Dict SecurityScheme} {names : List String} :
    Succeeds (checkSecurity definitions names) ↔ ∀ name ∈ names, definitions.contains name = true := by
  have hfind : names.find? (fun name => !definitions.contains name) = none ↔
      ∀ name ∈ names, definitions.contains name = true := by
    simp [List.find?_eq_none]
  rw [← hfind, checkSecurity]
  cases names.find? fun name => !definitions.contains name <;> simp

/-- What was collected without building has the names of the entries. -/
theorem contains_of_collect {β : Type} {duplicate : String → DraftError} {entries : List (String × β)}
    {r : Dict β} (h : collect .ok duplicate [] entries = .ok r) {name : String} :
    r.contains name = true ↔ name ∈ entries.map Prod.fst := by
  rw [Dict.contains_iff, List.mem_map]
  constructor
  · rintro ⟨v, hv⟩
    obtain hv | ⟨e, he, hname, -⟩ := (mem_collect_iff h).1 hv
    · cases hv
    · exact ⟨e, he, hname⟩
  · rintro ⟨e, he, rfl⟩
    exact ⟨e.2, (mem_collect_iff h).2 (.inr ⟨e, he, rfl, rfl⟩)⟩

/-- Definitions can be collected if no name is repeated. -/
theorem collect_definitions_ok_iff {d : ThingDraft} :
    Succeeds (collect .ok .duplicateSecurityDefinition [] d.securityDefinitions) ↔
      (d.securityDefinitions.map Prod.fst).Nodup :=
  collect_eq_ok_iff.trans (and_iff_left fun _ _ => rfl)

/-- Once the definitions are collected, a list of names is right if the draft defines all of them. -/
theorem checkSecurity_defines_iff {d : ThingDraft} {definitions : Dict SecurityScheme}
    (h : collect .ok .duplicateSecurityDefinition [] d.securityDefinitions = .ok definitions)
    {names : List String} : Succeeds (checkSecurity definitions names) ↔ ∀ name ∈ names, d.Defines name := by
  rw [checkSecurity_ok_iff]
  exact forall_congr' fun name => forall_congr' fun _ => contains_of_collect h

/-! ## Things -/

/-- The forms of all affordances of the draft. -/
def affordanceForms (d : ThingDraft) : List Form :=
  d.properties.flatMap (·.2.interaction.forms) ++ d.actions.flatMap (·.2.interaction.forms) ++
    d.events.flatMap (·.2.interaction.forms)

/-- The forms of affordances are those of properties, actions and events. -/
theorem mem_affordanceForms_iff {d : ThingDraft} {f : Form} :
    f ∈ d.affordanceForms ↔ (∃ e ∈ d.properties, f ∈ e.2.interaction.forms) ∨
      (∃ e ∈ d.actions, f ∈ e.2.interaction.forms) ∨ ∃ e ∈ d.events, f ∈ e.2.interaction.forms := by
  simp only [affordanceForms, List.mem_append, List.mem_flatMap, or_assoc]

/-- What a draft says, and what its forms, affordances and schemas say, is consistent. -/
structure Consistent (d : ThingDraft) : Prop where
  context : ∀ iri ∈ d.context, iri ≠ ""
  prefixes : ∀ p ∈ d.prefixes, p.2 ≠ ""
  definitionNames : (d.securityDefinitions.map Prod.fst).Nodup
  security : ∀ name ∈ d.security, d.Defines name
  formSecurity : ∀ f ∈ d.forms ++ d.affordanceForms, ∀ names ∈ f.security, ∀ name ∈ names, d.Defines name
  operations : ∀ f ∈ d.forms, ∃ ops, f.op = .only ops ∧ ops ≠ [] ∧ ∀ op ∈ ops, op.isThingLevel = true
  uriVariables : ∀ e ∈ d.uriVariables, e.2.IsVariable
  propertyNames : (d.properties.map Prod.fst).Nodup
  actionNames : (d.actions.map Prod.fst).Nodup
  eventNames : (d.events.map Prod.fst).Nodup
  properties : ∀ e ∈ d.properties, e.2.Consistent
  actions : ∀ e ∈ d.actions, e.2.Consistent
  events : ∀ e ∈ d.events, e.2.Consistent

/-- The forms of a thing pass the check if they list operations on things. -/
theorem checkForms_thing_ok_iff {forms : List Form} :
    Succeeds (FormPlace.thing.checkForms forms) ↔
      ∀ f ∈ forms, ∃ ops, f.op = .only ops ∧ ops ≠ [] ∧ ∀ op ∈ ops, op.isThingLevel = true := by
  rw [FormPlace.checkForms_ok_iff]
  refine forall_congr' fun f => forall_congr' fun _ => (FormPlace.formFault?_eq_none_iff ..).trans ?_
  exact or_iff_right fun h => h.2 rfl

section

variable {d : ThingDraft} {properties : Dict PropertyAffordance} {actions : Dict ActionAffordance}
  {events : Dict EventAffordance}

/-- The forms that are looked at last are all those of the draft. -/
theorem mem_allForms_iff
    (hproperties :
      collect PropertyDraft.build (.duplicateAffordance .property) [] d.properties = .ok properties)
    (hactions : collect ActionDraft.build (.duplicateAffordance .action) [] d.actions = .ok actions)
    (hevents : collect EventDraft.build (.duplicateAffordance .event) [] d.events = .ok events) {f : Form} :
    f ∈ allForms d.forms ((Dict.values properties).map (·.interaction) ++
        (Dict.values actions).map (·.interaction) ++ (Dict.values events).map (·.interaction)) ↔
      f ∈ d.forms ++ d.affordanceForms := by
  have hp := exists_forms_collect_iff hproperties PropertyDraft.forms_of_build (f := f)
  have ha := exists_forms_collect_iff hactions ActionDraft.forms_of_build (f := f)
  have he := exists_forms_collect_iff hevents EventDraft.forms_of_build (f := f)
  simp only [allForms, mem_affordanceForms_iff, List.mem_append, List.mem_flatMap, List.flatMap_append,
    List.flatMap_map, hp, ha, he, or_assoc]

end

/-- A description is built in steps, each of which has to succeed; the security of all forms is looked at
once the definitions and the affordances have been built. -/
theorem build_ok_iff_parts {d : ThingDraft} : Succeeds d.build ↔
    Succeeds d.buildContext ∧
    Succeeds (collect .ok .duplicateSecurityDefinition [] d.securityDefinitions) ∧
    (∀ name ∈ d.security, d.Defines name) ∧
    Succeeds (FormPlace.thing.checkForms d.forms) ∧
    Succeeds (SchemaDraft.buildVariables d.uriVariables) ∧
    Succeeds (collect PropertyDraft.build (.duplicateAffordance .property) [] d.properties) ∧
    Succeeds (collect ActionDraft.build (.duplicateAffordance .action) [] d.actions) ∧
    Succeeds (collect EventDraft.build (.duplicateAffordance .event) [] d.events) ∧
    ∀ f ∈ d.forms ++ d.affordanceForms, ∀ names ∈ f.security, ∀ name ∈ names, d.Defines name := by
  -- Later steps look at the definitions and the affordances that were collected; all others only have
  -- to succeed.
  refine Succeeds.bind_iff_and fun _ _ => Succeeds.bind_iff_and fun definitions hdefinitions => ?_
  rw [← checkSecurity_defines_iff hdefinitions]
  refine Succeeds.bind_iff_and fun _ _ => Succeeds.bind_iff_and fun _ _ => Succeeds.bind_iff_and fun _ _ =>
    Succeeds.bind_iff_and fun properties hproperties => Succeeds.bind_iff_and fun actions hactions =>
      Succeeds.bind_iff_and fun events hevents => ?_
  have hchecked : ∀ f : Form, Succeeds (checkSecurity definitions (f.security.getD [])) ↔
      ∀ names ∈ f.security, ∀ name ∈ names, d.Defines name := by
    intro f
    rw [checkSecurity_defines_iff hdefinitions]
    cases f.security <;> simp
  refine (Succeeds.bind_iff_and fun _ _ => iff_true_intro (.ok _)).trans ?_
  rw [and_true, Succeeds.forM_iff]
  exact forall_congr' fun f =>
    imp_congr (mem_allForms_iff hproperties hactions hevents) (hchecked f)

/-- A description can be built exactly if it is consistent. -/
theorem build_ok_iff {d : ThingDraft} (hforms : ∀ f ∈ d.affordanceForms, ¬ f.ListsNone) :
    Succeeds d.build ↔ d.Consistent := by
  have hproperties :
      Succeeds (collect PropertyDraft.build (.duplicateAffordance .property) [] d.properties) ↔ _ :=
    collect_nil_ok_iff fun e he => PropertyDraft.build_ok_iff fun f hf =>
      hforms f (mem_affordanceForms_iff.2 (.inl ⟨e, he, hf⟩))
  have hactions : Succeeds (collect ActionDraft.build (.duplicateAffordance .action) [] d.actions) ↔ _ :=
    collect_nil_ok_iff fun e he => ActionDraft.build_ok_iff fun f hf =>
      hforms f (mem_affordanceForms_iff.2 (.inr (.inl ⟨e, he, hf⟩)))
  have hevents : Succeeds (collect EventDraft.build (.duplicateAffordance .event) [] d.events) ↔ _ :=
    collect_nil_ok_iff fun e he => EventDraft.build_ok_iff fun f hf =>
      hforms f (mem_affordanceForms_iff.2 (.inr (.inr ⟨e, he, hf⟩)))
  rw [build_ok_iff_parts, buildContext_ok_iff, collect_definitions_ok_iff, checkForms_thing_ok_iff,
    SchemaDraft.buildVariables_ok_iff, hproperties, hactions, hevents]
  constructor
  · rintro ⟨⟨hcontext, hprefixes⟩, hnames, hsecurity, hoperations, hvariables, ⟨hps, hpnames⟩, ⟨has, hanames⟩,
      ⟨hes, henames⟩, hformSecurity⟩
    exact ⟨hcontext, hprefixes, hnames, hsecurity, hformSecurity, hoperations, hvariables, hpnames, hanames,
      henames, hps, has, hes⟩
  · intro h
    exact ⟨⟨h.context, h.prefixes⟩, h.definitionNames, h.security, h.operations, h.uriVariables,
      ⟨h.properties, h.propertyNames⟩, ⟨h.actions, h.actionNames⟩, ⟨h.events, h.eventNames⟩, h.formSecurity⟩

end ThingDraft
end WebOfThings
