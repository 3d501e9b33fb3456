import WebOfThings.Proofs.Description.Writable
import WebOfThings.Proofs.Draft.Tidy

/-!
# Built descriptions that read back

What is built from a tidy draft has all that reading keeps true of a description, except for what cannot be
written (`ThingDraft.wellFormed_of_build`): schemas by induction over the built schema, everything else part
after part. No form in it has an empty list of operations, so it is not changed by being read once more.

A built schema is what its draft says with the schemas of its parts, so the induction is over the draft and
follows `build`: at each level there is what the level says and what holds of the parts (`eq_of_build`). The
condition is on the built description, and it is exact: where it fails, something is missing or different in
what is read. `loses_unwritable` shows one description for each way of losing something. The points in time
of a script are those that RFC 3339 can write; any others would fail to be exported.

Main statement: `ThingDraft.export_of_script` (what a script is built into is read as it was written exactly
if it can be written).
-/

namespace WebOfThings

open Json

/-! ## Schemas -/

namespace SchemaDraft

/-- Built parts are built from the parts of the draft. -/
theorem exists_draft_of_buildParts {parts : List (PartRole × SchemaDraft)}
    {built : List (PartRole × DataSchema)} (h : buildParts parts = .ok built) :
    ∀ b ∈ built, ∃ p ∈ parts, p.2.build = .ok b.2 := by
  induction parts generalizing built with
  | nil =>
    rw [buildParts] at h
    cases h
    exact List.forall_mem_nil _
  | cons p rest ih =>
    obtain ⟨role, d⟩ := p
    rw [buildParts] at h
    split at h
    · cases h
    next s hs =>
    split at h
    · cases h
    next others hothers =>
    cases h
    refine List.forall_mem_cons.2 ⟨⟨(role, d), List.mem_cons_self .., hs⟩, fun b hb => ?_⟩
    obtain ⟨p, hp, hbuilt⟩ := ih hothers b hb
    exact ⟨p, List.mem_cons_of_mem _ hp, hbuilt⟩

/-- A schema is what its draft says, with its built parts. -/
theorem eq_of_build {d : SchemaDraft} {s : DataSchema} (h : d.build = .ok s) :
    ∃ built, buildParts d.parts = .ok built ∧
      s = { labels := d.labels, constant := d.constant, default := d.default, unit := d.unit,
            oneOf := inRole .alternative built, enumeration := d.enumeration, readOnly := d.readOnly,
            writeOnly := d.writeOnly, format := d.format, kind := builtKind built d.kind } := by
  obtain ⟨labels, constant, default, unit, enumeration, readOnly, writeOnly, format, kind, parts⟩ := d
  rw [build] at h
  split at h
  · cases h
  next built hbuilt =>
  split at h
  · cases h
  · cases h
    exact ⟨built, hbuilt, rfl⟩

/-- The schemas in a role are schemas of parts. -/
theorem mem_of_mem_inRole {role : PartRole} {built : List (PartRole × DataSchema)} {p : DataSchema}
    (h : p ∈ (inRole role built).getD []) : ∃ b ∈ built, b.2 = p := by
  simp only [inRole] at h
  split at h
  · cases h
  · obtain ⟨b, hb, rfl⟩ := List.mem_map.1 h
    exact ⟨b, (List.mem_filter.1 hb).1, rfl⟩

/-- The schemas of members are among the built parts. -/
theorem mem_of_mem_properties {built : List (PartRole × DataSchema)} {p : DataSchema}
    (h : p ∈ Dict.values (properties built)) : ∃ b ∈ built, b.2 = p := by
  obtain ⟨e, he, rfl⟩ := List.mem_map.1 h
  obtain ⟨b, hb, hp⟩ := List.mem_filterMap.1 (Dict.mem_of_mem_ofList he)
  split at hp
  · cases hp
    exact ⟨_, hb, rfl⟩
  · cases hp

/-- The parts of a built schema were built from the parts of the draft. -/
theorem exists_draft_of_mem_parts {d : SchemaDraft} {s p : DataSchema} (h : d.build = .ok s)
    (hp : p ∈ s.parts) : ∃ q ∈ d.parts, q.2.build = .ok p := by
  obtain ⟨built, hbuilt, rfl⟩ := eq_of_build h
  have hmem : ∃ b ∈ built, b.2 = p := by
    rcases List.mem_append.1 hp with hp | hp
    · exact mem_of_mem_inRole hp
    · cases hkind : d.kind with
      | array minItems maxItems =>
        simp only [hkind, builtKind] at hp
        exact mem_of_mem_inRole hp
      | object =>
        simp only [hkind, builtKind] at hp
        exact mem_of_mem_properties hp
      | _ =>
        simp only [hkind, builtKind] at hp
        cases hp
  obtain ⟨b, hb, rfl⟩ := hmem
  exact exists_draft_of_buildParts hbuilt b hb

/-- What is built from a tidy draft is well-formed at its level if it can be written there. -/
theorem levelWellFormed_of_build {d : SchemaDraft} {s : DataSchema} (hd : d.LevelTidy) (h : d.build = .ok s)
    (hs : s.LevelWritable) : s.LevelWellFormed := by
  obtain ⟨built, -, rfl⟩ := eq_of_build h
  refine ⟨hd.labels, fun v hv => ⟨hd.constant v hv, ?_⟩, fun v hv => ⟨hd.default v hv, ?_⟩, hd.enumeration,
    hs.bounds, fun members required hkind => ?_⟩
  · rintro rfl
    exact hs.constant hv
  · rintro rfl
    exact hs.default hv
  · cases hd : d.kind with
    | object =>
      simp only [hd, builtKind, Option.some.injEq, SchemaKind.object.injEq] at hkind
      rw [← hkind.1]
      exact Dict.sorted_ofList _
    | _ => simp [hd, builtKind] at hkind

/-- A schema built from a tidy draft is well-formed if it can be written. -/
theorem wellFormed_of_build {d : SchemaDraft} {s : DataSchema} (hd : d.Tidy) (h : d.build = .ok s)
    (hs : s.Writable) : s.WellFormed := by
  induction hs generalizing d with
  | intro level parts ih =>
    refine .intro (levelWellFormed_of_build hd.level h level) fun p hp => ?_
    obtain ⟨q, hq, hbuilt⟩ := exists_draft_of_mem_parts h hp
    exact ih p hp ((tidy_iff.1 hd).1 q hq) hbuilt

/-- A schema that may be missing is well-formed if it is built from a tidy draft and can be written. -/
theorem wellFormed_of_buildOptional {d : Option SchemaDraft} {s : Option DataSchema}
    (hd : ∀ x, d = some x → x.Tidy) (h : buildOptional d = .ok s) (hs : ∀ y ∈ s.toList, y.Writable) :
    ∀ y, s = some y → y.WellFormed := by
  rintro y rfl
  cases d with
  | none => cases h
  | some d =>
    rw [buildOptional] at h
    cases hbuild : d.build with
    | error e =>
      rw [hbuild] at h
      cases h
    | ok s =>
      rw [hbuild] at h
      cases h
      exact wellFormed_of_build (hd d rfl) hbuild (hs _ (List.mem_singleton_self _))

/-- A variable is built as its schema is. -/
theorem build_of_buildVariable {entry : String × SchemaDraft} {e : String × DataSchema}
    (h : buildVariable entry = .ok e) : entry.2.build = .ok e.2 := by
  obtain ⟨s, hs, h⟩ := Succeeds.bind_eq_ok_iff.1 h
  split at h
  · split at h
    · cases h
    · cases h
      exact hs
  · cases h
    exact hs

/-- Variables are well-formed if they are built from tidy drafts and can be written. -/
theorem wellFormed_of_buildVariables {entries : List (String × SchemaDraft)} {schemas : Dict DataSchema}
    (hd : ∀ e ∈ entries, e.2.Tidy) (h : buildVariables entries = .ok schemas)
    (hs : ∀ s ∈ Dict.values schemas, s.Writable) :
    Dict.Sorted schemas ∧ ∀ e ∈ schemas, e.2.WellFormed := by
  rw [buildVariables] at h
  cases hbuilt : entries.mapM buildVariable with
  | error e =>
    rw [hbuilt] at h
    cases h
  | ok built =>
    rw [hbuilt] at h
    cases h
    refine ⟨Dict.sorted_ofList _, fun e he => ?_⟩
    obtain ⟨entry, hentry, hread⟩ := Succeeds.exists_of_mapM hbuilt e (Dict.mem_of_mem_ofList he)
    exact wellFormed_of_build (hd entry hentry) (build_of_buildVariable hread)
      (hs e.2 (List.mem_map_of_mem he))

end SchemaDraft

/-- Taking the labels of a schema away changes nothing but its labels. -/
theorem DataSchema.WellFormed.unlabelled {s : DataSchema} (h : s.WellFormed) :
    WellFormed { s with labels := {} } := by
  cases h with
  | intro level parts => exact .intro { level with labels := Labels.wellFormed_empty } parts

/-- Labels do not matter to whether a schema can be written. -/
theorem DataSchema.Writable.of_unlabelled {s : DataSchema} (h : Writable { s with labels := {} }) :
    s.Writable := by
  cases h with
  | intro level parts => exact .intro ⟨level.constant, level.default, level.bounds⟩ parts

/-! ## Affordances -/

/-- What is built from a tidy draft of an interaction is well-formed if its schemas can be written. -/
theorem InteractionDraft.wellFormed_of_build {d : InteractionDraft} {type : AffordanceType} {i : Interaction}
    (hd : d.Tidy) (h : d.build type = .ok i) (hi : ∀ s ∈ i.schemas, s.Writable) : i.WellFormed := by
  obtain ⟨u, -, h⟩ := Succeeds.bind_eq_ok_iff.1 h
  obtain ⟨uriVariables, hvariables, h⟩ := Succeeds.bind_eq_ok_iff.1 h
  cases h
  obtain ⟨hsorted, hwell⟩ := SchemaDraft.wellFormed_of_buildVariables hd.uriVariables hvariables hi
  exact ⟨hd.labels, hsorted, hwell⟩

/-- The labels of a built property are not those of its schema. -/
theorem PropertyDraft.unlabelled_of_build {d : PropertyDraft} {p : PropertyAffordance} (h : d.build = .ok p) :
    p.schema.labels = {} := by
  obtain ⟨i, -, h⟩ := Succeeds.bind_eq_ok_iff.1 h
  obtain ⟨schema, -, h⟩ := Succeeds.bind_eq_ok_iff.1 h
  cases h
  rfl

/-- What is built from a tidy draft of a property is well-formed if its schemas can be written. -/
theorem PropertyDraft.wellFormed_of_build {d : PropertyDraft} {p : PropertyAffordance} (hd : d.Tidy)
    (h : d.build = .ok p) (hp : ∀ s ∈ p.schemas, s.Writable) : p.WellFormed := by
  have hunlabelled := unlabelled_of_build h
  obtain ⟨i, hi, h⟩ := Succeeds.bind_eq_ok_iff.1 h
  obtain ⟨schema, hschema, h⟩ := Succeeds.bind_eq_ok_iff.1 h
  cases h
  obtain ⟨hwritable, hvariables⟩ := List.forall_mem_cons.1 hp
  refine ⟨InteractionDraft.wellFormed_of_build hd.interaction hi hvariables, ?_, hunlabelled⟩
  cases schema with
  | none => exact .intro ⟨Labels.wellFormed_empty, nofun, nofun, nofun, nofun, nofun⟩ (List.forall_mem_nil _)
  | some s =>
    have hs : ∀ y ∈ (some s).toList, y.Writable := List.forall_mem_singleton.2 hwritable.of_unlabelled
    exact (SchemaDraft.wellFormed_of_buildOptional hd.schema hschema hs s rfl).unlabelled

/-- What is built from a tidy draft of an action is well-formed if its schemas can be written. -/
theorem ActionDraft.wellFormed_of_build {d : ActionDraft} {a : ActionAffordance} (hd : d.Tidy)
    (h : d.build = .ok a) (ha : ∀ s ∈ a.schemas, s.Writable) : a.WellFormed := by
  obtain ⟨i, hi, h⟩ := Succeeds.bind_eq_ok_iff.1 h
  obtain ⟨input, hinput, h⟩ := Succeeds.bind_eq_ok_iff.1 h
  obtain ⟨output, houtput, h⟩ := Succeeds.bind_eq_ok_iff.1 h
  cases h
  simp only [ActionAffordance.schemas, List.forall_mem_append] at ha
  exact ⟨InteractionDraft.wellFormed_of_build hd.interaction hi ha.2,
    SchemaDraft.wellFormed_of_buildOptional hd.input hinput ha.1.1,
    SchemaDraft.wellFormed_of_buildOptional hd.output houtput ha.1.2⟩

/-- What is built from a tidy draft of an event is well-formed if its schemas can be written. -/
theorem EventDraft.wellFormed_of_build {d : EventDraft} {e : EventAffordance} (hd : d.Tidy)
    (h : d.build = .ok e) (he : ∀ s ∈ e.schemas, s.Writable) : e.WellFormed := by
  obtain ⟨i, hi, h⟩ := Succeeds.bind_eq_ok_iff.1 h
  obtain ⟨subscription, hsubscription, h⟩ := Succeeds.bind_eq_ok_iff.1 h
  obtain ⟨data, hdata, h⟩ := Succeeds.bind_eq_ok_iff.1 h
  obtain ⟨dataResponse, hdataResponse, h⟩ := Succeeds.bind_eq_ok_iff.1 h
  obtain ⟨cancellation, hcancellation, h⟩ := Succeeds.bind_eq_ok_iff.1 h
  cases h
  simp only [EventAffordance.schemas, List.forall_mem_append] at he
  obtain ⟨⟨⟨⟨h1, h2⟩, h3⟩, h4⟩, hvariables⟩ := he
  exact ⟨InteractionDraft.wellFormed_of_build hd.interaction hi hvariables,
    SchemaDraft.wellFormed_of_buildOptional hd.subscription hsubscription h1,
    SchemaDraft.wellFormed_of_buildOptional hd.data hdata h2,
    SchemaDraft.wellFormed_of_buildOptional hd.dataResponse hdataResponse h3,
    SchemaDraft.wellFormed_of_buildOptional hd.cancellation hcancellation h4⟩

/-! ## Vocabularies -/

namespace Context

/-- A vocabulary of IRIs only: the default one, and those of the names in order. -/
structure NamesIris (c : Context) : Prop where
  default : ∃ i, c.default = some (.iri i)
  sorted : c.named.Sorted
  named : ∀ e ∈ c.named, ∃ i, e.2 = .iri i

theorem namesIris_iri (i : Iri) : NamesIris ⟨some (.iri i), []⟩ :=
  ⟨⟨i, rfl⟩, Dict.sorted_nil, List.forall_mem_nil _⟩

/-- Another prefix names an IRI. -/
theorem NamesIris.insertPrefix? {c c' : Context} (hc : c.NamesIris) {name iri : String}
    (h : c.insertPrefix? name iri = some c') : c'.NamesIris := by
  obtain ⟨i, -, rfl⟩ := Option.map_eq_some_iff.1 h
  refine ⟨hc.default, hc.sorted.insert _ _, fun e he => ?_⟩
  rcases Dict.mem_insert he with rfl | he
  · exact ⟨i, rfl⟩
  · exact hc.named e he

/-- Other prefixes name IRIs. -/
theorem NamesIris.insertPrefixes {prefixes : List (String × String)} {c c' : Context} (hc : c.NamesIris)
    (h : prefixes.foldlM (fun (c : Context) p => c.insertPrefix? p.1 p.2) c = some c') : c'.NamesIris := by
  induction prefixes generalizing c with
  | nil =>
    cases h
    exact hc
  | cons p rest ih =>
    rw [List.foldlM_cons] at h
    obtain ⟨next, hnext, hrest⟩ := Option.bind_eq_some_iff.1 h
    exact ih (hc.insertPrefix? hnext) hrest

/-- A context that names IRIs, and no keyword, is well-formed. -/
theorem NamesIris.wellFormed {c : Context} (hc : c.NamesIris) (hplain : c.PlainNames) : c.WellFormed where
  default := by
    obtain ⟨i, hi⟩ := hc.default
    exact ⟨some i, [], others_nil, List.forall_mem_nil _, hi⟩
  sorted := hc.sorted
  names := hplain
  terms := by
    intro e he iri others hentry
    obtain ⟨i, hi⟩ := hc.named e he
    rw [hi] at hentry
    cases hentry

end Context

/-! ## Things -/

namespace ThingDraft

/-- A built context names IRIs. -/
theorem namesIris_of_buildContext {d : ThingDraft} {c : Context} (h : d.buildContext = .ok c) :
    c.NamesIris := by
  unfold buildContext at h
  -- the vocabulary that the prefixes are added to
  split at h
  all_goals
    simp only at h
    split at h
  · next hc =>
    cases h
    obtain ⟨first, hfirst, hprefixes⟩ := Option.bind_eq_some_iff.1 hc
    obtain ⟨i, -, rfl⟩ := Option.map_eq_some_iff.1 hfirst
    exact (Context.namesIris_iri i).insertPrefixes hprefixes
  · cases h
  · next hc =>
    cases h
    obtain ⟨first, hfirst, hprefixes⟩ := Option.bind_eq_some_iff.1 hc
    cases hfirst
    exact (Context.namesIris_iri _).insertPrefixes hprefixes
  · cases h

/-- Collected entries are in order. -/
theorem sorted_collect {α β : Type} {build : α → Except DraftError β} {duplicate : String → DraftError}
    {d r : Dict β} {entries : List (String × α)} (hd : d.Sorted)
    (h : collect build duplicate d entries = .ok r) : r.Sorted := by
  induction entries generalizing d with
  | nil =>
    cases h
    exact hd
  | cons e rest ih =>
    obtain ⟨name, x⟩ := e
    rw [collect] at h
    split at h
    · cases h
    next y _ =>
    split at h
    · cases h
    · exact ih (hd.insert name y) h

/-- What is collected is in order, and was built. -/
theorem forall_of_collect {α β : Type} {build : α → Except DraftError β} {duplicate : String → DraftError}
    {r : Dict β} {entries : List (String × α)} (h : collect build duplicate [] entries = .ok r) {P : β → Prop}
    (hbuild : ∀ e ∈ entries, ∀ y ∈ Dict.values r, build e.2 = .ok y → P y) :
    r.Sorted ∧ ∀ p ∈ r, P p.2 := by
  refine ⟨sorted_collect Dict.sorted_nil h, fun p hp => ?_⟩
  rcases (mem_collect_iff h).1 hp with hnil | ⟨e, he, -, hbuilt⟩
  · cases hnil
  · exact hbuild e he p.2 (List.mem_map_of_mem hp) hbuilt

/-- What the parts of a built description come from. -/
structure BuiltInto (d : ThingDraft) (t : Thing) : Prop where
  context : d.buildContext = .ok t.context
  labels : t.labels = d.labels
  properties : collect PropertyDraft.build (.duplicateAffordance .property) [] d.properties = .ok t.properties
  actions : collect ActionDraft.build (.duplicateAffordance .action) [] d.actions = .ok t.actions
  events : collect EventDraft.build (.duplicateAffordance .event) [] d.events = .ok t.events
  forms : t.forms = d.forms
  checked : Succeeds (FormPlace.thing.checkForms d.forms)
  securityDefinitions :
    collect .ok .duplicateSecurityDefinition [] d.securityDefinitions = .ok t.securityDefinitions
  uriVariables : SchemaDraft.buildVariables d.uriVariables = .ok t.uriVariables
  metadata : t.metadata = d.metadata

/-- What a built description has from its draft. -/
theorem builtInto_of_build {d : ThingDraft} {t : Thing} (h : d.build = .ok t) : d.BuiltInto t := by
  obtain ⟨context, hcontext, h⟩ := Succeeds.bind_eq_ok_iff.1 h
  obtain ⟨definitions, hdefinitions, h⟩ := Succeeds.bind_eq_ok_iff.1 h
  obtain ⟨_, -, h⟩ := Succeeds.bind_eq_ok_iff.1 h
  obtain ⟨u, hforms, h⟩ := Succeeds.bind_eq_ok_iff.1 h
  obtain ⟨uriVariables, hvariables, h⟩ := Succeeds.bind_eq_ok_iff.1 h
  obtain ⟨properties, hproperties, h⟩ := Succeeds.bind_eq_ok_iff.1 h
  obtain ⟨actions, hactions, h⟩ := Succeeds.bind_eq_ok_iff.1 h
  obtain ⟨events, hevents, h⟩ := Succeeds.bind_eq_ok_iff.1 h
  obtain ⟨_, -, h⟩ := Succeeds.bind_eq_ok_iff.1 h
  cases h
  exact ⟨hcontext, rfl, hproperties, hactions, hevents, rfl, ⟨u, hforms⟩, hdefinitions, hvariables, rfl⟩

/-- A description built from a tidy draft is well-formed if it can be written. -/
theorem wellFormed_of_build {d : ThingDraft} {t : Thing} (hd : d.Tidy) (h : d.build = .ok t)
    (ht : t.Writable) : t.WellFormed := by
  have hb := builtInto_of_build h
  obtain ⟨hvariables, hproperties, hactions, hevents⟩ := Thing.forall_schemas_iff.1 ht.schemas
  have hp := forall_of_collect hb.properties fun e he p hp hbuilt =>
    PropertyDraft.wellFormed_of_build (hd.properties e he) hbuilt (hproperties p hp)
  have ha := forall_of_collect hb.actions fun e he a ha hbuilt =>
    ActionDraft.wellFormed_of_build (hd.actions e he) hbuilt (hactions a ha)
  have he := forall_of_collect hb.events fun e he x hx hbuilt =>
    EventDraft.wellFormed_of_build (hd.events e he) hbuilt (hevents x hx)
  have hs := forall_of_collect (P := SecurityScheme.WellFormed) hb.securityDefinitions
    fun e he _ _ hbuilt => Except.ok.inj hbuilt ▸ hd.securityDefinitions e he
  have hv := SchemaDraft.wellFormed_of_buildVariables hd.uriVariables hb.uriVariables hvariables
  exact {
    context := (namesIris_of_buildContext hb.context).wellFormed ht.prefixes
    labels := hb.labels ▸ hd.labels
    sortedProperties := hp.1
    properties := hp.2
    sortedActions := ha.1
    actions := ha.2
    sortedEvents := he.1
    events := he.2
    sortedDefinitions := hs.1
    securityDefinitions := hs.2
    sortedVariables := hv.1
    uriVariables := hv.2
    sortedMetadata := hb.metadata ▸ hd.sortedMetadata
    metadata := hb.metadata ▸ hd.metadata
    unknown := ht.metadata }

end ThingDraft

/-! ## Forms -/

/-- A form that does not list nothing is not changed by being read once more. -/
theorem Form.reread_eq_self {f : Form} (h : ¬ f.ListsNone) : f.reread = f := by
  have hop : f.op.reread = f.op := by
    unfold FormOperations.reread
    split
    · next hnone => exact absurd hnone h
    · rfl
  rw [Form.reread, hop]

/-- Neither are such forms. -/
theorem Form.map_reread_eq_self {forms : List Form} (h : ∀ f ∈ forms, ¬ f.ListsNone) :
    forms.map Form.reread = forms :=
  (List.map_congr_left fun f hf => Form.reread_eq_self (h f hf)).trans (List.map_id' forms)

theorem Interaction.reread_eq_self {i : Interaction} (h : ∀ f ∈ i.forms, ¬ f.ListsNone) : i.reread = i := by
  rw [Interaction.reread, Form.map_reread_eq_self h]

namespace ThingDraft

/-- A built description without empty lists of operations is left as it is. -/
theorem reread_of_build {d : ThingDraft} {t : Thing} (hforms : ∀ f ∈ d.affordanceForms, ¬ f.ListsNone)
    (h : d.build = .ok t) : t.reread = t := by
  have hb := builtInto_of_build h
  have hthing : t.forms.map Form.reread = t.forms := by
    refine Form.map_reread_eq_self fun f hf hnone => ?_
    obtain ⟨ops, hops, hne, -⟩ := checkForms_thing_ok_iff.1 hb.checked f (hb.forms ▸ hf)
    exact hne (FormOperations.only.inj (hops.symm.trans hnone))
  have hproperties : Dict.mapValues PropertyAffordance.reread t.properties = t.properties := by
    refine Dict.mapValues_eq_self (forall_of_collect (P := fun p => p.reread = p) hb.properties
      fun e he p _ hbuilt => ?_).2
    have hi : ∀ f ∈ p.interaction.forms, ¬ f.ListsNone := fun f hf => hforms f <|
      mem_affordanceForms_iff.2 (.inl ⟨e, he, PropertyDraft.forms_of_build hbuilt ▸ hf⟩)
    rw [PropertyAffordance.reread, Interaction.reread_eq_self hi]
  have hactions : Dict.mapValues ActionAffordance.reread t.actions = t.actions := by
    refine Dict.mapValues_eq_self (forall_of_collect (P := fun a => a.reread = a) hb.actions
      fun e he a _ hbuilt => ?_).2
    have hi : ∀ f ∈ a.interaction.forms, ¬ f.ListsNone := fun f hf => hforms f <|
      mem_affordanceForms_iff.2 (.inr (.inl ⟨e, he, ActionDraft.forms_of_build hbuilt ▸ hf⟩))
    rw [ActionAffordance.reread, Interaction.reread_eq_self hi]
  have hevents : Dict.mapValues EventAffordance.reread t.events = t.events := by
    refine Dict.mapValues_eq_self (forall_of_collect (P := fun x => x.reread = x) hb.events
      fun e he x _ hbuilt => ?_).2
    have hi : ∀ f ∈ x.interaction.forms, ¬ f.ListsNone := fun f hf => hforms f <|
      mem_affordanceForms_iff.2 (.inr (.inr ⟨e, he, EventDraft.forms_of_build hbuilt ▸ hf⟩))
    rw [EventAffordance.reread, Interaction.reread_eq_self hi]
  rw [Thing.reread, hthing, hproperties, hactions, hevents]

/-! ## Export -/

/-- What a script is built into is read as it was written, with nothing changed in it, exactly if it can be
written. What is written then is normal and has no member twice; neither has, in any case, one of its
properties.

The points in time of a script are texts of RFC 3339, so each of them can be written. A description made from
another one, with a year of more than four digits or an offset with seconds, could not be exported at all;
scripts do not lead there, and the statement does not speak of it. -/
theorem export_of_script {id : String} {script : List Json} {d : ThingDraft} {t : Thing}
    (hscript : ThingDraft.ofScript? id (normalItems script) = some d) (hbuild : d.build = .ok t) :
    (Thing.ofJson t.toJson = .ok t ↔ t.Writable) ∧
      (t.Writable → t.toJson.IsNormal ∧ (Dict.keys t.members).Nodup) ∧
        ∀ e ∈ t.properties, (Dict.keys e.2.members).Nodup := by
  have hnormal : (Json.arr (normalItems script)).IsNormal := isNormal_normal (.arr script)
  have hd : d.Tidy := tidy_of_script hnormal hscript
  have hb := builtInto_of_build hbuild
  refine ⟨⟨Thing.writable_of_ofJson, fun ht => ?_⟩, fun ht => ⟨?_, ?_⟩, ?_⟩
  · have hreread : t.reread = t := reread_of_build (not_listsNone_of_script hscript) hbuild
    rw [Thing.ofJson_toJson (wellFormed_of_build hd hbuild ht), hreread]
  · exact Thing.isNormal_toJson (wellFormed_of_build hd hbuild ht)
  · exact Thing.nodup_keys_members (hb.metadata ▸ hd.sortedMetadata) ht.metadata
  · refine (forall_of_collect (P := fun p => (Dict.keys p.members).Nodup) hb.properties
      fun e _ p _ hbuilt => ?_).2
    exact PropertyAffordance.nodup_keys_members (PropertyDraft.unlabelled_of_build hbuilt)

/-- A dimmer with a prefix, an unknown member and a level from zero on. -/
def dimmerScript : List Json :=
  [.arr [.str "context_prefix", .str "saref", .str "https://w3id.org/saref#"],
   .arr [.str "metadata", .str "x:room", .str "attic"],
   .arr [.str "property", .str "level", .arr
     [.arr [.str "title", .str "Level"],
      .arr [.str "schema", .arr
        [.arr [.str "integer"], .arr [.str "minimum", .num .zero], .arr [.str "default_value", .num .zero]]],
      .arr [.str "form", .arr
        [.arr [.str "href", .str "/level"], .arr [.str "op", .str "readproperty"]]]]]]

/-- The dimmer that is built. -/
def dimmer : Thing :=
  { context := ⟨some (.iri .thingDescription), [("saref", .iri ⟨"https://w3id.org/saref#", by decide⟩)]⟩
    id := "urn:dimmer"
    properties :=
      [("level",
        { interaction :=
            { labels := { title := some "Level" }
              forms := [{ href := "/level", op := .only [.readProperty] }] }
          schema := { kind := some (.integer { minimum := some 0 }), default := some (.num .zero) } })]
    metadata := [("x:room", .str "attic")] }

theorem export_of_script_dimmer :
    ∃ d, ThingDraft.ofScript? "urn:dimmer" (normalItems dimmerScript) = some d ∧ d.build = .ok dimmer ∧
      Thing.ofJson dimmer.toJson = .ok dimmer ∧ dimmer.Writable ∧ dimmer.toJson.IsNormal ∧
        (Dict.keys dimmer.members).Nodup := by
  have hbuilt : (ThingDraft.ofScript? "urn:dimmer" (normalItems dimmerScript)).map build =
      some (.ok dimmer) := by with_unfolding_all rfl
  obtain ⟨d, hd, hbuild⟩ := Option.map_eq_some_iff.1 hbuilt
  have hread : Thing.ofJson dimmer.toJson = .ok dimmer := rfl
  obtain ⟨hiff, hnodup, -⟩ := export_of_script hd hbuild
  exact ⟨d, hd, hbuild, hread, hiff.1 hread, hnodup (hiff.1 hread)⟩

/-- The script is built into a description that is not read as it was written. -/
def Loses (script : List Json) (t : Thing) : Prop :=
  (ThingDraft.ofScript? t.id (normalItems script)).map build = some (.ok t) ∧
    Thing.ofJson t.toJson ≠ .ok t

/-- Lost are an unknown member with the name of a known one, a prefix that is a keyword, a constant of `null`
beside a default, and a bound that is not finite. -/
theorem loses_unwritable :
    Loses [.arr [.str "metadata", .str "title", .num .zero]]
      { id := "urn:lamp", metadata := [("title", .num .zero)] } ∧
    Loses [.arr [.str "context_prefix", .str "@id", .str "urn:x"]]
      { id := "urn:lamp"
        context := ⟨some (.iri .thingDescription), [("@id", .iri ⟨"urn:x", by decide⟩)]⟩ } ∧
    Loses
      [.arr [.str "property", .str "on", .arr [.arr [.str "schema", .arr
        [.arr [.str "constant", .null], .arr [.str "default_value", .num .zero]]]]]]
      { id := "urn:lamp"
        properties := [("on", { schema := { constant := some .null, default := some (.num .zero) } })] } ∧
    Loses
      [.arr [.str "property", .str "on", .arr [.arr [.str "schema", .arr
        [.arr [.str "number"], .arr [.str "maximum", .str "inf"]]]]]]
      { id := "urn:lamp"
        properties :=
          [("on", { schema := { kind := some (.number { maximum := some (.infinity false) }) } })] } := by
  refine ⟨⟨rfl, fun h => ?_⟩, ⟨rfl, fun h => ?_⟩, ⟨by with_unfolding_all rfl, fun h => ?_⟩,
    ⟨by with_unfolding_all rfl, fun h => ?_⟩⟩
  · exact (Thing.writable_of_ofJson h).metadata _ (List.mem_singleton_self _) (by decide)
  · exact (Thing.writable_of_ofJson h).prefixes _ (List.mem_singleton_self _) Context.isKeyword_id
  · cases (Thing.writable_of_ofJson h).schemas _ (List.mem_singleton_self _) with
    | intro level _ => exact level.constant rfl
  · cases (Thing.writable_of_ofJson h).schemas _ (List.mem_singleton_self _) with
    | intro level _ =>
      have hfinite := level.bounds _ rfl (some (.infinity false)) (by simp) _ rfl
      exact absurd hfinite (by decide)

end ThingDraft
end WebOfThings
