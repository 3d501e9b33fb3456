import WebOfThings.Proofs.Draft.SchemaScript
import WebOfThings.Proofs.Draft.Thing

/-!
# What scripts write down

A script leaves behind what its steps wrote: the entries of the steps that add something, in order, and the
last one of those that replace it (`ThingDraft.extends_of_script`); the same holds of the scripts inside,
down to the schemas, with their kinds, bounds and parts (`SchemaDraft.writtenBy_of_script`). What one step
does is proved first, and a whole script is the steps one after the other (`Script.steps?_induction`).

The steps of a script are the calls of the builders for a thing, its affordances and its forms. Two ways of
writing down cover all of them: a call adds an entry (`Adds`) or replaces what was there (`Sets`). So the
record of what a script wrote (`Extends`) has a field for each of them and none for how the draft looks in
between; and the statements about a script that holds scripts are about what the inner ones wrote.

Main statement: `ThingDraft.build_of_script` (a script is built into a description exactly if all that it
wrote down is consistent).
-/

namespace WebOfThings

namespace Script

/-! ## Forms -/

/-- The arguments are a name and a script whose steps lead from nothing to a draft. -/
def IsNamed {α : Type} (Extends : List (String × List Json) → α → Prop) (args : List Json)
    (e : String × α) : Prop :=
  ∃ script, args = [.str e.1, .arr script] ∧ Extends (stepsOf script) e.2

/-- The arguments are a script that writes a form down. -/
def IsForm (args : List Json) (f : Form) : Prop := ∃ script, args = [.arr script] ∧ form? script = some f

/-- A step on a form adds an operation or leaves the operations alone. -/
theorem op_of_formStep? {f f' : Form} {name : String} {args : List Json} (h : formStep? f name args = some f') :
    f'.op = f.op ∨ ∃ op, f' = f.allow op := by
  unfold formStep? at h
  split at h
  all_goals
    first
    | contradiction
    | cases h
      exact .inl rfl
    | obtain ⟨op, -, rfl⟩ := Option.map_eq_some_iff.1 h
      exact .inr ⟨op, rfl⟩
    | obtain ⟨r, -, rfl⟩ := Option.map_eq_some_iff.1 h
      exact .inl rfl

/-- A form that a script writes down lists at least one operation, if it lists operations. -/
theorem IsForm.not_listsNone {args : List Json} {f : Form} (h : IsForm args f) : ¬ f.ListsNone := by
  obtain ⟨script, -, h⟩ := h
  refine steps?_induction (E := fun _ (f f' : Form) => ¬ f.ListsNone → ¬ f'.ListsNone) (fun _ hf => hf)
    (fun hfirst hsecond hf => hsecond (hfirst hf)) (fun hstep hf => ?_) h (by simp [Form.ListsNone])
  rcases op_of_formStep? hstep with hop | ⟨op, rfl⟩
  · rwa [Form.ListsNone, hop]
  · unfold Form.allow
    split <;> simp [Form.ListsNone]

/-- The names of the steps on what all affordances have. -/
def interactionNames : List String := ["form", "uri_variable"] ++ labelNames

end Script

open Script

/-! ## Affordances -/

/-- Steps add their forms and variables. -/
structure InteractionDraft.Extends (steps : List (String × List Json)) (d d' : InteractionDraft) : Prop where
  forms : Adds IsForm (calls "form" steps) d.forms d'.forms
  uriVariables : Adds IsNamedSchema (calls "uri_variable" steps) d.uriVariables d'.uriVariables

/-- Steps on a property add to what all affordances have; the last schema counts. -/
structure PropertyDraft.Extends (steps : List (String × List Json)) (d d' : PropertyDraft) : Prop where
  interaction : d.interaction.Extends steps d'.interaction
  schema : Sets IsSchema (calls "schema" steps) d.schema d'.schema

/-- Steps on an action add to what all affordances have; the last schema of each role counts. -/
structure ActionDraft.Extends (steps : List (String × List Json)) (d d' : ActionDraft) : Prop where
  interaction : d.interaction.Extends steps d'.interaction
  input : Sets IsSchema (calls "input" steps) d.input d'.input
  output : Sets IsSchema (calls "output" steps) d.output d'.output

/-- Steps on an event add to what all affordances have; the last schema of each role counts. -/
structure EventDraft.Extends (steps : List (String × List Json)) (d d' : EventDraft) : Prop where
  interaction : d.interaction.Extends steps d'.interaction
  subscription : Sets IsSchema (calls "subscription" steps) d.subscription d'.subscription
  data : Sets IsSchema (calls "data" steps) d.data d'.data
  dataResponse : Sets IsSchema (calls "data_response" steps) d.dataResponse d'.dataResponse
  cancellation : Sets IsSchema (calls "cancellation" steps) d.cancellation d'.cancellation

/-- A step on an interaction writes down its call. -/
theorem InteractionDraft.extends_of_step {d d' : InteractionDraft} {name : String} {args : List Json}
    (h : interactionStep? d name args = some d') : d.Extends [(name, args)] d' ∧ name ∈ interactionNames := by
  unfold interactionStep? at h
  split at h
  · next script =>
    obtain ⟨f, hf, rfl⟩ := Option.map_eq_some_iff.1 h
    refine ⟨⟨?_, ?_⟩, by simp [interactionNames]⟩
    · simp [calls_singleton, IsForm, hf]
    · simp [calls_singleton]
  · next key script =>
    obtain ⟨s, hs, rfl⟩ := Option.map_eq_some_iff.1 h
    refine ⟨⟨?_, ?_⟩, by simp [interactionNames]⟩
    · simp [calls_singleton]
    · simp [calls_singleton, IsNamedSchema, SchemaDraft.ofScript?, hs]
  · obtain ⟨labels, hlabels, rfl⟩ := Option.map_eq_some_iff.1 h
    have hname := label?_name hlabels
    refine ⟨⟨?_, ?_⟩, List.mem_append_right _ hname⟩
    · simp [calls_eq_nil hname, labelNames]
    · simp [calls_eq_nil hname, labelNames]

/-- A step on something else leaves the interaction. -/
theorem InteractionDraft.extends_of_not_mem {d : InteractionDraft} {name : String} {args : List Json}
    (h : name ∉ interactionNames) : d.Extends [(name, args)] d := by
  obtain ⟨hform, hvariable, -⟩ : "form" ≠ name ∧ "uri_variable" ≠ name ∧ name ∉ labelNames := by
    simpa [interactionNames, eq_comm] using h
  constructor
  · simp [calls_singleton, hform.symm]
  · simp [calls_singleton, hvariable.symm]

/-- A step on a property writes down its call. -/
theorem PropertyDraft.extends_of_step {d d' : PropertyDraft} {name : String} {args : List Json}
    (h : propertyStep? d name args = some d') : d.Extends [(name, args)] d' := by
  unfold propertyStep? at h
  split at h
  · next script =>
    obtain ⟨s, hs, rfl⟩ := Option.map_eq_some_iff.1 h
    exact ⟨InteractionDraft.extends_of_not_mem (by decide), sets_schema hs ..⟩
  · cases h
    refine ⟨InteractionDraft.extends_of_not_mem (by decide), ?_⟩
    simp [calls_singleton]
  · obtain ⟨interaction, hinteraction, rfl⟩ := Option.map_eq_some_iff.1 h
    obtain ⟨hextends, hname⟩ := InteractionDraft.extends_of_step hinteraction
    refine ⟨hextends, ?_⟩
    simp [calls_eq_nil hname, interactionNames, labelNames]

/-- A step on an action writes down its call. -/
theorem ActionDraft.extends_of_step {d d' : ActionDraft} {name : String} {args : List Json}
    (h : actionStep? d name args = some d') : d.Extends [(name, args)] d' := by
  unfold actionStep? at h
  split at h
  · next script =>
    obtain ⟨s, hs, rfl⟩ := Option.map_eq_some_iff.1 h
    refine ⟨InteractionDraft.extends_of_not_mem (by decide), sets_schema hs .., ?_⟩
    simp [calls_singleton]
  · next script =>
    obtain ⟨s, hs, rfl⟩ := Option.map_eq_some_iff.1 h
    refine ⟨InteractionDraft.extends_of_not_mem (by decide), ?_, sets_schema hs ..⟩
    simp [calls_singleton]
  iterate 3
    next =>
      cases h
      refine ⟨InteractionDraft.extends_of_not_mem (by decide), ?_, ?_⟩
      all_goals simp [calls_singleton]
  · obtain ⟨interaction, hinteraction, rfl⟩ := Option.map_eq_some_iff.1 h
    obtain ⟨hextends, hname⟩ := InteractionDraft.extends_of_step hinteraction
    refine ⟨hextends, ?_, ?_⟩
    all_goals simp [calls_eq_nil hname, interactionNames, labelNames]

/-- A step on an event writes down its call. -/
theorem EventDraft.extends_of_step {d d' : EventDraft} {name : String} {args : List Json}
    (h : eventStep? d name args = some d') : d.Extends [(name, args)] d' := by
  unfold eventStep? at h
  split at h
  iterate 4
    next script =>
      obtain ⟨s, hs, rfl⟩ := Option.map_eq_some_iff.1 h
      refine ⟨InteractionDraft.extends_of_not_mem (by decide), ?_, ?_, ?_, ?_⟩
      all_goals
        first
        | exact sets_schema hs ..
        | simp [calls_singleton]
  · obtain ⟨interaction, hinteraction, rfl⟩ := Option.map_eq_some_iff.1 h
    obtain ⟨hextends, hname⟩ := InteractionDraft.extends_of_step hinteraction
    refine ⟨hextends, ?_, ?_, ?_, ?_⟩
    all_goals simp [calls_eq_nil hname, interactionNames, labelNames]

/-! ## Whole scripts of affordances -/

theorem InteractionDraft.Extends.refl (d : InteractionDraft) : d.Extends [] d := by
  constructor <;> simp

/-- What some steps write down and then others is what all of them do. -/
theorem InteractionDraft.Extends.trans {first second : List (String × List Json)} {d d' d'' : InteractionDraft}
    (h : d.Extends first d') (h' : d'.Extends second d'') : d.Extends (first ++ second) d'' := by
  constructor
  · simpa using h.forms.trans h'.forms
  · simpa using h.uriVariables.trans h'.uriVariables

/-- A script writes down the calls on a property. -/
theorem PropertyDraft.extends_of_script {script : List Json} {d : PropertyDraft}
    (h : steps? propertyStep? {} script = some d) :
    PropertyDraft.Extends (stepsOf script) {} d := by
  refine steps?_induction (E := PropertyDraft.Extends) (fun d => ⟨.refl _, ?_⟩)
    (fun h h' => ⟨h.1.trans h'.1, ?_⟩) PropertyDraft.extends_of_step h
  · simp
  · simpa using h.schema.trans h'.schema

/-- A script writes down the calls on an action. -/
theorem ActionDraft.extends_of_script {script : List Json} {d : ActionDraft}
    (h : steps? actionStep? {} script = some d) :
    ActionDraft.Extends (stepsOf script) {} d := by
  refine steps?_induction (E := ActionDraft.Extends) (fun d => ⟨.refl _, ?_, ?_⟩)
    (fun h h' => ⟨h.1.trans h'.1, ?_, ?_⟩) ActionDraft.extends_of_step h
  · simp
  · simp
  · simpa using h.input.trans h'.input
  · simpa using h.output.trans h'.output

/-- A script writes down the calls on an event. -/
theorem EventDraft.extends_of_script {script : List Json} {d : EventDraft}
    (h : steps? eventStep? {} script = some d) :
    EventDraft.Extends (stepsOf script) {} d := by
  refine steps?_induction (E := EventDraft.Extends) (fun d => ⟨.refl _, ?_, ?_, ?_, ?_⟩)
    (fun h h' => ⟨h.1.trans h'.1, ?_, ?_, ?_, ?_⟩) EventDraft.extends_of_step h
  iterate 4
    next => simp
  · simpa using h.subscription.trans h'.subscription
  · simpa using h.data.trans h'.data
  · simpa using h.dataResponse.trans h'.dataResponse
  · simpa using h.cancellation.trans h'.cancellation

/-! ## Things -/

/-- Steps on a thing add to its lists; the last context counts. -/
structure ThingDraft.Extends (steps : List (String × List Json)) (d d' : ThingDraft) : Prop where
  context : Sets (fun args iri => args = [.str iri]) (calls "context" steps) d.context d'.context
  prefixes : Adds (fun args p => args = [.str p.1, .str p.2]) (calls "context_prefix" steps)
    d.prefixes d'.prefixes
  securityDefinitions : Adds (fun args e => ∃ v, args = [.str e.1, v] ∧ securityScheme? v = some e.2)
    (calls "security_definition" steps) d.securityDefinitions d'.securityDefinitions
  security : Adds (fun args name => args = [.str name]) (calls "security" steps) d.security d'.security
  forms : Adds IsForm (calls "form" steps) d.forms d'.forms
  uriVariables : Adds IsNamedSchema (calls "uri_variable" steps) d.uriVariables d'.uriVariables
  properties : Adds (IsNamed fun steps p => PropertyDraft.Extends steps {} p) (calls "property" steps)
    d.properties d'.properties
  actions : Adds (IsNamed fun steps a => ActionDraft.Extends steps {} a) (calls "action" steps)
    d.actions d'.actions
  events : Adds (IsNamed fun steps e => EventDraft.Extends steps {} e) (calls "event" steps)
    d.events d'.events

/-- A step on a thing writes down its call. -/
theorem ThingDraft.extends_of_step {d d' : ThingDraft} {name : String} {args : List Json}
    (h : thingStep? d name args = some d') : d.Extends [(name, args)] d' := by
  unfold thingStep? at h
  split at h
  -- `context`, `context_prefix`, `version` with a text, `support`, `base`, `link`, `security`, `metadata`
  case h_1 | h_2 | h_3 | h_7 | h_8 | h_9 | h_12 | h_18 =>
    cases h
    constructor <;> simp [calls_singleton]
  -- `version` with an object, `created`, `modified`, `link_with`
  case h_4 | h_5 | h_6 | h_10 =>
    obtain ⟨x, -, rfl⟩ := Option.map_eq_some_iff.1 h
    constructor <;> simp [calls_singleton]
  case h_11 =>
    obtain ⟨scheme, hscheme, rfl⟩ := Option.map_eq_some_iff.1 h
    constructor <;> simp [calls_singleton, hscheme]
  case h_13 =>
    obtain ⟨f, hf, rfl⟩ := Option.map_eq_some_iff.1 h
    constructor <;> simp [calls_singleton, IsForm, hf]
  case h_14 =>
    obtain ⟨s, hs, rfl⟩ := Option.map_eq_some_iff.1 h
    constructor <;> simp [calls_singleton, IsNamedSchema, SchemaDraft.ofScript?, hs]
  case h_15 =>
    obtain ⟨p, hp, rfl⟩ := Option.map_eq_some_iff.1 h
    constructor <;> simp [calls_singleton, IsNamed, PropertyDraft.extends_of_script hp]
  case h_16 =>
    obtain ⟨a, ha, rfl⟩ := Option.map_eq_some_iff.1 h
    constructor <;> simp [calls_singleton, IsNamed, ActionDraft.extends_of_script ha]
  case h_17 =>
    obtain ⟨e, he, rfl⟩ := Option.map_eq_some_iff.1 h
    constructor <;> simp [calls_singleton, IsNamed, EventDraft.extends_of_script he]
  case h_19 =>
    obtain ⟨labels, hlabels, rfl⟩ := Option.map_eq_some_iff.1 h
    have hname := label?_name hlabels
    constructor <;> simp [calls_eq_nil hname, labelNames]

namespace ThingDraft

theorem Extends.refl (d : ThingDraft) : d.Extends [] d := by
  constructor <;> simp

/-- What some steps write down and then others is what all of them do. -/
theorem Extends.trans {first second : List (String × List Json)} {d d' d'' : ThingDraft}
    (h : d.Extends first d') (h' : d'.Extends second d'') : d.Extends (first ++ second) d'' := by
  constructor
  · simpa using h.context.trans h'.context
  · simpa using h.prefixes.trans h'.prefixes
  · simpa using h.securityDefinitions.trans h'.securityDefinitions
  · simpa using h.security.trans h'.security
  · simpa using h.forms.trans h'.forms
  · simpa using h.uriVariables.trans h'.uriVariables
  · simpa using h.properties.trans h'.properties
  · simpa using h.actions.trans h'.actions
  · simpa using h.events.trans h'.events

/-- A script writes down the calls on a thing. -/
theorem extends_of_script {id : String} {script : List Json} {d : ThingDraft}
    (h : ThingDraft.ofScript? id script = some d) :
    ThingDraft.Extends (stepsOf script) { id } d :=
  steps?_induction Extends.refl Extends.trans ThingDraft.extends_of_step h

/-- No form that a script writes down has an empty list of operations. -/
theorem not_listsNone_of_script {id : String} {script : List Json} {d : ThingDraft}
    (h : ThingDraft.ofScript? id script = some d) : ∀ f ∈ d.affordanceForms, ¬ f.ListsNone := by
  have hd := extends_of_script h
  intro f hf
  -- Every form of an affordance was written by one of the steps of that affordance.
  have hforms : ∃ steps i, InteractionDraft.Extends steps {} i ∧ f ∈ i.forms := by
    rcases mem_affordanceForms_iff.1 hf with ⟨e, he, hf⟩ | ⟨e, he, hf⟩ | ⟨e, he, hf⟩
    · obtain ⟨_, -, _, -, hp⟩ := hd.properties.exists_call he
      exact ⟨_, _, hp.interaction, hf⟩
    · obtain ⟨_, -, _, -, ha⟩ := hd.actions.exists_call he
      exact ⟨_, _, ha.interaction, hf⟩
    · obtain ⟨_, -, _, -, he⟩ := hd.events.exists_call he
      exact ⟨_, _, he.interaction, hf⟩
  obtain ⟨steps, i, hi, hf⟩ := hforms
  obtain ⟨args, -, hform⟩ := hi.forms.exists_call hf
  exact hform.not_listsNone

/-- A script is built into a description exactly if what it wrote down is consistent. What it wrote down are
the entries of all its steps in order and, where there is room for one entry only, that of the last step. The
same holds of the scripts of its affordances and, for the type of a schema, the bounds on its values and its parts,
of those of its schemas at any depth. -/
theorem build_of_script {id : String} {script : List Json} {d : ThingDraft}
    (h : ThingDraft.ofScript? id script = some d) :
    ((∃ t, d.build = .ok t) ↔ d.Consistent) ∧
      ThingDraft.Extends (stepsOf script) { id } d ∧
        ∀ {inner s}, SchemaDraft.ofScript? inner = some s → s.WrittenBy (stepsOf inner) :=
  ⟨build_ok_iff (not_listsNone_of_script h), extends_of_script h, SchemaDraft.writtenBy_of_script⟩

/-- A lamp with basic access whose brightness is a percentage, or true for full. -/
def lampScript : List Json :=
  [.arr [.str "context_prefix", .str "saref", .str "https://w3id.org/saref#"],
   .arr [.str "security_definition", .str "basic_sc", .str "basic"],
   .arr [.str "security", .str "basic_sc"],
   .arr [.str "property", .str "brightness", .arr
     [.arr [.str "schema", .arr
       [.arr [.str "one_of", .arr
          [.arr [.str "integer"], .arr [.str "minimum", .num .zero],
           .arr [.str "maximum", .num (.integer 100 (by decide))]]],
        .arr [.str "one_of", .arr [.arr [.str "bool"]]]]],
      .arr [.str "form", .arr
        [.arr [.str "href", .str "brightness"], .arr [.str "op", .str "readproperty"]]]]]]

theorem build_of_script_lamp :
    ∃ d, ThingDraft.ofScript? "urn:lamp" lampScript = some d ∧ d.Consistent := by
  have hbuilt : (ThingDraft.ofScript? "urn:lamp" lampScript).map (·.build.isOk) = some true := by
    decide +kernel
  obtain ⟨d, hd, hok⟩ := Option.map_eq_some_iff.1 hbuilt
  refine ⟨d, hd, (build_of_script hd).1.1 ?_⟩
  cases hbuild : d.build with
  | error e => simp [hbuild, Except.isOk, Except.toBool] at hok
  | ok t => exact ⟨t, rfl⟩

end ThingDraft
end WebOfThings
