import WebOfThings.Proofs.Description.Thing
import WebOfThings.Proofs.Draft.Script

/-!
# What the steps of a script keep true

The values in a script are in normal form. So are then the constants, defaults and allowed values of the
schemas that it writes down, and its metadata; translations are dictionaries. A draft with these properties
is called tidy: nothing else of what reading keeps true of a description depends on how the draft was
written.

One step keeps a draft tidy if its arguments are normal, and so do all steps of a script (`steps?_keeps`).
The scripts of schemas hold scripts, so for them it is an induction over the script as a value
(`SchemaDraft.tidy_of_script`). Main statement: `ThingDraft.tidy_of_script`.

Scripts are values, so their arguments are normal values, and that is all that is asked here of what a
script says. What is built from a draft that a script wrote down can therefore be compared with what is
read: the difference between the two lies in what a script may say and a description may not, and nowhere in
the form of the values.
-/

namespace WebOfThings

open Json Script

/-! ## Normal scripts -/

namespace Script

/-- A step stands in the script. -/
theorem mem_of_mem_stepsOf {script : List Json} {step : String × List Json} (h : step ∈ stepsOf script) :
    .arr (.str step.1 :: step.2) ∈ script := by
  obtain ⟨v, hv, hstep⟩ := List.mem_filterMap.1 h
  split at hstep
  · cases hstep
    exact hv
  · cases hstep

/-- The arguments of the steps of a normal script are normal. -/
theorem isNormal_of_mem_stepsOf {script : List Json} (hs : (Json.arr script).IsNormal) {name : String}
    {args : List Json} (h : (name, args) ∈ stepsOf script) : ∀ v ∈ args, v.IsNormal := by
  have hstep : (Json.arr (.str name :: args)).IsNormal := isNormal_arr_iff.1 hs _ (mem_of_mem_stepsOf h)
  exact fun v hv => isNormal_arr_iff.1 hstep v (List.mem_cons_of_mem _ hv)

/-- What every step of a script keeps, the script keeps. -/
theorem steps?_keeps {δ : Type} {step? : δ → String → List Json → Option δ} {P : δ → Prop}
    {script : List Json}
    (keeps : ∀ {d name args d'}, (name, args) ∈ stepsOf script → P d → step? d name args = some d' → P d')
    {d d' : δ} (hd : P d) (h : steps? step? d script = some d') : P d' := by
  refine steps?_induction
    (E := fun steps d d' => (∀ step ∈ steps, step ∈ stepsOf script) → P d → P d') ?_ ?_ ?_ h (fun _ h => h) hd
  · exact fun _ _ hd => hd
  · intro first second d d' d'' hfirst hsecond hsteps hd
    obtain ⟨h1, h2⟩ := List.forall_mem_append.1 hsteps
    exact hsecond h2 (hfirst h1 hd)
  · exact fun hstep hsteps hd => keeps (hsteps _ (List.mem_singleton_self _)) hd hstep

/-- A step on labels keeps them well-formed. -/
theorem wellFormed_of_label? {l l' : Labels} {name : String} {args : List Json} (hl : l.WellFormed)
    (h : label? l name args = some l') : l'.WellFormed := by
  have hsorted : ∀ {entries : List (String × String)} {d : Dict String},
      some (Dict.ofList entries) = some d → d.Sorted := by
    rintro entries d hd
    cases hd
    exact Dict.sorted_ofList entries
  unfold label? at h
  split at h
  · cases h
    exact ⟨hl.titles, hl.descriptions⟩
  · cases h
    exact ⟨hl.titles, hl.descriptions⟩
  · obtain ⟨entries, -, rfl⟩ := Option.map_eq_some_iff.1 h
    exact ⟨fun _ hd => hsorted hd, hl.descriptions⟩
  · cases h
    exact ⟨hl.titles, hl.descriptions⟩
  · obtain ⟨entries, -, rfl⟩ := Option.map_eq_some_iff.1 h
    exact ⟨hl.titles, fun _ hd => hsorted hd⟩
  · cases h

/-- A security scheme that is written in normal form is well-formed. -/
theorem wellFormed_of_securityScheme? {v : Json} {s : SecurityScheme} (hv : v.IsNormal)
    (h : securityScheme? v = some s) : s.WellFormed := by
  unfold securityScheme? at h
  split at h
  · obtain ⟨m, -, rfl⟩ := Option.map_eq_some_iff.1 h
    exact nofun
  · exact SecurityScheme.wellFormed_of_ofJson? hv h

end Script

/-! ## Schemas -/

namespace SchemaDraft

/-- What a draft of a schema says, apart from its parts, is made of normal values. -/
structure LevelTidy (d : SchemaDraft) : Prop where
  labels : d.labels.WellFormed
  constant : ∀ v, d.constant = some v → v.IsNormal
  default : ∀ v, d.default = some v → v.IsNormal
  enumeration : ∀ vs, d.enumeration = some vs → ∀ v ∈ vs, v.IsNormal

/-- What a draft says, and what the drafts in it say at any depth, is made of normal values. -/
def Tidy (d : SchemaDraft) : Prop := ∀ e : SchemaDraft, e.In d → e.LevelTidy

theorem tidy_iff {d : SchemaDraft} : d.Tidy ↔ (∀ p ∈ d.parts, p.2.Tidy) ∧ d.LevelTidy := forall_in_iff

theorem Tidy.level {d : SchemaDraft} (h : d.Tidy) : d.LevelTidy := (tidy_iff.1 h).2

theorem tidy_empty : Tidy {} :=
  tidy_iff.2 ⟨List.forall_mem_nil _, Labels.wellFormed_empty, nofun, nofun, nofun⟩

/-- A tidy part may be added. -/
theorem Tidy.addPart? {d d' part : SchemaDraft} {role : PartRole} (hd : d.Tidy) (hpart : part.Tidy)
    (h : d.addPart? role part = some d') : d'.Tidy := by
  obtain ⟨hparts, hlevel⟩ := tidy_iff.1 hd
  unfold SchemaDraft.addPart? at h
  split at h
  · cases h
    exact tidy_iff.2 ⟨Dict.forall_mem_concat hparts hpart, { hlevel with }⟩
  · cases h

/-- A step with normal arguments keeps a draft tidy at its own level. -/
theorem LevelTidy.schemaField? {d d' : SchemaDraft} {name : String} {args : List Json}
    (hargs : ∀ v ∈ args, v.IsNormal) (hd : d.LevelTidy) (h : Script.schemaField? d name args = some d') :
    d'.LevelTidy := by
  unfold Script.schemaField? at h
  split at h
  · -- `constant`
    next v =>
    cases h
    refine { hd with constant := ?_ }
    rintro w hw
    cases hw
    exact List.forall_mem_singleton.1 hargs
  · -- `default_value`
    next v =>
    cases h
    refine { hd with default := ?_ }
    rintro w hw
    cases hw
    exact List.forall_mem_singleton.1 hargs
  · cases h
    exact { hd with }
  · cases h
    exact { hd with }
  · -- `enumeration`
    next v =>
    cases h
    refine { hd with enumeration := ?_ }
    rintro vs hvs w hw
    cases hvs
    rcases List.mem_append.1 hw with hw | hw
    · cases henum : d.enumeration with
      | none =>
        rw [henum] at hw
        cases hw
      | some old =>
        rw [henum] at hw
        exact hd.enumeration old henum w hw
    · rw [List.mem_singleton.1 hw]
      exact List.forall_mem_singleton.1 hargs
  · cases h
    exact { hd with }
  · cases h
    exact { hd with }
  · split at h
    · next labels hlabels =>
      cases h
      exact { hd with labels := wellFormed_of_label? hd.labels hlabels }
    · cases h
      exact { hd with }
    · obtain ⟨kind, -, rfl⟩ := Option.map_eq_some_iff.1 h
      exact { hd with }

/-- A step that adds no part leaves the parts, if not their roles. -/
theorem exists_part_of_schemaField? {d d' : SchemaDraft} {name : String} {args : List Json}
    (h : Script.schemaField? d name args = some d') : ∀ p ∈ d'.parts, ∃ q ∈ d.parts, q.2 = p.2 := by
  unfold Script.schemaField? at h
  intro p hp
  split at h
  case h_8 =>
    split at h
    · cases h
      exact ⟨p, hp, rfl⟩
    · cases h
      obtain ⟨q, hq, rfl⟩ := List.mem_map.1 hp
      exact ⟨q, hq, rfl⟩
    · obtain ⟨kind, -, rfl⟩ := Option.map_eq_some_iff.1 h
      exact ⟨p, hp, rfl⟩
  all_goals
    cases h
    exact ⟨p, hp, rfl⟩

/-- A step with normal arguments keeps a draft tidy. -/
theorem Tidy.schemaField? {d d' : SchemaDraft} {name : String} {args : List Json}
    (hargs : ∀ v ∈ args, v.IsNormal) (hd : d.Tidy) (h : Script.schemaField? d name args = some d') :
    d'.Tidy := by
  refine tidy_iff.2 ⟨fun p hp => ?_, hd.level.schemaField? hargs h⟩
  obtain ⟨q, hq, hqp⟩ := exists_part_of_schemaField? h p hp
  exact hqp ▸ (tidy_iff.1 hd).1 q hq

/-- A step on a schema keeps it tidy if the scripts among its arguments write tidy schemas. -/
theorem Tidy.schemaStep? {d d' : SchemaDraft} {name : String} {args : List Json}
    (hargs : ∀ v ∈ args, v.IsNormal)
    (hscripts : ∀ {script s}, .arr script ∈ args → schema? {} script = some s → s.Tidy)
    (hd : d.Tidy) (h : Script.schemaStep? d name args = some d') : d'.Tidy := by
  unfold Script.schemaStep? at h
  split at h
  · next script =>
    have hpart : ∀ {s}, schema? {} script = some s → s.Tidy := hscripts (List.mem_singleton_self _)
    split at h
    · obtain ⟨s, hs, h⟩ := Option.bind_eq_some_iff.1 h
      exact hd.addPart? (hpart hs) h
    split at h
    · obtain ⟨s, hs, h⟩ := Option.bind_eq_some_iff.1 h
      exact hd.addPart? (hpart hs) h
    · exact hd.schemaField? hargs h
  · next member required script =>
    split at h
    · obtain ⟨s, hs, h⟩ := Option.bind_eq_some_iff.1 h
      exact hd.addPart? (hscripts (by simp) hs) h
    · cases h
  · exact hd.schemaField? hargs h

/-- A schema that a normal script writes down is tidy. -/
theorem tidy_of_script {script : List Json} (hs : (Json.arr script).IsNormal) {d : SchemaDraft}
    (h : schema? {} script = some d) : d.Tidy := by
  -- A script in a step of the script stands two levels further down.
  suffices htidy : ∀ v : Json, ∀ script d, v = .arr script → v.IsNormal → schema? {} script = some d → d.Tidy by
    exact htidy (.arr script) script d rfl hs h
  intro v
  induction v using forall_of_two_levels with
  | h v ih =>
    rintro script d rfl hs h
    rw [schema?_eq_steps?] at h
    refine steps?_keeps (fun hstep hd hnext => ?_) tidy_empty h
    next name args d' =>
    have hargs := isNormal_of_mem_stepsOf hs hstep
    refine hd.schemaStep? hargs (fun {inner s} hinner hread => ?_) hnext
    have hitem := (ih (.arr (.str name :: args)) (mem_of_mem_stepsOf hstep)).2
    exact hitem (.arr inner) (List.mem_cons_of_mem _ hinner) inner s rfl (hargs _ hinner) hread

end SchemaDraft

/-! ## Affordances -/

/-- What a draft says about any affordance is made of normal values. -/
structure InteractionDraft.Tidy (d : InteractionDraft) : Prop where
  labels : d.labels.WellFormed
  uriVariables : ∀ e ∈ d.uriVariables, e.2.Tidy

/-- What a draft says about a property is made of normal values. -/
structure PropertyDraft.Tidy (d : PropertyDraft) : Prop where
  interaction : d.interaction.Tidy
  schema : ∀ s, d.schema = some s → s.Tidy

/-- What a draft says about an action is made of normal values. -/
structure ActionDraft.Tidy (d : ActionDraft) : Prop where
  interaction : d.interaction.Tidy
  input : ∀ s, d.input = some s → s.Tidy
  output : ∀ s, d.output = some s → s.Tidy

/-- What a draft says about an event is made of normal values. -/
structure EventDraft.Tidy (d : EventDraft) : Prop where
  interaction : d.interaction.Tidy
  subscription : ∀ s, d.subscription = some s → s.Tidy
  data : ∀ s, d.data = some s → s.Tidy
  dataResponse : ∀ s, d.dataResponse = some s → s.Tidy
  cancellation : ∀ s, d.cancellation = some s → s.Tidy

section

variable {name : String} {args : List Json}

/-- A script among normal arguments writes a tidy schema down. -/
theorem SchemaDraft.tidy_of_arg (hargs : ∀ v ∈ args, v.IsNormal) {script : List Json}
    (hscript : .arr script ∈ args) {s : SchemaDraft} (h : schema? {} script = some s) : s.Tidy :=
  SchemaDraft.tidy_of_script (hargs _ hscript) h

/-- A step with normal arguments keeps the draft of an interaction tidy. -/
theorem InteractionDraft.Tidy.step {d d' : InteractionDraft} (hargs : ∀ v ∈ args, v.IsNormal) (hd : d.Tidy)
    (h : interactionStep? d name args = some d') : d'.Tidy := by
  unfold interactionStep? at h
  split at h
  · obtain ⟨f, -, rfl⟩ := Option.map_eq_some_iff.1 h
    exact { hd with }
  · obtain ⟨s, hs, rfl⟩ := Option.map_eq_some_iff.1 h
    have hschema := SchemaDraft.tidy_of_arg hargs (by simp) hs
    exact { hd with uriVariables := Dict.forall_mem_concat hd.uriVariables hschema }
  · obtain ⟨labels, hlabels, rfl⟩ := Option.map_eq_some_iff.1 h
    exact { hd with labels := wellFormed_of_label? hd.labels hlabels }

/-- A step with normal arguments keeps the draft of a property tidy. -/
theorem PropertyDraft.Tidy.step {d d' : PropertyDraft} (hargs : ∀ v ∈ args, v.IsNormal) (hd : d.Tidy)
    (h : propertyStep? d name args = some d') : d'.Tidy := by
  unfold propertyStep? at h
  split at h
  · obtain ⟨s, hs, rfl⟩ := Option.map_eq_some_iff.1 h
    refine { hd with schema := ?_ }
    rintro _ ⟨⟩
    exact SchemaDraft.tidy_of_arg hargs (by simp) hs
  · cases h
    exact { hd with }
  · obtain ⟨i, hi, rfl⟩ := Option.map_eq_some_iff.1 h
    exact { hd with interaction := hd.interaction.step hargs hi }

/-- A step with normal arguments keeps the draft of an action tidy. -/
theorem ActionDraft.Tidy.step {d d' : ActionDraft} (hargs : ∀ v ∈ args, v.IsNormal) (hd : d.Tidy)
    (h : actionStep? d name args = some d') : d'.Tidy := by
  unfold actionStep? at h
  split at h
  · obtain ⟨s, hs, rfl⟩ := Option.map_eq_some_iff.1 h
    refine { hd with input := ?_ }
    rintro _ ⟨⟩
    exact SchemaDraft.tidy_of_arg hargs (by simp) hs
  · obtain ⟨s, hs, rfl⟩ := Option.map_eq_some_iff.1 h
    refine { hd with output := ?_ }
    rintro _ ⟨⟩
    exact SchemaDraft.tidy_of_arg hargs (by simp) hs
  · cases h
    exact { hd with }
  · cases h
    exact { hd with }
  · cases h
    exact { hd with }
  · obtain ⟨i, hi, rfl⟩ := Option.map_eq_some_iff.1 h
    exact { hd with interaction := hd.interaction.step hargs hi }

/-- A step with normal arguments keeps the draft of an event tidy. -/
theorem EventDraft.Tidy.step {d d' : EventDraft} (hargs : ∀ v ∈ args, v.IsNormal) (hd : d.Tidy)
    (h : eventStep? d name args = some d') : d'.Tidy := by
  unfold eventStep? at h
  split at h
  · obtain ⟨s, hs, rfl⟩ := Option.map_eq_some_iff.1 h
    refine { hd with subscription := ?_ }
    rintro _ ⟨⟩
    exact SchemaDraft.tidy_of_arg hargs (by simp) hs
  · obtain ⟨s, hs, rfl⟩ := Option.map_eq_some_iff.1 h
    refine { hd with data := ?_ }
    rintro _ ⟨⟩
    exact SchemaDraft.tidy_of_arg hargs (by simp) hs
  · obtain ⟨s, hs, rfl⟩ := Option.map_eq_some_iff.1 h
    refine { hd with dataResponse := ?_ }
    rintro _ ⟨⟩
    exact SchemaDraft.tidy_of_arg hargs (by simp) hs
  · obtain ⟨s, hs, rfl⟩ := Option.map_eq_some_iff.1 h
    refine { hd with cancellation := ?_ }
    rintro _ ⟨⟩
    exact SchemaDraft.tidy_of_arg hargs (by simp) hs
  · obtain ⟨i, hi, rfl⟩ := Option.map_eq_some_iff.1 h
    exact { hd with interaction := hd.interaction.step hargs hi }

end

theorem InteractionDraft.tidy_empty : InteractionDraft.Tidy {} :=
  ⟨Labels.wellFormed_empty, List.forall_mem_nil _⟩

section

variable {script : List Json}

/-- A normal script writes down a tidy draft of a property. -/
theorem PropertyDraft.tidy_of_script (hs : (Json.arr script).IsNormal) {d : PropertyDraft}
    (h : steps? propertyStep? {} script = some d) : d.Tidy := by
  have hempty : PropertyDraft.Tidy {} := ⟨InteractionDraft.tidy_empty, nofun⟩
  exact steps?_keeps (fun hstep hd => hd.step (isNormal_of_mem_stepsOf hs hstep)) hempty h

/-- A normal script writes down a tidy draft of an action. -/
theorem ActionDraft.tidy_of_script (hs : (Json.arr script).IsNormal) {d : ActionDraft}
    (h : steps? actionStep? {} script = some d) : d.Tidy := by
  have hempty : ActionDraft.Tidy {} := ⟨InteractionDraft.tidy_empty, nofun, nofun⟩
  exact steps?_keeps (fun hstep hd => hd.step (isNormal_of_mem_stepsOf hs hstep)) hempty h

/-- A normal script writes down a tidy draft of an event. -/
theorem EventDraft.tidy_of_script (hs : (Json.arr script).IsNormal) {d : EventDraft}
    (h : steps? eventStep? {} script = some d) : d.Tidy := by
  have hempty : EventDraft.Tidy {} := ⟨InteractionDraft.tidy_empty, nofun, nofun, nofun, nofun⟩
  exact steps?_keeps (fun hstep hd => hd.step (isNormal_of_mem_stepsOf hs hstep)) hempty h

end

/-! ## Things -/

namespace ThingDraft

/-- What a draft says about a thing is made of normal values. -/
structure Tidy (d : ThingDraft) : Prop where
  labels : d.labels.WellFormed
  properties : ∀ e ∈ d.properties, e.2.Tidy
  actions : ∀ e ∈ d.actions, e.2.Tidy
  events : ∀ e ∈ d.events, e.2.Tidy
  uriVariables : ∀ e ∈ d.uriVariables, e.2.Tidy
  securityDefinitions : ∀ e ∈ d.securityDefinitions, e.2.WellFormed
  sortedMetadata : Dict.Sorted d.metadata
  metadata : AllNormal d.metadata

/-- A step with normal arguments keeps the draft of a thing tidy. -/
theorem Tidy.step {d d' : ThingDraft} {name : String} {args : List Json} (hargs : ∀ v ∈ args, v.IsNormal)
    (hd : d.Tidy) (h : thingStep? d name args = some d') : d'.Tidy := by
  unfold thingStep? at h
  split at h
  -- what is not made of values: the texts, the security names, links and forms
  case h_1 | h_2 | h_3 | h_7 | h_8 | h_9 | h_12 =>
    cases h
    exact { hd with }
  case h_4 | h_5 | h_6 | h_10 | h_13 =>
    obtain ⟨x, -, rfl⟩ := Option.map_eq_some_iff.1 h
    exact { hd with }
  case h_11 =>
    obtain ⟨s, hs, rfl⟩ := Option.map_eq_some_iff.1 h
    have hscheme := wellFormed_of_securityScheme? (hargs _ (by simp)) hs
    exact { hd with securityDefinitions := Dict.forall_mem_concat hd.securityDefinitions hscheme }
  case h_14 =>
    obtain ⟨s, hs, rfl⟩ := Option.map_eq_some_iff.1 h
    have hschema := SchemaDraft.tidy_of_arg hargs (by simp) hs
    exact { hd with uriVariables := Dict.forall_mem_concat hd.uriVariables hschema }
  case h_15 =>
    obtain ⟨p, hp, rfl⟩ := Option.map_eq_some_iff.1 h
    have hproperty := PropertyDraft.tidy_of_script (hargs _ (by simp)) hp
    exact { hd with properties := Dict.forall_mem_concat hd.properties hproperty }
  case h_16 =>
    obtain ⟨a, ha, rfl⟩ := Option.map_eq_some_iff.1 h
    have haction := ActionDraft.tidy_of_script (hargs _ (by simp)) ha
    exact { hd with actions := Dict.forall_mem_concat hd.actions haction }
  case h_17 =>
    obtain ⟨e, he, rfl⟩ := Option.map_eq_some_iff.1 h
    have hevent := EventDraft.tidy_of_script (hargs _ (by simp)) he
    exact { hd with events := Dict.forall_mem_concat hd.events hevent }
  case h_18 =>
    cases h
    refine { hd with sortedMetadata := hd.sortedMetadata.insert _ _, metadata := fun e he => ?_ }
    rcases Dict.mem_insert he with rfl | he
    · exact hargs _ (by simp)
    · exact hd.metadata e he
  case h_19 =>
    obtain ⟨labels, hlabels, rfl⟩ := Option.map_eq_some_iff.1 h
    exact { hd with labels := wellFormed_of_label? hd.labels hlabels }

/-- A draft that a normal script writes down is tidy. -/
theorem tidy_of_script {id : String} {script : List Json} (hs : (Json.arr script).IsNormal) {d : ThingDraft}
    (h : ThingDraft.ofScript? id script = some d) : d.Tidy := by
  have hempty : Tidy { id } :=
    ⟨Labels.wellFormed_empty, List.forall_mem_nil _, List.forall_mem_nil _, List.forall_mem_nil _,
      List.forall_mem_nil _, List.forall_mem_nil _, Dict.sorted_nil, allNormal_nil⟩
  exact steps?_keeps (fun hstep hd => hd.step (isNormal_of_mem_stepsOf hs hstep)) hempty h

end ThingDraft
end WebOfThings
