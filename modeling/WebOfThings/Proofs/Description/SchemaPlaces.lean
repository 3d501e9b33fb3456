import WebOfThings.Proofs.Description.SchemaTypes
import WebOfThings.Proofs.Description.Thing

/-!
# Places of schemas

Schemas stand all over a description: for the values of properties, for what actions take and give, for what
events send and take, and for the variables of a thing and of its affordances (`SchemaPlace`). At every
place there is a schema and the value of it, or neither (`FieldsRead.rel_schema?`).

So a schema has the type that its value names wherever it stands, and a description with something wrong
about a type is not read at all (`types_kept`).

The places are an enumeration, with the way to the schema (`Thing.schema?`) and the way to its value
(`SchemaPlace.value?`) for each of them, and the proof goes through it once, side by side. What happens
inside of a schema is the business of its types; here it only counts that no place is forgotten. The
statement holds for descriptions of any size, at every place and every depth below it.
-/

namespace WebOfThings

/-- The member of a description that holds the affordances of a type. -/
def AffordanceType.memberName : AffordanceType → String
  | property => "properties"
  | action => "actions"
  | event => "events"

/-- A place of a description where a schema stands. -/
inductive SchemaPlace where
  | property (name : String)
  | input (action : String)
  | output (action : String)
  | subscription (event : String)
  | data (event : String)
  | dataResponse (event : String)
  | cancellation (event : String)
  /-- A variable of the thing as a whole. -/
  | uriVariable (name : String)
  /-- A variable of an affordance. -/
  | uriVariableOf (type : AffordanceType) (affordance name : String)

/-- The value of an affordance. -/
def Json.affordance? (v : Json) (type : AffordanceType) (name : String) : Option Json :=
  (v.get? type.memberName).bind (Json.get? name)

/-- The value of a declared variable. -/
def Json.uriVariable? (v : Json) (name : String) : Option Json :=
  (v.get? "uriVariables").bind (Json.get? name)

/-- The value of the schema at a place of a description. -/
def SchemaPlace.value? (v : Json) : SchemaPlace → Option Json
  | property name => v.affordance? .property name
  | input action => (v.affordance? .action action).bind (Json.given? "input")
  | output action => (v.affordance? .action action).bind (Json.given? "output")
  | subscription event => (v.affordance? .event event).bind (Json.given? "subscription")
  | data event => (v.affordance? .event event).bind (Json.given? "data")
  | dataResponse event => (v.affordance? .event event).bind (Json.given? "dataResponse")
  | cancellation event => (v.affordance? .event event).bind (Json.given? "cancellation")
  | uriVariable name => v.uriVariable? name
  | uriVariableOf type affordance name => (v.affordance? type affordance).bind (·.uriVariable? name)

open Json DataSchema

/-- The value describes what an affordance has in common with all others. -/
def Interaction.ReadFrom (i : Interaction) (v : Json) : Prop :=
  ∃ m, v = .obj m ∧ Interaction.ofMembers? m = some i

/-- The variables that are read are described where the value has them. -/
theorem rel_uriVariables {m : List (String × Json)} {d : Dict DataSchema}
    (h : withDefault? (asDict? DataSchema.ofJson?) [] "uriVariables" m = some d) (name : String) :
    Option.Rel Describes ((Json.obj m).uriVariable? name) (Dict.get? name d) :=
  rel_imp (rel_get?_of_dictField h name) describes_of_ofJson?

/-- So are the variables of an interaction. -/
theorem Interaction.ReadFrom.rel_uriVariable? {v : Json} {i : Interaction} (h : i.ReadFrom v) (name : String) :
    Option.Rel Describes (v.uriVariable? name) (Dict.get? name i.uriVariables) := by
  obtain ⟨m, rfl, h⟩ := h
  simp only [Interaction.ofMembers?, Option.bind_eq_bind, Option.bind_eq_some_iff] at h
  obtain ⟨_, -, _, -, uriVariables, hvariables, h⟩ := h
  cases h
  exact rel_uriVariables hvariables name

/-- A schema that may be missing is described where the value has one. -/
theorem rel_optionalSchema {m : List (String × Json)} {x : Option DataSchema} {key : String}
    (h : optional? DataSchema.ofJson? key m = some x) : Option.Rel Describes ((Json.obj m).given? key) x :=
  rel_imp (rel_given? h) describes_of_ofJson?

/-- The value of a property describes what the property has in common with other affordances, and the schema
of the property. -/
theorem PropertyAffordance.described_of_ofJson? {v : Json} {p : PropertyAffordance} (h : ofJson? v = some p) :
    p.interaction.ReadFrom v ∧ Describes v p.schema := by
  cases v with
  | obj m =>
    simp only [ofJson?, Option.bind_eq_bind, Option.bind_eq_some_iff] at h
    obtain ⟨i, hi, s, hs, _, -, h⟩ := h
    cases h
    refine ⟨⟨m, rfl, hi⟩, m, schemaMembers m, rfl, hs, fun key hkey => ?_⟩
    -- The interaction takes nothing that the type depends on.
    have hother : ∀ k ∈ typingNames, k ∉ Interaction.fieldNames := by decide
    rw [get?_schemaMembers, if_neg (hother key hkey)]
  | _ => cases h

/-- The schemas of an action are described where its value has them. -/
theorem ActionAffordance.described_of_ofJson? {v : Json} {a : ActionAffordance} (h : ofJson? v = some a) :
    a.interaction.ReadFrom v ∧ Option.Rel Describes (v.given? "input") a.input ∧
      Option.Rel Describes (v.given? "output") a.output := by
  cases v with
  | obj m =>
    simp only [ofJson?, Option.bind_eq_bind, Option.bind_eq_some_iff] at h
    obtain ⟨i, hi, input, hinput, output, houtput, _, -, _, -, _, -, h⟩ := h
    cases h
    exact ⟨⟨m, rfl, hi⟩, rel_optionalSchema hinput, rel_optionalSchema houtput⟩
  | _ => cases h

/-- The schemas of an event are described where its value has them. -/
theorem EventAffordance.described_of_ofJson? {v : Json} {e : EventAffordance} (h : ofJson? v = some e) :
    e.interaction.ReadFrom v ∧ Option.Rel Describes (v.given? "subscription") e.subscription ∧
      Option.Rel Describes (v.given? "data") e.data ∧
      Option.Rel Describes (v.given? "dataResponse") e.dataResponse ∧
      Option.Rel Describes (v.given? "cancellation") e.cancellation := by
  cases v with
  | obj m =>
    simp only [ofJson?, Option.bind_eq_bind, Option.bind_eq_some_iff] at h
    obtain ⟨i, hi, subscription, hsubscription, data, hdata, dataResponse, hdataResponse, cancellation,
      hcancellation, h⟩ := h
    cases h
    exact ⟨⟨m, rfl, hi⟩, rel_optionalSchema hsubscription, rel_optionalSchema hdata,
      rel_optionalSchema hdataResponse, rel_optionalSchema hcancellation⟩
  | _ => cases h

namespace Thing

/-- The schema at a place of a description. -/
def schema? (t : Thing) : SchemaPlace → Option DataSchema
  | .property name => (Dict.get? name t.properties).map (·.schema)
  | .input action => (Dict.get? action t.actions).bind (·.input)
  | .output action => (Dict.get? action t.actions).bind (·.output)
  | .subscription event => (Dict.get? event t.events).bind (·.subscription)
  | .data event => (Dict.get? event t.events).bind (·.data)
  | .dataResponse event => (Dict.get? event t.events).bind (·.dataResponse)
  | .cancellation event => (Dict.get? event t.events).bind (·.cancellation)
  | .uriVariable name => Dict.get? name t.uriVariables
  | .uriVariableOf type affordance name =>
    (t.interaction? type affordance).bind fun i => Dict.get? name i.uriVariables

variable {c : Context} {m : List (String × Json)} {t : Thing}

/-- An affordance is read from the value under its name. -/
theorem FieldsRead.rel_interaction? (h : FieldsRead c m t) (type : AffordanceType) (name : String) :
    Option.Rel (fun v i => Interaction.ReadFrom i v) ((Json.obj m).affordance? type name)
      (t.interaction? type name) := by
  cases type with
  | property =>
    exact rel_map_right (rel_get?_of_dictField h.properties name) fun hp =>
      (PropertyAffordance.described_of_ofJson? hp).1
  | action =>
    exact rel_map_right (rel_get?_of_dictField h.actions name) fun ha =>
      (ActionAffordance.described_of_ofJson? ha).1
  | event =>
    exact rel_map_right (rel_get?_of_dictField h.events name) fun he =>
      (EventAffordance.described_of_ofJson? he).1

/-- At every place there is a schema and a value that describes it, or neither. -/
theorem FieldsRead.rel_schema? (h : FieldsRead c m t) (place : SchemaPlace) :
    Option.Rel Describes (place.value? (.obj m)) (t.schema? place) := by
  cases place with
  | property name =>
    exact rel_map_right (rel_get?_of_dictField h.properties name) fun hp =>
      (PropertyAffordance.described_of_ofJson? hp).2
  | input action =>
    exact rel_bind (rel_get?_of_dictField h.actions action) fun ha =>
      (ActionAffordance.described_of_ofJson? ha).2.1
  | output action =>
    exact rel_bind (rel_get?_of_dictField h.actions action) fun ha =>
      (ActionAffordance.described_of_ofJson? ha).2.2
  | subscription event =>
    exact rel_bind (rel_get?_of_dictField h.events event) fun he =>
      (EventAffordance.described_of_ofJson? he).2.1
  | data event =>
    exact rel_bind (rel_get?_of_dictField h.events event) fun he =>
      (EventAffordance.described_of_ofJson? he).2.2.1
  | dataResponse event =>
    exact rel_bind (rel_get?_of_dictField h.events event) fun he =>
      (EventAffordance.described_of_ofJson? he).2.2.2.1
  | cancellation event =>
    exact rel_bind (rel_get?_of_dictField h.events event) fun he =>
      (EventAffordance.described_of_ofJson? he).2.2.2.2
  | uriVariable name => exact rel_uriVariables h.uriVariables name
  | uriVariableOf type affordance name =>
    exact rel_bind (h.rel_interaction? type affordance) fun hi => hi.rel_uriVariable? name

/-- Whatever is read, every schema has the type that its value names and is variable if it names none, at
every depth and at every place; and where a value in the place of a schema is wrong for its type, nothing is
read at all. -/
theorem types_kept (v : Json) :
    (∀ s, DataSchema.ofJson? v = some s → KeepsTypes v s) ∧
      (∀ p, PropertyAffordance.ofJson? v = some p → KeepsTypes v p.schema) ∧
      (∀ t, ofJson v = .ok t → ∀ place : SchemaPlace,
        Option.Rel KeepsTypes (place.value? v) (t.schema? place)) ∧
      (HoldsIllTyped v → DataSchema.ofJson? v = none ∧ PropertyAffordance.ofJson? v = none) ∧
      ∀ (place : SchemaPlace) (w : Json),
        place.value? v = some w → HoldsIllTyped w → ∃ e, ofJson v = .error e := by
  have hplaces : ∀ t, ofJson v = .ok t → ∀ place : SchemaPlace,
      Option.Rel Describes (place.value? v) (t.schema? place) := by
    intro t h place
    obtain ⟨m, c, rfl, -, hread⟩ := exists_of_ofJson h
    exact hread.rel_schema? place
  refine ⟨fun s h => (describes_of_ofJson? h).keepsTypes,
    fun p h => (PropertyAffordance.described_of_ofJson? h).2.keepsTypes,
    fun t h place => rel_imp (hplaces t h place) Describes.keepsTypes, fun hill => ⟨?_, ?_⟩, ?_⟩
  · refine Option.eq_none_iff_forall_ne_some.2 fun s h => ?_
    exact (describes_of_ofJson? h).not_holdsIllTyped hill
  · refine Option.eq_none_iff_forall_ne_some.2 fun p h => ?_
    exact (PropertyAffordance.described_of_ofJson? h).2.not_holdsIllTyped hill
  · -- A description that was read would keep the types of `w` at this place, which cannot be kept.
    intro place w hw hill
    cases h : ofJson v with
    | error e => exact ⟨e, rfl⟩
    | ok t =>
      have hplace := hplaces t h place
      rw [hw] at hplace
      obtain ⟨s, -, hs⟩ := exists_of_rel_some hplace
      exact absurd hill hs.not_holdsIllTyped

/-- The value of the schema of an event: a list of values that are objects with a member of a given type, or
anything. -/
def alarmData (type : String) : Json :=
  .obj
    [("type", .str "array"),
     ("items", .obj
       [("oneOf", .arr
         [.obj [("type", .str "object"), ("properties", .obj [("level", .obj [("type", .str type)])])],
          .obj [("title", .str "Any")]])])]

/-- A description with that event. -/
def alarmDescription (type : String) : Json :=
  .obj [("id", .str "urn:lamp"), ("events", .obj [("alarm", .obj [("data", alarmData type)])])]

theorem types_kept_of_alarm :
    (∃ t s, ofJson (alarmDescription "integer") = .ok t ∧ t.schema? (.data "alarm") = some s ∧
      KeepsTypes (alarmData "integer") s) ∧
    (alarmData "int").schemaAt? [.item 0, .alternative 0, .member "level"] =
      some (.obj [("type", .str "int")]) ∧
    ∃ e, ofJson (alarmDescription "int") = .error e := by
  refine ⟨?_, rfl, ?_⟩
  · have hread : ∃ t, ofJson (alarmDescription "integer") = .ok t := ⟨_, rfl⟩
    obtain ⟨t, h⟩ := hread
    obtain ⟨s, hs, hkeeps⟩ := exists_of_rel_some ((types_kept _).2.2.1 t h (.data "alarm"))
    exact ⟨t, s, h, hs, hkeeps⟩
  · refine (types_kept _).2.2.2.2 (.data "alarm") (alarmData "int") rfl ?_
    have hunknown : ∀ name ∈ typeNames, Json.str "int" ≠ .str name := by simp [typeNames]
    exact ⟨[.item 0, .alternative 0, .member "level"], .obj [("type", .str "int")], rfl,
      .unknownType rfl hunknown⟩

end Thing
end WebOfThings
