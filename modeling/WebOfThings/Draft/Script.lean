import WebOfThings.Draft.Thing

/-!
# Draft scripts

A draft can be given as a list of steps, each of them an array with a name and its arguments, such as
`["title", "Lamp"]`. Steps are taken one after the other: those that set something replace what was set
before, those that add something keep it. Steps may hold scripts of their own, for affordances, forms and
schemas.

A step is one call of a builder, and its name is that of the method: `title`, `context_prefix`,
`security_definition`, `one_of`, `minimum`. What the types of the builders rule out, a step does not
understand, and a script with such a step describes no draft (`steps?` gives `none`): restricting a number
where a text has been chosen, an item of an object, a step with arguments of the wrong kind.

A schema step is one of three. It adds a part, it chooses a type (`chosenKind?`), or it restricts the type
that has been chosen (`restrict?`); everything else is said about schemas of all types (`schemaField?`).

Main definitions: `SchemaDraft.ofScript?` and `ThingDraft.ofScript?`.
-/

namespace WebOfThings

namespace Script

/-- A script read as steps on a draft of type `δ`; `none` if one of them is not understood. -/
def steps? {δ : Type} (step? : δ → String → List Json → Option δ) : δ → List Json → Option δ
  | d, [] => some d
  | d, .arr (.str name :: args) :: rest => (step? d name args).bind fun d => steps? step? d rest
  | _, _ :: _ => none

/-- The entries of a table, written as pairs. -/
def pairs? : List Json → Option (List (String × String))
  | [] => some []
  | .arr [.str a, .str b] :: rest => (pairs? rest).map ((a, b) :: ·)
  | _ :: _ => none

/-- A step on labels. -/
def label? (l : Labels) (name : String) (args : List Json) : Option Labels :=
  match name, args with
  | "attype", [.str s] => some (l.addType s)
  | "title", [.str s] => some { l with title := some s }
  | "titles", [.arr v] => (pairs? v).map fun e => { l with titles := some (Dict.ofList e) }
  | "description", [.str s] => some { l with description := some s }
  | "descriptions", [.arr v] =>
    (pairs? v).map fun e => { l with descriptions := some (Dict.ofList e) }
  | _, _ => none

/-! ## Schemas -/

/-- A double, which may also be one of the values that are no numbers of JSON. -/
def double? : Json → Option Binary64
  | .str "NaN" => some .nan
  | .str "inf" => some (.infinity false)
  | .str "-inf" => some (.infinity true)
  | v => v.asBinary64?

/-- A step on bounds. -/
def bound? {α : Type} (b : Bounds α) (name : String) (x : α) : Option (Bounds α) :=
  match name with
  | "minimum" => some { b with minimum := some x }
  | "maximum" => some { b with maximum := some x }
  | "exclusive_minimum" => some { b with exclusiveMinimum := some x }
  | "exclusive_maximum" => some { b with exclusiveMaximum := some x }
  | "multiple_of" => some { b with multipleOf := some x }
  | _ => none

/-- The type that a step chooses, with nothing said about its values yet. -/
def chosenKind? (name : String) (args : List Json) : Option DraftKind :=
  match name, args with
  | "bool", [] => some .boolean
  | "null", [] => some .null
  | "number", [] => some (.number {})
  | "integer", [] => some (.integer {})
  | "string", [] => some (.string {})
  | "array", [] => some (.array none none)
  | "object", [] => some .object
  | _, _ => none

/-- A step that restricts the values of the type that has been chosen. -/
def restrict? (k : DraftKind) (name : String) (args : List Json) : Option DraftKind :=
  match name, args, k with
  | _, [v], .number b => (double? v).bind fun x => (bound? b name x).map .number
  | _, [v], .integer b => v.asInt64?.bind fun x => (bound? b name x).map .integer
  | "min_length", [v], .string r => v.asUInt32?.map fun n => .string { r with minLength := some n }
  | "max_length", [v], .string r => v.asUInt32?.map fun n => .string { r with maxLength := some n }
  | "pattern", [.str s], .string r => some (.string { r with pattern := some s })
  | "content_encoding", [.str s], .string r => some (.string { r with contentEncoding := some s })
  | "content_media_type", [.str s], .string r => some (.string { r with contentMediaType := some s })
  | "min_items", [v], .array _ high => v.asUInt32?.map fun n => .array (some n) high
  | "max_items", [v], .array low _ => v.asUInt32?.map fun n => .array low (some n)
  | _, _, _ => none

/-- A step on a schema that adds no part to it. -/
def schemaField? (d : SchemaDraft) (name : String) (args : List Json) : Option SchemaDraft :=
  match name, args with
  | "constant", [v] => some { d with constant := some v }
  | "default_value", [v] => some { d with default := some v }
  | "unit", [.str s] => some { d with unit := some s }
  | "format", [.str s] => some { d with format := some s }
  | "enumeration", [v] => some (d.addValue v)
  | "read_only", [] => some { d with readOnly := true }
  | "write_only", [] => some { d with writeOnly := true }
  | _, _ =>
    match label? d.labels name args, chosenKind? name args with
    | some labels, _ => some { d with labels }
    | none, some kind => some (d.choose kind)
    | none, none => (restrict? d.kind name args).map fun kind => { d with kind }

mutual

/-- The draft of a schema after the steps of a script. -/
def schema? (d : SchemaDraft) : List Json → Option SchemaDraft
  | [] => some d
  | .arr (.str name :: args) :: rest =>
    match schemaStep? d name args with
    | some d => schema? d rest
    | none => none
  | _ :: _ => none

/-- A step on a schema. -/
def schemaStep? (d : SchemaDraft) (name : String) : List Json → Option SchemaDraft
  | [.arr script] =>
    if name = "one_of" then (schema? {} script).bind (d.addPart? .alternative)
    else if name = "item" then (schema? {} script).bind (d.addPart? .item)
    else schemaField? d name [.arr script]
  | [.str member, .bool required, .arr script] =>
    if name = "property" then (schema? {} script).bind (d.addPart? (.member member required))
    else none
  | args => schemaField? d name args

end

/-! ## Forms and affordances -/

/-- A step on a form. -/
def formStep? (f : Form) (name : String) (args : List Json) : Option Form :=
  match name, args with
  | "href", [.str s] => some { f with href := s }
  | "content_type", [.str s] => some { f with contentType := some s }
  | "content_coding", [.str s] => some { f with contentCoding := some s }
  | "subprotocol", [.str s] => some { f with subprotocol := some s }
  | "op", [.str s] => (Operation.ofName? s).map f.allow
  | "security", [.str s] => some (f.secure s)
  | "scope", [.str s] => some (f.withScope s)
  | "response_content_type", [.str s] => some { f with response := some ⟨s⟩ }
  | "additional_response", [v] => (AdditionalResponse.ofJson? v).map f.withResponse
  | _, _ => none

/-- The form of a script. -/
def form? (script : List Json) : Option Form := steps? formStep? { href := "" } script

/-- A step on what all affordances have. -/
def interactionStep? (d : InteractionDraft) (name : String) (args : List Json) :
    Option InteractionDraft :=
  match name, args with
  | "form", [.arr script] => (form? script).map fun f => { d with forms := d.forms ++ [f] }
  | "uri_variable", [.str key, .arr script] =>
    (schema? {} script).map fun s => { d with uriVariables := d.uriVariables ++ [(key, s)] }
  | _, _ => (label? d.labels name args).map fun labels => { d with labels }

/-- A step on a property. -/
def propertyStep? (d : PropertyDraft) (name : String) (args : List Json) : Option PropertyDraft :=
  match name, args with
  | "schema", [.arr script] => (schema? {} script).map fun s => { d with schema := some s }
  | "observable", [.bool b] => some { d with observable := some b }
  | _, _ =>
    (interactionStep? d.interaction name args).map fun interaction => { d with interaction }

/-- A step on an action. -/
def actionStep? (d : ActionDraft) (name : String) (args : List Json) : Option ActionDraft :=
  match name, args with
  | "input", [.arr script] => (schema? {} script).map fun s => { d with input := some s }
  | "output", [.arr script] => (schema? {} script).map fun s => { d with output := some s }
  | "safe", [] => some { d with safe := true }
  | "idempotent", [] => some { d with idempotent := true }
  | "synchronous", [.bool b] => some { d with synchronous := some b }
  | _, _ =>
    (interactionStep? d.interaction name args).map fun interaction => { d with interaction }

/-- A step on an event. -/
def eventStep? (d : EventDraft) (name : String) (args : List Json) : Option EventDraft :=
  match name, args with
  | "subscription", [.arr script] =>
    (schema? {} script).map fun s => { d with subscription := some s }
  | "data", [.arr script] => (schema? {} script).map fun s => { d with data := some s }
  | "data_response", [.arr script] =>
    (schema? {} script).map fun s => { d with dataResponse := some s }
  | "cancellation", [.arr script] =>
    (schema? {} script).map fun s => { d with cancellation := some s }
  | _, _ =>
    (interactionStep? d.interaction name args).map fun interaction => { d with interaction }

/-! ## Things -/

/-- A security scheme, or the name of a mechanism that is left at its defaults. -/
def securityScheme? : Json → Option SecurityScheme
  | .str name => (MechanismName.ofName? name).map fun m => { mechanism := Mechanism.default m }
  | v => SecurityScheme.ofJson? v

/-- A step on a thing. -/
def thingStep? (d : ThingDraft) (name : String) (args : List Json) : Option ThingDraft :=
  match name, args with
  | "context", [.str s] => some { d with context := some s }
  | "context_prefix", [.str key, .str iri] =>
    some { d with prefixes := d.prefixes ++ [(key, iri)] }
  | "version", [.str s] => some { d with version := some ⟨s, none⟩ }
  | "version", [v] => (VersionInfo.ofJson? v).map fun version => { d with version := some version }
  | "created", [.str s] => (Timestamp.ofString? s).map fun t => { d with created := some t }
  | "modified", [.str s] => (Timestamp.ofString? s).map fun t => { d with modified := some t }
  | "support", [.str s] => some { d with support := some s }
  | "base", [.str s] => some { d with base := some s }
  | "link", [.str s] => some { d with links := d.links ++ [{ href := s }] }
  | "link_with", [v] => (Link.ofJson? v).map fun l => { d with links := d.links ++ [l] }
  | "security_definition", [.str key, v] =>
    (securityScheme? v).map fun s =>
      { d with securityDefinitions := d.securityDefinitions ++ [(key, s)] }
  | "security", [.str s] => some { d with security := d.security ++ [s] }
  | "form", [.arr script] => (form? script).map fun f => { d with forms := d.forms ++ [f] }
  | "uri_variable", [.str key, .arr script] =>
    (schema? {} script).map fun s => { d with uriVariables := d.uriVariables ++ [(key, s)] }
  | "property", [.str key, .arr script] =>
    (steps? propertyStep? {} script).map fun p => { d with properties := d.properties ++ [(key, p)] }
  | "action", [.str key, .arr script] =>
    (steps? actionStep? {} script).map fun a => { d with actions := d.actions ++ [(key, a)] }
  | "event", [.str key, .arr script] =>
    (steps? eventStep? {} script).map fun e => { d with events := d.events ++ [(key, e)] }
  | "metadata", [.str key, v] => some { d with metadata := Dict.insert key v d.metadata }
  | _, _ => (label? d.labels name args).map fun labels => { d with labels }

end Script

/-- The draft of a schema that a script writes down. -/
def SchemaDraft.ofScript? (script : List Json) : Option SchemaDraft := Script.schema? {} script

/-- The draft of a thing with an id that a script writes down. -/
def ThingDraft.ofScript? (id : String) (script : List Json) : Option ThingDraft :=
  Script.steps? Script.thingStep? { id } script

end WebOfThings
