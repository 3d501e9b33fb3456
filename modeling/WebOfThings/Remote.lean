import WebOfThings.Host.Basic

/-!
# Remote things

An interaction with a remote thing (`ConsumedThing`) goes through several stages: the affordance, the choice
of a form, its href and security, the client, the payload. The first stage that fails decides, and a later
failure never makes an earlier choice again.

The function `dispatch` of the program is split where the client is first spoken to. `select` chooses the
form: the one at the given index, or the first that supports the operation and whose scheme has a client.
`prepare` settles everything that can be settled without the client: the expansion of the template, the
schemes in force, the credentials for the href. `dispatch` then asks the client for its consent with
`set_security`, and only a request that has it is ever sent. `Prepared` is what the program keeps in its
`Dispatch`.

Payloads are encoded in the media type of the form. A response is decoded in the media type that it reports,
else in the one that the form expects. `write_property` drops the answer of the client, and `invoke_action`
sends a request without content where there is no input. Streams of notifications are lists here: what the
client delivers, item by item, each of them a value or an error.

Main statement: `select_eq_ok_iff` (which form is chosen).
-/

namespace WebOfThings

/-- Why an interaction with a remote thing fails. -/
inductive RemoteError where
  | unknown (e : UnknownAffordance)
  /-- No form is suitable. -/
  | noForm (target : String) (op : Operation)
  /-- There is no form with the given index. -/
  | invalidFormIndex (target : String) (index : Nat)
  | template (e : Template.Error)
  | credentials (e : CredentialsError)
  | undeclaredSecurity (e : UndeclaredSecurity)
  /-- The client does not understand the security schemes. -/
  | securityDeclined (scheme href : String)
  /-- A payload cannot be converted. -/
  | content (href : String) (source : CodecError)
  /-- The client failed. -/
  | protocol (href : String) (source : ClientError)
  deriving DecidableEq

/-- The wording of the error, if the fault of its payload has one. -/
def RemoteError.message? : RemoteError → Option String
  | unknown e => some e.message
  | noForm target op => some ("No form of " ++ target ++ " can be used to " ++ op.name)
  | invalidFormIndex target index =>
    some (target ++ " has no form at index " ++ String.ofList (Number.digits index))
  | template e => some e.message
  | credentials e => some e.message
  | undeclaredSecurity e => some e.message
  | securityDeclined scheme href =>
    some ("The protocol client does not support the security scheme " ++ scheme ++ " of \"" ++ href ++
      "\"")
  | content href source =>
    source.message?.map fun m => "Unable to convert the payload of \"" ++ href ++ "\": " ++ m
  | protocol href source =>
    some ("Interaction with \"" ++ href ++ "\" failed: " ++ source.message)

namespace Remote

variable {ω : Type}

/-- What an interaction is about. -/
structure Target where
  type : AffordanceType
  name : String
  op : Operation
  deriving DecidableEq

/-- The target for people. -/
def Target.label (target : Target) (t : Thing) : String :=
  target.type.word ++ " \"" ++ target.name ++ "\" of \"" ++ t.id ++ "\""

/-! ## Choosing a form -/

/-- The forms to choose from: all of them, or the one with the given index. -/
def candidates (label : String) (index : Option Nat) (forms : List Form) :
    Except RemoteError (List Form) :=
  match index with
  | none => .ok forms
  | some i =>
    match forms[i]? with
    | some f => .ok [f]
    | none => .error (.invalidFormIndex label i)

/-- The factory for a form of a thing, if the form is suitable for an operation. -/
def suitable? (h : Host ω) (t : Thing) (op : Operation) (f : Form) : Option (ClientFactory ω) :=
  if f.supports op then (PlacedForm.scheme? ⟨f, t⟩).bind h.factory? else none

/-- The first suitable form with its factory. -/
def firstSuitable? (h : Host ω) (t : Thing) (op : Operation) :
    List Form → Option (Form × ClientFactory ω)
  | [] => none
  | f :: rest =>
    match suitable? h t op f with
    | some factory => some (f, factory)
    | none => firstSuitable? h t op rest

/-- The form that an interaction uses, with its factory. -/
def select (h : Host ω) (t : Thing) (target : Target) (i : Interaction) (index : Option Nat) :
    Except RemoteError (Form × ClientFactory ω) :=
  match candidates (target.label t) index i.forms with
  | .error e => .error e
  | .ok forms =>
    match firstSuitable? h t target.op forms with
    | some chosen => .ok chosen
    | none => .error (.noForm (target.label t) target.op)

/-- The form that is chosen is the first suitable one. -/
theorem firstSuitable?_eq_some_iff {h : Host ω} {t : Thing} {op : Operation} {forms : List Form}
    {f : Form} {factory : ClientFactory ω} :
    firstSuitable? h t op forms = some (f, factory) ↔
      ∃ before after, forms = before ++ f :: after ∧ suitable? h t op f = some factory ∧
        ∀ g ∈ before, suitable? h t op g = none := by
  induction forms with
  | nil => simp [firstSuitable?]
  | cons g rest ih =>
    unfold firstSuitable?
    cases hg : suitable? h t op g with
    | some other =>
      constructor
      · intro he
        cases he
        -- The first form is suitable, so nothing can stand before the one that is chosen.
        exact ⟨[], rest, rfl, hg, by simp⟩
      · rintro ⟨before, after, hforms, hf, hbefore⟩
        cases before with
        | nil =>
          cases hforms
          rw [hg] at hf
          cases hf
          rfl
        | cons b bs =>
          injection hforms with hgb _
          subst hgb
          have := hbefore g (by simp)
          rw [hg] at this
          cases this
    | none =>
      simp only [ih]
      constructor
      · rintro ⟨before, after, rfl, hf, hbefore⟩
        exact ⟨g :: before, after, rfl, hf, by simpa [hg] using hbefore⟩
      · rintro ⟨before, after, hforms, hf, hbefore⟩
        cases before with
        | nil =>
          cases hforms
          rw [hg] at hf
          cases hf
        | cons b bs =>
          cases hforms
          exact ⟨bs, after, rfl, hf, fun x hx => hbefore x (by simp [hx])⟩

/-- Without an index, the chosen form is the first one that is suitable. -/
theorem select_eq_ok_iff {h : Host ω} {t : Thing} {target : Target} {i : Interaction} {f : Form}
    {factory : ClientFactory ω} :
    select h t target i none = .ok (f, factory) ↔
      ∃ before after, i.forms = before ++ f :: after ∧
        suitable? h t target.op f = some factory ∧
        ∀ g ∈ before, suitable? h t target.op g = none := by
  rw [← firstSuitable?_eq_some_iff]
  simp only [select, candidates]
  cases firstSuitable? h t target.op i.forms <;> simp

/-! ## Preparing a request -/

/-- A request that is ready except for the consent of the client. -/
structure Prepared (ω : Type) where
  client : ProtocolClient ω
  /-- The form with its href expanded. -/
  form : Form
  schemes : List SecurityScheme
  credentials : Option Credentials

/-- Everything that can be settled before the client is asked. -/
def prepare (h : Host ω) (t : Thing) (target : Target) (options : InteractionOptions) :
    Except RemoteError (Prepared ω) :=
  match t.interaction? target.type target.name with
  | none => .error (.unknown ⟨t.id, target.type, target.name⟩)
  | some i =>
    match select h t target i options.formIndex with
    | .error e => .error e
    | .ok (f, factory) =>
      let placed : PlacedForm := ⟨f, t⟩
      match placed.resolve i.uriVariables options.uriVariables with
      | .error e => .error (.template e)
      | .ok form =>
        match placed.schemes with
        | .error e => .error (.undeclaredSecurity e)
        | .ok schemes =>
          match h.credentials.resolve schemes form.href (some t.id) with
          | .error e => .error (.credentials e)
          | .ok credentials => .ok ⟨factory.client, form, schemes, credentials⟩

/-- The error for schemes that the client does not understand. -/
def Prepared.declined (p : Prepared ω) : RemoteError :=
  let mechanism :=
    match p.schemes with
    | [] => Mechanism.noSecurity
    | s :: _ => s.mechanism
  .securityDeclined mechanism.label p.form.href

/-- The request once the client consents to its security. -/
def dispatch (h : Host ω) (t : Thing) (target : Target) (options : InteractionOptions) (w : ω) :
    Except RemoteError (Prepared ω) × ω :=
  match prepare h t target options with
  | .error e => (.error e, w)
  | .ok p =>
    match p.client.setSecurity p.schemes p.credentials w with
    | (true, w) => (.ok p, w)
    | (false, w) => (.error p.declined, w)

/-- The content of a value in the media type of the form. -/
def encode (h : Host ω) (p : Prepared ω) (v : Json) : Except RemoteError Content :=
  match h.codecs.encode v p.form.contentTypeOrDefault with
  | .ok content => .ok content
  | .error e => .error (.content p.form.href e)

/-- The value of a content, in the media type of the response unless it has its own. -/
def decode (h : Host ω) (p : Prepared ω) (content : Content) (schema : Option DataSchema) :
    Except RemoteError Json :=
  match h.codecs.decode content p.form.responseType schema with
  | .ok v => .ok v
  | .error e => .error (.content p.form.href e)

/-! ## Interactions -/

/-- Reading a property. -/
def readProperty (h : Host ω) (t : Thing) (name : String) (options : InteractionOptions) (w : ω) :
    Except RemoteError Json × ω :=
  match dispatch h t ⟨.property, name, .readProperty⟩ options w with
  | (.error e, w) => (.error e, w)
  | (.ok p, w) =>
    match p.client.read p.form w with
    | (.error e, w) => (.error (.protocol p.form.href e), w)
    | (.ok content, w) =>
      (decode h p content ((Dict.get? name t.properties).map (·.schema)), w)

/-- Writing a property. What the client answers is of no interest. -/
def writeProperty (h : Host ω) (t : Thing) (name : String) (v : Json) (options : InteractionOptions)
    (w : ω) : Except RemoteError Unit × ω :=
  match dispatch h t ⟨.property, name, .writeProperty⟩ options w with
  | (.error e, w) => (.error e, w)
  | (.ok p, w) =>
    match encode h p v with
    | .error e => (.error e, w)
    | .ok content =>
      match p.client.write p.form content w with
      | (.error e, w) => (.error (.protocol p.form.href e), w)
      | (.ok _, w) => (.ok (), w)

/-- The content of an input that may be missing. -/
def encodeOptional (h : Host ω) (p : Prepared ω) :
    Option Json → Except RemoteError (Option Content)
  | none => .ok none
  | some v => (encode h p v).map some

/-- Invoking an action, with or without input. -/
def invokeAction (h : Host ω) (t : Thing) (name : String) (input : Option Json)
    (options : InteractionOptions) (w : ω) : Except RemoteError Json × ω :=
  match dispatch h t ⟨.action, name, .invokeAction⟩ options w with
  | (.error e, w) => (.error e, w)
  | (.ok p, w) =>
    match encodeOptional h p input with
    | .error e => (.error e, w)
    | .ok content =>
      match p.client.invoke p.form content w with
      | (.error e, w) => (.error (.protocol p.form.href e), w)
      | (.ok output, w) => (decode h p output ((Dict.get? name t.actions).bind (·.output)), w)

/-- The notifications of a target, each of them a value or an error. -/
def notifications (h : Host ω) (t : Thing) (target : Target) (schema : Option DataSchema)
    (options : InteractionOptions) (w : ω) :
    Except RemoteError (List (Except RemoteError Json)) × ω :=
  match dispatch h t target options w with
  | (.error e, w) => (.error e, w)
  | (.ok p, w) =>
    match p.client.observe p.form w with
    | (.error e, w) => (.error (.protocol p.form.href e), w)
    | (.ok items, w) =>
      (.ok (items.map fun
        | .ok content => decode h p content schema
        | .error e => .error (.protocol p.form.href e)), w)

/-- Observing a property. -/
def observeProperty (h : Host ω) (t : Thing) (name : String) (options : InteractionOptions) (w : ω) :
    Except RemoteError (List (Except RemoteError Json)) × ω :=
  notifications h t ⟨.property, name, .observeProperty⟩
    ((Dict.get? name t.properties).map (·.schema)) options w

/-- Subscribing to an event. -/
def subscribeEvent (h : Host ω) (t : Thing) (name : String) (options : InteractionOptions) (w : ω) :
    Except RemoteError (List (Except RemoteError Json)) × ω :=
  notifications h t ⟨.event, name, .subscribeEvent⟩
    ((Dict.get? name t.events).bind (·.data)) options w

/-! ## Several properties at once -/

/-- Reading properties one after the other; of a name that is repeated the last result is kept. -/
def readProperties (h : Host ω) (t : Thing) :
    List String → Dict (Except RemoteError Json) → ω → Dict (Except RemoteError Json) × ω
  | [], results, w => (results, w)
  | name :: rest, results, w =>
    let (result, w) := readProperty h t name {} w
    readProperties h t rest (results.insert name result) w

/-- Reading all properties. -/
def readAllProperties (h : Host ω) (t : Thing) (w : ω) : Dict (Except RemoteError Json) × ω :=
  readProperties h t (Dict.keys t.properties) [] w

/-- Writing properties one after the other; a failure concerns its own property only. -/
def writeProperties (h : Host ω) (t : Thing) :
    List (String × Json) → Dict (Except RemoteError Unit) → ω → Dict (Except RemoteError Unit) × ω
  | [], results, w => (results, w)
  | (name, v) :: rest, results, w =>
    let (result, w) := writeProperty h t name v {} w
    writeProperties h t rest (results.insert name result) w

end Remote
end WebOfThings
