import WebOfThings.Proofs.Remote.Selection

/-!
# What clients receive

The five interactions with a remote thing have one shape: a request is dispatched, its payload is encoded,
the client is asked, and its answer is decoded (`perform_eq`). What the clients of a host receive on the way
is told by clients that note every call and then do what they did before (`Host.recording`).

`Request` lists the interactions with their payload and the kind of answer that each of them expects, so
that one function stands for all of them. Recording is a property of clients: a client is replaced by one
that notes what it is asked, and its answers, its consent and its effect on the world stay. The call that
sets the security up is noted as well, which is how a request that was declined is told apart from one that
was sent.

Main statements: `select_recording` (noting the calls changes no choice) and `carryOut_recording` (it
changes no outcome, and one request is noted unless its payload cannot be encoded).
-/

namespace WebOfThings

/-! ## Requests -/

/-- An interaction with a remote thing. -/
inductive Request where
  | readProperty (name : String)
  | writeProperty (name : String) (v : Json)
  | invokeAction (name : String) (input : Option Json)
  | observeProperty (name : String)
  | subscribeEvent (name : String)

/-- What an interaction results in. -/
inductive Reply where
  | value (v : Json)
  | done
  | notifications (items : List (Except RemoteError Json))

namespace Request

/-- What the interaction is about. -/
def target : Request → Remote.Target
  | readProperty name => ⟨.property, name, .readProperty⟩
  | writeProperty name _ => ⟨.property, name, .writeProperty⟩
  | invokeAction name _ => ⟨.action, name, .invokeAction⟩
  | observeProperty name => ⟨.property, name, .observeProperty⟩
  | subscribeEvent name => ⟨.event, name, .subscribeEvent⟩

/-- What goes with the request. -/
def Payload : Request → Type
  | writeProperty .. => Content
  | invokeAction .. => Option Content
  | _ => Unit

/-- What a client answers. -/
def Answer : Request → Type
  | readProperty _ | invokeAction .. => Content
  | writeProperty .. => Option Content
  | observeProperty _ | subscribeEvent _ => List (Except ClientError Content)

variable {ω : Type}

/-- The payload in the media type of the form. -/
def encode (h : Host ω) (p : Remote.Prepared ω) : (r : Request) → Except RemoteError r.Payload
  | readProperty _ => .ok ()
  | writeProperty _ v => Remote.encode h p v
  | invokeAction _ input => Remote.encodeOptional h p input
  | observeProperty _ => .ok ()
  | subscribeEvent _ => .ok ()

/-- Asking a client. -/
def send (client : ProtocolClient ω) (form : Form) :
    (r : Request) → r.Payload → Effect ω ClientError r.Answer
  | readProperty _, _ => client.read form
  | writeProperty .., content => client.write form content
  | invokeAction .., content => client.invoke form content
  | observeProperty _, _ => client.observe form
  | subscribeEvent _, _ => client.observe form

/-- The notifications of a stream, each of them decoded. -/
def decodeItems (h : Host ω) (p : Remote.Prepared ω) (schema : Option DataSchema)
    (items : List (Except ClientError Content)) : List (Except RemoteError Json) :=
  items.map fun
    | .ok content => Remote.decode h p content schema
    | .error e => .error (.protocol p.form.href e)

/-- What the answer of a client means. A notification that cannot be decoded is an item of its own. -/
def decode (h : Host ω) (t : Thing) (p : Remote.Prepared ω) :
    (r : Request) → r.Answer → Except RemoteError Reply
  | readProperty name, content =>
    (Remote.decode h p content ((Dict.get? name t.properties).map (·.schema))).map .value
  | writeProperty .., _ => .ok .done
  | invokeAction name _, output =>
    (Remote.decode h p output ((Dict.get? name t.actions).bind (·.output))).map .value
  | observeProperty name, items =>
    .ok (.notifications (decodeItems h p ((Dict.get? name t.properties).map (·.schema)) items))
  | subscribeEvent name, items =>
    .ok (.notifications (decodeItems h p ((Dict.get? name t.events).bind (·.data)) items))

end Request

namespace Remote

variable {ω : Type}

/-- An interaction with a remote thing. -/
def perform (h : Host ω) (t : Thing) (r : Request) (options : InteractionOptions) (w : ω) :
    Except RemoteError Reply × ω :=
  match r with
  | .readProperty name =>
    ((readProperty h t name options w).1.map .value, (readProperty h t name options w).2)
  | .writeProperty name v =>
    ((writeProperty h t name v options w).1.map fun _ => .done, (writeProperty h t name v options w).2)
  | .invokeAction name input =>
    ((invokeAction h t name input options w).1.map .value, (invokeAction h t name input options w).2)
  | .observeProperty name =>
    ((observeProperty h t name options w).1.map .notifications, (observeProperty h t name options w).2)
  | .subscribeEvent name =>
    ((subscribeEvent h t name options w).1.map .notifications, (subscribeEvent h t name options w).2)

/-- Carrying out a request that has been dispatched. -/
def carryOut (h : Host ω) (t : Thing) (r : Request) (p : Prepared ω) (w : ω) :
    Except RemoteError Reply × ω :=
  match r.encode h p with
  | .error e => (.error e, w)
  | .ok payload =>
    match r.send p.client p.form payload w with
    | (.error e, w) => (.error (.protocol p.form.href e), w)
    | (.ok answer, w) => (r.decode h t p answer, w)

/-- All interactions go through the same stages. -/
theorem perform_eq (h : Host ω) (t : Thing) (r : Request) (options : InteractionOptions) (w : ω) :
    perform h t r options w =
      match dispatch h t r.target options w with
      | (.error e, w) => (.error e, w)
      | (.ok p, w) => carryOut h t r p w := by
  -- The operations are written out one by one; each runs through the same stages, whatever they answer.
  cases r with
  | readProperty name =>
    simp only [perform, readProperty, Request.target]
    rcases dispatch h t ⟨.property, name, .readProperty⟩ options w with ⟨e | p, w'⟩
    · rfl
    · simp only [carryOut, Request.encode, Request.send]
      rcases p.client.read p.form w' with ⟨e | content, w''⟩ <;> rfl
  | writeProperty name v =>
    simp only [perform, writeProperty, Request.target]
    rcases dispatch h t ⟨.property, name, .writeProperty⟩ options w with ⟨e | p, w'⟩
    · rfl
    · simp only [carryOut, Request.encode, Request.send]
      cases encode h p v with
      | error e => rfl
      | ok content =>
        simp only
        rcases p.client.write p.form content w' with ⟨e | answer, w''⟩ <;> rfl
  | invokeAction name input =>
    simp only [perform, invokeAction, Request.target]
    rcases dispatch h t ⟨.action, name, .invokeAction⟩ options w with ⟨e | p, w'⟩
    · rfl
    · simp only [carryOut, Request.encode, Request.send]
      cases encodeOptional h p input with
      | error e => rfl
      | ok content =>
        simp only
        rcases p.client.invoke p.form content w' with ⟨e | output, w''⟩ <;> rfl
  | observeProperty name =>
    simp only [perform, observeProperty, notifications, Request.target]
    rcases dispatch h t ⟨.property, name, .observeProperty⟩ options w with ⟨e | p, w'⟩
    · rfl
    · simp only [carryOut, Request.encode, Request.send]
      rcases p.client.observe p.form w' with ⟨e | items, w''⟩ <;> rfl
  | subscribeEvent name =>
    simp only [perform, subscribeEvent, notifications, Request.target]
    rcases dispatch h t ⟨.event, name, .subscribeEvent⟩ options w with ⟨e | p, w'⟩
    · rfl
    · simp only [carryOut, Request.encode, Request.send]
      rcases p.client.observe p.form w' with ⟨e | items, w''⟩ <;> rfl

end Remote

/-! ## Clients that note their calls -/

/-- What is asked of a client once its security is set up. -/
inductive Exchange where
  | read
  | write (content : Content)
  | invoke (content : Option Content)
  | observe

/-- What a request asks of a client. -/
def Request.exchange : (r : Request) → r.Payload → Exchange
  | readProperty _, _ => .read
  | writeProperty .., content => .write content
  | invokeAction .., content => .invoke content
  | observeProperty _, _ => .observe
  | subscribeEvent _, _ => .observe

/-- A call that a client receives. The scheme is the one that the client is registered under. -/
inductive Call where
  | setSecurity (scheme : String) (schemes : List SecurityScheme) (credentials : Option Credentials)
    (consent : Bool)
  | request (scheme : String) (form : Form) (exchange : Exchange)

namespace Effect

variable {ω ε α : Type}

/-- A step that is noted. -/
def noting (step : Effect ω ε α) (call : Call) : Effect (ω × List Call) ε α :=
  fun s => ((step s.1).1, (step s.1).2, s.2 ++ [call])

/-- A step that is not noted. -/
def unnoted (step : Effect ω ε α) : Effect (ω × List Call) ε α :=
  fun s => ((step s.1).1, (step s.1).2, s.2)

end Effect

variable {ω : Type}

/-- The client, noting what it is asked and whether it consents to the security. -/
def ProtocolClient.recording (scheme : String) (c : ProtocolClient ω) :
    ProtocolClient (ω × List Call) where
  setSecurity schemes credentials s :=
    ((c.setSecurity schemes credentials s.1).1, (c.setSecurity schemes credentials s.1).2,
      s.2 ++ [.setSecurity scheme schemes credentials (c.setSecurity schemes credentials s.1).1])
  read form := (c.read form).noting (.request scheme form .read)
  write form content := (c.write form content).noting (.request scheme form (.write content))
  invoke form content := (c.invoke form content).noting (.request scheme form (.invoke content))
  observe form := (c.observe form).noting (.request scheme form .observe)
  discover filter := (c.discover filter).unnoted

/-- The factory of the clients that note their calls. -/
def ClientFactory.recording (scheme : String) (g : ClientFactory ω) : ClientFactory (ω × List Call) where
  scheme := g.scheme
  client := g.client.recording scheme
  init := g.init.unnoted
  destroy := g.destroy.unnoted

/-- The host whose clients note their calls. Interactions with remote things need neither its servers nor
its own things. -/
def Host.recording (h : Host ω) : Host (ω × List Call) where
  state := h.state
  factories := h.factories.mapEntries ClientFactory.recording
  credentials := h.credentials
  codecs := h.codecs
  channelCapacity := h.channelCapacity

/-- The host whose clients note their calls has the same factories, whose clients note theirs. -/
theorem Host.factory?_recording (h : Host ω) (scheme : String) :
    h.recording.factory? scheme =
      (h.factory? scheme).map (ClientFactory.recording (MediaType.lowerCase scheme)) := by
  rw [factory?, recording, Dict.get?_mapEntries]
  rfl

/-- A client that notes its calls answers and acts as it did, and notes the request. -/
theorem Request.send_recording (r : Request) (scheme : String) (c : ProtocolClient ω) (form : Form)
    (payload : r.Payload) (w : ω) (calls : List Call) :
    r.send (c.recording scheme) form payload (w, calls) =
      ((r.send c form payload w).1, (r.send c form payload w).2,
        calls ++ [.request scheme form (r.exchange payload)]) := by
  cases r <;> rfl

namespace Remote

/-- The request to the client that notes its calls. -/
def Prepared.recording (scheme : String) (p : Prepared ω) : Prepared (ω × List Call) :=
  ⟨p.client.recording scheme, p.form, p.schemes, p.credentials⟩

/-- The scheme under which the client of a form is registered. -/
def clientKey (t : Thing) (f : Form) : String := (PlacedForm.scheme? ⟨f, t⟩).getD ""

/-- Noting the calls changes nothing about which forms are suitable. -/
theorem suitable?_recording (h : Host ω) (t : Thing) (op : Operation) (f : Form) :
    suitable? h.recording t op f =
      (suitable? h t op f).map (ClientFactory.recording (clientKey t f)) := by
  simp only [suitable?, clientKey, PlacedForm.scheme?]
  split
  · cases Href.scheme? (PlacedForm.href ⟨f, t⟩) with
    | none => rfl
    | some scheme =>
      rw [Option.map_some, Option.bind_some, Option.bind_some, Option.getD_some, h.factory?_recording,
        MediaType.lowerCase_lowerCase]
  · rfl

theorem firstSuitable?_recording (h : Host ω) (t : Thing) (op : Operation) (forms : List Form) :
    firstSuitable? h.recording t op forms =
      (firstSuitable? h t op forms).map fun c => (c.1, c.2.recording (clientKey t c.1)) := by
  induction forms with
  | nil => rfl
  | cons f rest ih =>
    rw [firstSuitable?, firstSuitable?, suitable?_recording, ih]
    cases suitable? h t op f <;> rfl

/-- Noting the calls changes no choice. -/
theorem select_recording (h : Host ω) (t : Thing) (target : Target) (i : Interaction)
    (index : Option Nat) :
    select h.recording t target i index =
      (select h t target i index).map fun c => (c.1, c.2.recording (clientKey t c.1)) := by
  simp only [select]
  cases candidates (target.label t) index i.forms with
  | error e => rfl
  | ok forms =>
    simp only [firstSuitable?_recording]
    cases firstSuitable? h t target.op forms <;> rfl

/-- So it changes nothing about what a request is made of. -/
theorem complete_recording (h : Host ω) (t : Thing) (declared : Dict DataSchema) (supplied : Dict Json)
    (f : Form) (c : ProtocolClient ω) (scheme : String) :
    complete h.recording t declared supplied f (c.recording scheme) =
      (complete h t declared supplied f c).map (Prepared.recording scheme) := by
  -- The host that notes the calls has the same credentials.
  have hcredentials : h.recording.credentials = h.credentials := rfl
  simp only [complete, hcredentials]
  cases PlacedForm.resolve ⟨f, t⟩ declared supplied with
  | error e => rfl
  | ok form =>
    simp only
    cases PlacedForm.schemes ⟨f, t⟩ with
    | error e => rfl
    | ok schemes =>
      simp only
      cases h.credentials.resolve schemes form.href (some t.id) <;> rfl

/-- The calls of a request that is ready. -/
def callsOfReady (h : Host ω) (r : Request) (scheme : String) (p : Prepared ω) (w : ω) : List Call :=
  match (p.client.setSecurity p.schemes p.credentials w).1 with
  | false => [.setSecurity scheme p.schemes p.credentials false]
  | true =>
    .setSecurity scheme p.schemes p.credentials true ::
      match r.encode h p with
      | .error _ => []
      | .ok payload => [.request scheme p.form (r.exchange payload)]

/-- A request that is carried out is noted, unless its payload cannot be encoded. -/
theorem carryOut_recording (h : Host ω) (t : Thing) (r : Request) (scheme : String) (p : Prepared ω)
    (w : ω) (calls : List Call) :
    carryOut h.recording t r (p.recording scheme) (w, calls) =
      ((carryOut h t r p w).1, (carryOut h t r p w).2,
        calls ++
          match r.encode h p with
          | .error _ => []
          | .ok payload => [.request scheme p.form (r.exchange payload)]) := by
  -- Neither encoding nor decoding asks the client.
  have hencode : r.encode h.recording (p.recording scheme) = r.encode h p := by
    cases r with
    | invokeAction name input => cases input <;> rfl
    | _ => rfl
  have hdecode : r.decode h.recording t (p.recording scheme) = r.decode h t p := by
    cases r <;> rfl
  simp only [carryOut, hencode, hdecode]
  cases r.encode h p with
  | error e => simp
  | ok payload =>
    have hsend := r.send_recording scheme p.client p.form payload w calls
    simp only [Prepared.recording] at hsend ⊢
    rw [hsend]
    rcases r.send p.client p.form payload w with ⟨e | answer, w'⟩ <;> rfl

end Remote
end WebOfThings
