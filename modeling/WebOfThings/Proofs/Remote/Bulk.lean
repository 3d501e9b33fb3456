import WebOfThings.Proofs.Remote.Stages
import WebOfThings.Proofs.Turns

/-!
# Many remote properties at once

An operation on many properties of a remote thing makes one interaction for each of them, in any order, and
all of them go through the clients of one host. A client that answers each request on its own
(`ProtocolClient.AnswersAlone`) may remember what it has been asked, as long as this changes neither its
consent nor its answers. Then no interaction sees another one (`steady_perform`), at whatever stage it ends:
each result is that of the interaction alone, and clients receive for it what they receive for it alone.

An interaction with a remote thing may fail at ten stages, and none of them looks at what the others asked.
So the proof is one statement about a single interaction, that it is steady where the clients answer alone,
and the rest is about orders. The conditions are on the clients, not on the operation: a client that
remembers requests and answers differently is excluded by them, and what it remembers may be as large as it
likes.

`SentOnce` says of a write what reached the transport: its form, its encoded value and no second request.

Main statement: `bulk_isolates`.
-/

namespace WebOfThings

variable {ω : Type}

/-! ## Clients that answer each request on its own -/

/-- In some worlds, what a client answers to the requests of a kind depends on nothing but the request and the
security that has been set up for it, and neither leads to another world. -/
structure ProtocolClient.AnswersAlone (asked : Request → Prop) (worlds : ω → Prop) (c : ProtocolClient ω) :
    Prop where
  consent : ∀ schemes credentials {w w'}, worlds w → worlds w' →
    (c.setSecurity schemes credentials w).1 = (c.setSecurity schemes credentials w').1
  secured : ∀ schemes credentials {w}, worlds w → worlds (c.setSecurity schemes credentials w).2
  answer : ∀ {r : Request}, asked r → ∀ form payload schemes credentials {w w'}, worlds w → worlds w' →
    (r.send c form payload (c.setSecurity schemes credentials w).2).1 =
      (r.send c form payload (c.setSecurity schemes credentials w').2).1
  sent : ∀ {r : Request}, asked r → ∀ form payload {w}, worlds w → worlds (r.send c form payload w).2

/-- The call is a request. -/
def Call.isRequest : Call → Bool
  | .setSecurity .. => false
  | .request .. => true

/-- All clients of a host answer each request on its own. -/
def Host.AnswersAlone (asked : Request → Prop) (worlds : ω → Prop) (h : Host ω) : Prop :=
  ∀ scheme factory, h.factory? scheme = some factory → factory.client.AnswersAlone asked worlds

namespace Remote

variable {asked : Request → Prop} {worlds : ω → Prop} {h : Host ω} {t : Thing}

/-- A request that is prepared goes to one of the clients of the host. -/
theorem answersAlone_of_prepare (ha : h.AnswersAlone asked worlds) {target : Target}
    {options : InteractionOptions} {p : Prepared ω} (hp : prepare h t target options = .ok p) :
    p.client.AnswersAlone asked worlds := by
  obtain ⟨i, f, scheme, hr⟩ := prepare_eq_ok_iff.1 hp
  obtain ⟨factory, hfactory, hclient⟩ := Option.map_eq_some_iff.1 hr.client
  exact hclient ▸ ha scheme factory hfactory

/-- The result of a request that has been dispatched depends on the world through the answer only. -/
theorem carryOut_fst_congr {r : Request} {p : Prepared ω} {w w' : ω}
    (h' : ∀ payload, (r.send p.client p.form payload w).1 = (r.send p.client p.form payload w').1) :
    (carryOut h t r p w).1 = (carryOut h t r p w').1 := by
  unfold carryOut
  cases r.encode h p with
  | error e => rfl
  | ok payload =>
    have hanswer := h' payload
    rcases hsend : r.send p.client p.form payload w with ⟨answer, w₁⟩
    rcases hsend' : r.send p.client p.form payload w' with ⟨answer', w₂⟩
    rw [hsend, hsend'] at hanswer
    subst hanswer
    simp only [hsend, hsend']
    cases answer <;> rfl

/-- Carrying out a request leads from such a world to such a world. -/
theorem carryOut_kept {r : Request} {p : Prepared ω} (hc : p.client.AnswersAlone asked worlds) (hr : asked r)
    {w : ω} (hw : worlds w) : worlds (carryOut h t r p w).2 := by
  unfold carryOut
  cases r.encode h p with
  | error e => exact hw
  | ok payload =>
    have hsent := hc.sent hr p.form payload hw
    rcases hsend : r.send p.client p.form payload w with ⟨answer, w'⟩
    rw [hsend] at hsent
    simp only [hsend]
    cases answer <;> exact hsent

/-- An interaction with clients that answer each request on its own has one result, whatever they have been
asked before. -/
theorem steady_perform (ha : h.AnswersAlone asked worlds) (t : Thing) {r : Request} (hr : asked r)
    (options : InteractionOptions) : Effect.Steady worlds (perform h t r options) := by
  -- What is prepared does not depend on the world: only the client can tell two worlds apart.
  cases hp : prepare h t r.target options with
  | error e =>
    refine ⟨fun {w w'} _ _ => ?_, fun {w} hw => ?_⟩
    · rw [perform_of_prepare_error w hp, perform_of_prepare_error w' hp]
    · rw [perform_of_prepare_error w hp]
      exact hw
  | ok p =>
    have hc := answersAlone_of_prepare ha hp
    refine ⟨fun {w w'} hw hw' => ?_, fun {w} hw => ?_⟩
    · have hconsent := hc.consent p.schemes p.credentials hw hw'
      have hanswer := fun payload => hc.answer hr p.form payload p.schemes p.credentials hw hw'
      rw [perform_of_prepared w hp, perform_of_prepared w' hp]
      rcases hset : p.client.setSecurity p.schemes p.credentials w with ⟨consent, w₁⟩
      rcases hset' : p.client.setSecurity p.schemes p.credentials w' with ⟨consent', w₂⟩
      rw [hset, hset'] at hconsent hanswer
      subst hconsent
      cases consent with
      | false => rfl
      | true => exact carryOut_fst_congr hanswer
    · have hsecured := hc.secured p.schemes p.credentials hw
      rw [perform_of_prepared w hp]
      rcases hset : p.client.setSecurity p.schemes p.credentials w with ⟨consent, w'⟩
      rw [hset] at hsecured
      cases consent with
      | false => exact hsecured
      | true => exact carryOut_kept hc hr hsecured

/-! ## What clients receive -/

/-- What the clients of a host receive in an interaction. -/
def callsOf (h : Host ω) (t : Thing) (r : Request) (options : InteractionOptions) (w : ω) : List Call :=
  (perform h.recording t r options (w, [])).2.2

/-- Clients receive nothing in an interaction that cannot be prepared. -/
theorem callsOf_of_prepare_error {r : Request} {options : InteractionOptions} {e : RemoteError}
    (he : prepare h t r.target options = .error e) (w : ω) : callsOf h t r options w = [] := by
  rw [callsOf, perform_of_prepare_error _ (prepare_recording_error he)]

/-- Clients receive the security and the request of one that is ready. -/
theorem callsOf_of_ready {r : Request} {options : InteractionOptions} {i : Interaction} {f : Form}
    {scheme : String} {p : Prepared ω} (hr : Ready h t r.target options i f scheme p) (w : ω) :
    callsOf h t r options w = callsOfReady h r (MediaType.lowerCase scheme) p w := by
  rw [callsOf, perform_recording_ready hr]

/-- The clients that note their calls tell what they receive, and nothing else is different. -/
theorem tells_perform (h : Host ω) (t : Thing) (r : Request) (options : InteractionOptions) :
    Effect.Tells (perform h.recording t r options) (perform h t r options) (callsOf h t r options) := by
  intro w before
  cases hp : prepare h t r.target options with
  | error e =>
    rw [perform_of_prepare_error _ (prepare_recording_error hp), perform_of_prepare_error w hp,
      callsOf_of_prepare_error hp, List.append_nil]
  | ok p =>
    obtain ⟨i, f, scheme, hr⟩ := prepare_eq_ok_iff.1 hp
    rw [perform_recording_ready_after hr, callsOf_of_ready hr]

/-- What clients receive does not depend on what they were asked before. -/
theorem callsOf_congr (ha : h.AnswersAlone asked worlds) (t : Thing) (r : Request)
    (options : InteractionOptions) {w w' : ω} (hw : worlds w) (hw' : worlds w') :
    callsOf h t r options w = callsOf h t r options w' := by
  cases hp : prepare h t r.target options with
  | error e => rw [callsOf_of_prepare_error hp, callsOf_of_prepare_error hp]
  | ok p =>
    obtain ⟨i, f, scheme, hr⟩ := prepare_eq_ok_iff.1 hp
    have hconsent := (answersAlone_of_prepare ha hp).consent p.schemes p.credentials hw hw'
    rw [callsOf_of_ready hr, callsOf_of_ready hr, callsOfReady, callsOfReady, hconsent]

/-! ## Reads and writes -/

/-- The read of a property with default options. -/
def readStep (h : Host ω) (t : Thing) (name : String) : Effect ω RemoteError Json := readProperty h t name {}

/-- The write of an entry with default options. -/
def writeStep (h : Host ω) (t : Thing) (entry : String × Json) : Effect ω RemoteError Unit :=
  writeProperty h t entry.1 entry.2 {}

theorem steady_readStep (ha : h.AnswersAlone asked worlds) (t : Thing) {name : String}
    (hr : asked (.readProperty name)) : Effect.Steady worlds (readStep h t name) :=
  .of_map (fun _ _ => Reply.value.inj) (steady_perform ha t hr {})

theorem steady_writeStep (ha : h.AnswersAlone asked worlds) (t : Thing) {entry : String × Json}
    (hr : asked (.writeProperty entry.1 entry.2)) : Effect.Steady worlds (writeStep h t entry) :=
  .of_map (fun _ _ _ => rfl) (steady_perform ha t hr {})

/-- What the clients of a host receive in a write. -/
def writeCalls (h : Host ω) (t : Thing) (entry : String × Json) (w : ω) : List Call :=
  (writeStep h.recording t entry (w, [])).2.2

theorem tells_writeStep (h : Host ω) (t : Thing) (entry : String × Json) :
    Effect.Tells (writeStep h.recording t entry) (writeStep h t entry) (writeCalls h t entry) :=
  .of_map (fun _ _ _ => rfl) (tells_perform h t (.writeProperty entry.1 entry.2) {})

/-- The requests among some calls. -/
def requests (calls : List Call) : List Call := calls.filter Call.isRequest

/-- A request has been sent: it was answered, or it failed on its way. -/
def WasSent : Except RemoteError Unit → Prop
  | .ok _ => True
  | .error e => e.stage = .transport

/-- A write that reaches the transport is one request, for the form in force and with the value in the media type
of that form; a write that does not is none. -/
structure SentOnce (h : Host ω) (t : Thing) (entry : String × Json) (w : ω) : Prop where
  sent : WasSent (writeStep h t entry w).1 →
    ∃ p scheme content, prepare h t ⟨.property, entry.1, .writeProperty⟩ {} = .ok p ∧
      h.codecs.encode entry.2 p.form.contentTypeOrDefault = .ok content ∧
      requests (writeCalls h t entry w) = [.request scheme p.form (.write content)]
  unsent : ¬ WasSent (writeStep h t entry w).1 → requests (writeCalls h t entry w) = []

/-- A payload that can be encoded is the value in the media type of the form. -/
theorem encode_eq_ok {p : Prepared ω} {v : Json} {content : Content} (hv : encode h p v = .ok content) :
    h.codecs.encode v p.form.contentTypeOrDefault = .ok content := by
  unfold encode at hv
  split at hv
  · next content' hcontent =>
    cases hv
    exact hcontent
  · cases hv

theorem SentOnce.of_unsent {entry : String × Json} {w : ω} {e : RemoteError}
    (hresult : (writeStep h t entry w).1 = .error e) (hstage : e.stage ≠ .transport)
    (hcalls : requests (writeCalls h t entry w) = []) : SentOnce h t entry w where
  sent := by
    intro hsent
    rw [hresult] at hsent
    exact absurd hsent hstage
  unsent _ := hcalls

/-- A write whose request is prepared: it is sent if the client consents and the value can be encoded. -/
theorem sentOnce_of_prepared {entry : String × Json} {p : Prepared ω}
    (hp : prepare h t ⟨.property, entry.1, .writeProperty⟩ {} = .ok p) (w : ω) : SentOnce h t entry w := by
  obtain ⟨i, f, scheme, hr⟩ := prepare_eq_ok_iff.1 hp
  have hcalls : writeCalls h t entry w =
      callsOfReady h (.writeProperty entry.1 entry.2) (MediaType.lowerCase scheme) p w :=
    callsOf_of_ready (r := .writeProperty entry.1 entry.2) hr w
  rw [callsOfReady] at hcalls
  -- Two stages are left before the transport: the client may decline, and the value may not encode.
  rcases hset : p.client.setSecurity p.schemes p.credentials w with ⟨consent, w'⟩
  rw [hset] at hcalls
  cases consent with
  | false =>
    have hresult : (writeStep h t entry w).1 = .error p.declined := by
      simp only [writeStep, writeProperty, dispatch, hp, hset]
    have hstage : p.declined.stage ≠ .transport := by
      intro hstage
      cases hstage
    exact .of_unsent hresult hstage (by rw [hcalls]; rfl)
  | true =>
    simp only [Request.encode] at hcalls
    cases hencode : encode h p entry.2 with
    | error e =>
      have hresult : (writeStep h t entry w).1 = .error e := by
        simp only [writeStep, writeProperty, dispatch, hp, hset, hencode]
      have hstage : e.stage = .encode := stage_of_encode_error (r := .writeProperty entry.1 entry.2) hencode
      rw [hencode] at hcalls
      exact .of_unsent hresult (by rw [hstage]; decide) (by rw [hcalls]; rfl)
    | ok content =>
      rw [hencode] at hcalls
      have hsent : WasSent (writeStep h t entry w).1 := by
        simp only [writeStep, writeProperty, dispatch, hp, hset, hencode]
        rcases p.client.write p.form content w' with ⟨_ | _, _⟩
        · rfl
        · trivial
      exact ⟨fun _ => ⟨p, _, content, hp, encode_eq_ok hencode, by rw [hcalls]; rfl⟩,
        fun hunsent => absurd hsent hunsent⟩

/-- Every write is one request with the encoded value if it is sent, and none otherwise. -/
theorem sentOnce_writeStep (h : Host ω) (t : Thing) (entry : String × Json) (w : ω) : SentOnce h t entry w := by
  cases hp : prepare h t ⟨.property, entry.1, .writeProperty⟩ {} with
  | error e =>
    have hresult : (writeStep h t entry w).1 = .error e := by
      simp only [writeStep, writeProperty, dispatch, hp]
    have hcalls : writeCalls h t entry w = [] :=
      callsOf_of_prepare_error (r := .writeProperty entry.1 entry.2) hp w
    have hrank := (fails_of_prepare_error (r := .writeProperty entry.1 entry.2) w hp).1
    refine .of_unsent hresult (fun hstage => ?_) (by rw [hcalls]; rfl)
    rw [hstage] at hrank
    exact absurd hrank (by decide)
  | ok p => exact sentOnce_of_prepared hp w

/-! ## Many properties -/

/-- Reading properties takes an interaction for each of them in turn. -/
theorem readProperties_eq_inTurns (names : List String) (w : ω) :
    readProperties h t names [] w = Effect.inTurns id (readStep h t) names .listed w := by
  have hrun : ∀ (results : Dict (Except RemoteError Json)) (w : ω), readProperties h t names results w =
      ((Effect.answers id (readStep h t) names w).foldl (fun d (key, result) => d.insert key result) results,
        Effect.worldAfter (readStep h t) names w) := by
    induction names with
    | nil => exact fun _ _ => rfl
    | cons name rest ih => exact fun _ _ => ih _ _
  rw [hrun, Effect.inTurns_listed]
  rfl

/-- So does writing them. -/
theorem writeProperties_eq_inTurns (values : List (String × Json)) (w : ω) :
    writeProperties h t values [] w = Effect.inTurns Prod.fst (writeStep h t) values .listed w := by
  have hrun : ∀ (results : Dict (Except RemoteError Unit)) (w : ω), writeProperties h t values results w =
      ((Effect.answers Prod.fst (writeStep h t) values w).foldl (fun d (key, result) => d.insert key result) results,
        Effect.worldAfter (writeStep h t) values w) := by
    induction values with
    | nil => exact fun _ _ => rfl
    | cons entry rest ih => exact fun _ _ => ih _ _
  rw [hrun, Effect.inTurns_listed]
  rfl

/-- A request to read a property. -/
def IsRead (r : Request) : Prop := ∃ name, r = .readProperty name

/-- A request to write a property. -/
def IsWrite (r : Request) : Prop := ∃ name v, r = .writeProperty name v

/-- If the clients of a host answer each read on its own, reads of some properties or of all have one result for
each name, which is that of the read alone, in whatever order they are made. If they answer each write on its
own, so do writes of a map of values, and clients receive for each write what they receive for it alone: one
request if it reaches the transport, and none otherwise. -/
theorem bulk_isolates (h : Host ω) (t : Thing) (worlds : ω → Prop) {w : ω} (hw : worlds w) :
    (h.AnswersAlone IsRead worlds →
      (∀ names : List String,
        (∀ turns, Effect.AsAlone id (readStep h t) names w
          (Effect.inTurns id (readStep h t) names turns w).1) ∧
        readProperties h t names [] w = Effect.inTurns id (readStep h t) names .listed w) ∧
      readAllProperties h t w =
        Effect.inTurns id (readStep h t) (Dict.keys t.properties) .listed w) ∧
    (h.AnswersAlone IsWrite worlds → ∀ values : List (String × Json), (Dict.keys values).Nodup →
      (∀ turns, Effect.AsAlone Prod.fst (writeStep h t) values w
          (Effect.inTurns Prod.fst (writeStep h t) values turns w).1 ∧
        Effect.inTurns Prod.fst (writeStep h.recording t) values turns (w, []) =
          ((Effect.inTurns Prod.fst (writeStep h t) values turns w).1,
            (Effect.inTurns Prod.fst (writeStep h t) values turns w).2,
            (turns.order.map values.get).flatMap fun entry => writeCalls h t entry w)) ∧
      writeProperties h t values [] w = Effect.inTurns Prod.fst (writeStep h t) values .listed w ∧
      ∀ entry ∈ values, SentOnce h t entry w) := by
  refine ⟨fun ha => ⟨fun names => ⟨fun turns => ?_, readProperties_eq_inTurns names w⟩,
    readProperties_eq_inTurns _ w⟩, fun ha values hvalues => ⟨fun turns => ?_, writeProperties_eq_inTurns values w,
      fun entry _ => sentOnce_writeStep h t entry w⟩⟩
  · exact Effect.asAlone_inTurns (fun name _ => steady_readStep ha t ⟨name, rfl⟩)
      (fun _ _ _ _ hname => hname) turns hw
  · -- The recorded run is the plain one beside what each step tells, which is the same in all worlds.
    have hsteady : ∀ entry ∈ values, Effect.Steady worlds (writeStep h t entry) :=
      fun entry _ => steady_writeStep ha t ⟨_, _, rfl⟩
    refine ⟨Effect.asAlone_inTurns hsteady (fun _ hx _ hy => List.inj_on_of_nodup_map hvalues hx hy) turns hw, ?_⟩
    exact Effect.inTurns_telling hsteady (fun entry _ => tells_writeStep h t entry)
      (fun entry _ _ _ hw hw' => callsOf_congr ha t (.writeProperty entry.1 entry.2) {} hw hw') turns hw

/-- A client that counts what it is asked and reaches everything but one place. -/
def countingClient : ProtocolClient Nat where
  setSecurity _ _ n := (true, n + 1)
  read form n :=
    if form.href = "mock://lamp/offline" then (.error (.transport form.href "unreachable"), n + 1)
    else (.ok ⟨some "application/json", Text.utf8 "\"on\""⟩, n + 1)
  write form _ n :=
    if form.href = "mock://lamp/offline" then (.error (.transport form.href "unreachable"), n + 1)
    else (.ok none, n + 1)
  invoke _ _ := Effect.fail (.unsupported "invoking")
  observe _ := Effect.fail (.unsupported "observing")

/-- What has been counted makes no difference. -/
theorem answersAlone_countingClient (asked : Request → Prop) :
    countingClient.AnswersAlone asked fun _ => True where
  consent _ _ _ _ _ _ := rfl
  secured _ _ _ _ := trivial
  answer := by
    intro r _ form payload schemes credentials w w' _ _
    cases r with
    | readProperty name =>
      show (countingClient.read form _).1 = (countingClient.read form _).1
      unfold countingClient
      by_cases hform : form.href = "mock://lamp/offline" <;> simp [hform]
    | writeProperty name v =>
      show (countingClient.write form payload _).1 = (countingClient.write form payload _).1
      unfold countingClient
      by_cases hform : form.href = "mock://lamp/offline" <;> simp [hform]
    | _ => rfl
  sent _ _ _ _ _ := trivial

/-- A host whose only client counts. -/
def countingHost : Host Nat :=
  ({} : Host Nat).withFactories [⟨"mock", countingClient, Effect.pure (), Effect.pure ()⟩]

/-- A host whose client counts answers each request on its own. -/
theorem answersAlone_countingHost (asked : Request → Prop) :
    countingHost.AnswersAlone asked fun _ => True := by
  intro scheme factory hfactory
  rw [countingHost, Host.factory?_withFactories] at hfactory
  have hmem := List.mem_of_find?_eq_some hfactory
  rw [List.reverse_singleton, List.mem_singleton] at hmem
  subst hmem
  exact answersAlone_countingClient asked

/-- A lamp with a property that cannot be reached and one with a security that is not declared. -/
def distantLamp : Thing where
  id := "urn:lamp"
  properties :=
    [("offline", { interaction := { forms := [{ href := "mock://lamp/offline" }] } }),
     ("secret", { interaction := { forms := [{ href := "mock://lamp/secret", security := some ["basic"] }] } }),
     ("status", { interaction := { forms := [{ href := "mock://lamp/status" }] } })]

/-- Values for all properties of the lamp and for one that it lacks. -/
def distantValues : List (String × Json) :=
  [("status", .str "on"), ("missing", .null), ("offline", .str "x"), ("secret", .null)]

/-- The status is read twice; the writes are processed from the last entry to the first. -/
theorem bulk_isolates_lamp :
    Effect.AsAlone id (readStep countingHost distantLamp) ["status", "missing", "status", "offline"] 0
        (Effect.inTurns id (readStep countingHost distantLamp) ["status", "missing", "status", "offline"]
          .reversed 0).1 ∧
      (let results := (Effect.inTurns Prod.fst (writeStep countingHost distantLamp) distantValues .reversed 0).1
      Dict.get? "status" results = some (.ok ()) ∧
        Dict.get? "missing" results = some (.error (.unknown ⟨"urn:lamp", .property, "missing"⟩)) ∧
        Dict.get? "offline" results = some (.error (.protocol "mock://lamp/offline"
          (.transport "mock://lamp/offline" "unreachable"))) ∧
        Dict.get? "secret" results = some (.error (.undeclaredSecurity ⟨"urn:lamp", "basic"⟩))) ∧
      SentOnce countingHost distantLamp ("offline", .str "x") 0 := by
  obtain ⟨hreads, hwrites⟩ := bulk_isolates countingHost distantLamp (fun _ => True) (w := 0) trivial
  have hnames := (hreads (answersAlone_countingHost _)).1 ["status", "missing", "status", "offline"]
  have hvalues := hwrites (answersAlone_countingHost _) distantValues (by decide)
  have hresult := ((hvalues.1 .reversed).1).answer
  refine ⟨hnames.1 .reversed, ⟨?_, ?_, ?_, ?_⟩, hvalues.2.2 _ (by simp [distantValues])⟩
  · exact (hresult ("status", .str "on") (by simp [distantValues])).trans (congrArg some (by decide +kernel))
  · exact (hresult ("missing", .null) (by simp [distantValues])).trans (congrArg some (by decide +kernel))
  · exact (hresult ("offline", .str "x") (by simp [distantValues])).trans (congrArg some (by decide +kernel))
  · exact (hresult ("secret", .null) (by simp [distantValues])).trans (congrArg some (by decide +kernel))

end Remote
end WebOfThings
