import WebOfThings.Proofs.Codec.Acceptance
import WebOfThings.Proofs.Codec.PlainText
import WebOfThings.Proofs.Remote.Stages

/-!
# Invocations that are echoed

The request of an invocation is encoded in the media type of the form, its response is decoded in the media
type that the client reports, or else in the one that the form expects. A client that answers with the body
that it was sent makes the two meet: if the form declares no response, both conversions use one media type,
whether the client reports it or none, and what the invocation results in is what becomes of its input on
the way there and back (`invokeAction_echoed`).

So the input comes back from an echo exactly if it comes back from its codec, and an object whose first key
is too long for the reader of CBOR does not.

A client that answers with the body it was given either reports its media type or none; both are covered,
because a response without one is read in the one that the form expects. That there is no expected response
is a condition on the form: with one, the response is read in another media type than it was written in. The
exact condition of `returned` is the condition under which an invocation gives its input back, and the
examples are the two ends of it, a value that comes back and one that does not.
-/

namespace WebOfThings

variable {ω : Type}

/-! ## There and back -/

namespace CodecRegistry

variable {r : CodecRegistry} {contentType : String} {m : MediaType} {v : Json}

/-- What becomes of a value that is encoded in a media type and decoded from it again. -/
def returned (r : CodecRegistry) (contentType : String) (schema : Option DataSchema) (v : Json) :
    Except CodecError Json :=
  match r.encode v contentType with
  | .error e => .error e
  | .ok content => r.decode content contentType schema

/-- A content reports the media type that it was encoded in. -/
theorem contentType_of_encode {content : Content} (h : r.encode v contentType = .ok content) :
    content.contentType = some contentType := by
  unfold encode at h
  split at h
  · cases h
  · split at h
    · split at h
      · cases h
        rfl
      · cases h
    · cases h
      rfl

/-- A body is decoded alike whether its media type is reported or is the one that is assumed. -/
theorem decode_of_reported {reported : Option String}
    (h : reported = some contentType ∨ reported = none) (body : List UInt8) (schema : Option DataSchema) :
    r.decode ⟨reported, body⟩ contentType schema = r.decode ⟨some contentType, body⟩ contentType schema := by
  rcases h with rfl | rfl <;> rfl

/-- A value is returned exactly if it comes back from its codec. -/
theorem returned_eq_ok_iff {schema : Option DataSchema} :
    r.returned contentType schema v = .ok v ↔ r.RoundTrips contentType contentType schema v := by
  unfold returned RoundTrips
  cases hencode : r.encode v contentType with
  | error e => simp
  | ok content =>
    obtain ⟨reported, body⟩ := content
    have htype : reported = some contentType := contentType_of_encode hencode
    subst htype
    simp

/-- A value comes back from JSON if every double in it does. -/
theorem returned_of_isJson (hr : r.HasStructured) (hm : MediaType.ofString? contentType = some m)
    (h : IsJson m.essence) (hnormal : v.IsNormal) (hdepth : v.depth ≤ Json.maxDepth)
    (hdoubles : v.Everywhere Json.DoubleReadsBack) (schema : Option DataSchema) :
    r.returned contentType schema v = .ok v :=
  returned_eq_ok_iff.2 (roundTrips_of_isJson hr hm h hnormal hdepth hdoubles contentType schema)

/-- Through plain text goes what its schema reads from its text. -/
theorem returned_of_plainText (hr : r.codec? MediaType.plainText = some Codec.plainText)
    (hm : MediaType.ofString? contentType = some m) (hessence : m.essence = MediaType.plainText)
    (hcharset : Codec.checkCharset m.params = .ok ()) {schema : Option DataSchema}
    (hv : Codec.decodeText (Codec.encodeText v) (schema.bind (·.kind)) = .ok v) :
    r.returned contentType schema v = .ok v := by
  have hencode : r.encode v contentType = .ok ⟨some contentType, Text.utf8 (Codec.encodeText v)⟩ := by
    simp only [encode, hm, hessence, hr, Codec.plainText, hcharset]
    rfl
  have hdecode := Codec.decode_plainText_iff.2 ⟨hcharset, _, Text.ofUtf8?_utf8 _, hv⟩
  rw [returned, hencode]
  show r.decode ⟨some contentType, Text.utf8 (Codec.encodeText v)⟩ contentType schema = .ok v
  refine (decode_plainText hr ?_ hessence schema v).2 hdecode
  exact hm

/-- From CBOR comes the value itself or nothing at all. -/
theorem returned_of_isCbor (hr : r.HasStructured) (hm : MediaType.ofString? contentType = some m)
    (h : r.IsCbor m.essence) (hnormal : v.IsNormal) (hdepth : v.depth ≤ Cbor.maxDepth)
    (hlength : (Cbor.write v).length < 18446744073709551616) (schema : Option DataSchema) :
    (v.Everywhere Cbor.FirstKeyFits → r.returned contentType schema v = .ok v) ∧
      (¬ v.Everywhere Cbor.FirstKeyFits → ∃ e, r.returned contentType schema v = .error e) := by
  rw [returned_eq_ok_iff, roundTrips_iff_of_isCbor hr hm h hnormal hdepth hlength]
  refine ⟨id, fun hlong => ?_⟩
  have hrefused : Cbor.read? (Cbor.write v) = none := by
    have hroom : ([] : List Cbor.Frame).length + v.depth ≤ Cbor.maxDepth := by simpa using hdepth
    have hrun := Cbor.refused hnormal hlong hlength [] [] hroom
    rw [List.append_nil] at hrun
    rw [Cbor.read?, hrun]
  simp only [returned, encode_of_isCbor hr hm h v]
  cases hdecode : r.decode ⟨some contentType, Cbor.write v⟩ contentType schema with
  | error e => exact ⟨e, rfl⟩
  | ok u =>
    rw [decode_of_isCbor hr hm h, Codec.decodeCbor, hrefused] at hdecode
    cases hdecode

end CodecRegistry

/-! ## Clients that echo -/

/-- The client answers an invocation with the body that it was sent, as content of the same media type or of
none. -/
def ProtocolClient.Echoes (c : ProtocolClient ω) : Prop :=
  ∀ form content w, ∃ reported, (reported = content.contentType ∨ reported = none) ∧
    (c.invoke form (some content) w).1 = .ok ⟨reported, content.body⟩

namespace Remote

/-- The invocation of an action reaches a client that echoes, through a form that declares no response. -/
structure ReachesEcho (h : Host ω) (t : Thing) (name : String) (options : InteractionOptions) (w : ω)
    (i : Interaction) (f : Form) (scheme : String) (p : Prepared ω) : Prop where
  ready : Ready h t ⟨.action, name, .invokeAction⟩ options i f scheme p
  consent : (p.client.setSecurity p.schemes p.credentials w).1 = true
  echoes : p.client.Echoes
  response : f.response = none

/-- An invocation that is echoed results in what becomes of its input on the way there and back. -/
theorem invokeAction_echoed {h : Host ω} {t : Thing} {name : String} {options : InteractionOptions} {w : ω}
    {i : Interaction} {f : Form} {scheme : String} {p : Prepared ω}
    (he : ReachesEcho h t name options w i f scheme p) (v : Json) :
    (invokeAction h t name (some v) options w).1 =
      (h.codecs.returned f.contentTypeOrDefault ((Dict.get? name t.actions).bind (·.output)) v).mapError
        (.content p.form.href) := by
  -- The form that the client receives differs from the one in use in its href only.
  have htype : p.form.contentTypeOrDefault = f.contentTypeOrDefault := by
    rw [he.ready.form]
    rfl
  have hresponse : p.form.responseType = f.contentTypeOrDefault := by
    rw [he.ready.form]
    simp only [Form.responseType, he.response]
    rfl
  have hprepare := prepare_eq_ok_iff.2 ⟨i, f, scheme, he.ready⟩
  have hconsent := he.consent
  rcases hset : p.client.setSecurity p.schemes p.credentials w with ⟨consent, w'⟩
  rw [hset] at hconsent
  subst hconsent
  have hdispatch : dispatch h t ⟨.action, name, .invokeAction⟩ options w = (.ok p, w') := by
    simp only [dispatch, hprepare, hset]
  simp only [invokeAction, hdispatch, encodeOptional, encode, htype, CodecRegistry.returned]
  cases hencode : h.codecs.encode v f.contentTypeOrDefault with
  | error e => rfl
  | ok content =>
    obtain ⟨reported, hreported, hanswer⟩ := he.echoes p.form content w'
    have hcontent := CodecRegistry.contentType_of_encode hencode
    rw [hcontent] at hreported
    have hsame : content = ⟨some f.contentTypeOrDefault, content.body⟩ := by rw [← hcontent]
    rcases hinvoke : p.client.invoke p.form (some content) w' with ⟨answer, w''⟩
    rw [hinvoke] at hanswer
    subst hanswer
    simp only [Except.map, hinvoke, decode, hresponse]
    -- What the client reports makes no difference to the codec that decodes its answer.
    rw [CodecRegistry.decode_of_reported hreported, ← hsame]
    cases h.codecs.decode content f.contentTypeOrDefault ((Dict.get? name t.actions).bind (·.output)) <;> rfl

/-- A value that the output schema accepts comes back from a client that echoes if the media type of the form
denotes JSON or plain text in a supported charset. If it denotes CBOR or has no codec, the value comes back
unless the first key of an object in it is too long; then there is an error of the content. -/
theorem invokeAction_echo_accepted {h : Host ω} {t : Thing} {name : String} {options : InteractionOptions}
    {w : ω} {i : Interaction} {f : Form} {scheme : String} {p : Prepared ω}
    (he : ReachesEcho h t name options w i f scheme p) (hcodecs : h.codecs.HasStructured)
    (hplain : h.codecs.codec? MediaType.plainText = some Codec.plainText) {a : ActionAffordance}
    (ha : Dict.get? name t.actions = some a) {s : DataSchema} (hs : a.output = some s)
    {kind : SchemaKind DataSchema} (hkind : s.kind = some kind) {m : MediaType}
    (hm : MediaType.ofString? f.contentTypeOrDefault = some m) {v : Json} (haccepts : kind.accepts v = true)
    (hnormal : v.IsNormal) (hdepth : v.depth ≤ Json.maxDepth) :
    (v.Everywhere Json.DoubleReadsBack →
      (CodecRegistry.IsJson m.essence ∨
        m.essence = MediaType.plainText ∧ ∀ charset, m.param "charset" = some charset →
          MediaType.lowerCase charset ∈ Codec.charsets) →
      (invokeAction h t name (some v) options w).1 = .ok v) ∧
    (h.codecs.IsCbor m.essence → (Cbor.write v).length < 18446744073709551616 →
      (v.Everywhere Cbor.FirstKeyFits → (invokeAction h t name (some v) options w).1 = .ok v) ∧
      (¬ v.Everywhere Cbor.FirstKeyFits →
        ∃ e, (invokeAction h t name (some v) options w).1 = .error (.content p.form.href e))) := by
  have houtput : (Dict.get? name t.actions).bind (·.output) = some s := by rw [ha, Option.bind_some, hs]
  rw [invokeAction_echoed he, houtput]
  have hback : h.codecs.returned f.contentTypeOrDefault (some s) v = .ok v →
      (h.codecs.returned f.contentTypeOrDefault (some s) v).mapError (RemoteError.content p.form.href) =
        .ok v := by
    intro hv
    rw [hv]
    rfl
  constructor
  · rintro hdoubles (hjson | ⟨hessence, hcharset⟩)
    · exact hback (CodecRegistry.returned_of_isJson hcodecs hm hjson hnormal hdepth hdoubles _)
    · have htext : Codec.decodeText (Codec.encodeText v) ((some s).bind (·.kind)) = .ok v := by
        rw [Option.bind_some, hkind]
        exact Codec.decodeText_encodeText haccepts hnormal hdepth fun _ => hdoubles
      exact hback (CodecRegistry.returned_of_plainText hplain hm hessence
        (Codec.checkCharset_eq_ok hcharset) htext)
  · intro hcbor hlength
    obtain ⟨hfits, hlong⟩ := CodecRegistry.returned_of_isCbor hcodecs hm hcbor hnormal
      (Nat.le_trans hdepth (by decide)) hlength (some s)
    refine ⟨fun hkeys => hback (hfits hkeys), fun hkeys => ?_⟩
    obtain ⟨e, hfault⟩ := hlong hkeys
    exact ⟨e, by rw [hfault]; rfl⟩

/-- A client that consents to everything and sends back what it is sent. -/
def echoClient : ProtocolClient Unit where
  setSecurity _ _ w := (true, w)
  read _ := Effect.fail (.unsupported "reading")
  write _ content := Effect.pure (some content)
  invoke _ content := Effect.pure (content.getD ⟨none, []⟩)
  observe _ := Effect.fail (.unsupported "observing")

theorem echoes_echoClient : echoClient.Echoes := fun _ content _ => ⟨content.contentType, .inl rfl, rfl⟩

/-- A host whose only client echoes. -/
def echoHost : Host Unit := ({} : Host Unit).withFactories [⟨"mock", echoClient, Effect.pure (), Effect.pure ()⟩]

/-- The form of an action, with or without media type. -/
def describeForm (contentType : Option String) : Form := { href := "mock://lamp/describe", contentType }

/-- A lamp with an action whose output is an object. -/
def describingLamp (contentType : Option String) : Thing where
  id := "urn:lamp"
  actions :=
    [("describe",
      { interaction := { forms := [describeForm contentType] }
        output := some { kind := some (.object [] []) } })]

theorem scheme?_describeForm (contentType : Option String) :
    Href.scheme? (PlacedForm.href ⟨describeForm contentType, describingLamp contentType⟩) = some "mock" := by
  show Href.scheme? "mock://lamp/describe" = some "mock"
  decide

theorem reachesEcho_lamp (contentType : Option String) :
    ReachesEcho echoHost (describingLamp contentType) "describe" {} ()
      { forms := [describeForm contentType] } (describeForm contentType) "mock"
      ⟨echoClient, describeForm contentType, [], none⟩ where
  ready := {
    uses := ⟨rfl, 0, {
      here := rfl
      fits := ⟨.inl rfl, "mock", scheme?_describeForm contentType, rfl⟩
      first := fun _ j hj => absurd hj (Nat.not_lt_zero j)
      asked := nofun }⟩
    absolute := scheme?_describeForm contentType
    client := rfl
    href := Template.expand_of_no_brace _ (show '\x7b' ∉ "mock://lamp/describe".toList by decide)
    form := rfl
    schemes := rfl
    credentials := rfl }
  consent := rfl
  echoes := echoes_echoClient
  response := rfl

/-- What the lamp has to say. -/
def onObject : Json := .obj [("on", .bool true)]

/-- Without a media type, the form stands for plain text, and the output is read as JSON; with another one, it
may be without codec. -/
theorem invokeAction_echo_accepted_lamp :
    (invokeAction echoHost (describingLamp none) "describe" (some onObject) {} ()).1 = .ok onObject ∧
      (invokeAction echoHost (describingLamp (some "Application/X-Lamp; v=1")) "describe" (some onObject) {}
        ()).1 = .ok onObject := by
  have hplain : MediaType.ofString? "text/plain" = some ⟨"text/plain", []⟩ := by decide +kernel
  have hvendor : MediaType.ofString? "Application/X-Lamp; v=1" =
      some ⟨"application/x-lamp", [("v", "1")]⟩ := by decide +kernel
  have htext := invokeAction_echo_accepted (v := onObject) (reachesEcho_lamp none)
    CodecRegistry.hasStructured_standard rfl rfl rfl rfl hplain rfl rfl (by decide)
  have hcbor := invokeAction_echo_accepted (v := onObject) (reachesEcho_lamp (some "Application/X-Lamp; v=1"))
    CodecRegistry.hasStructured_standard rfl rfl rfl rfl hvendor rfl rfl (by decide)
  refine ⟨htext.1 ?_ (.inr ⟨rfl, nofun⟩), (hcbor.2 (.inr rfl) (by decide +kernel)).1 ?_⟩
  · simp [onObject, Json.everywhere_obj_iff, Json.everywhere_iff_of_parts_eq_nil (v := .bool true) rfl,
      Json.DoubleReadsBack]
  · simp [onObject, Json.everywhere_obj_iff, Json.everywhere_iff_of_parts_eq_nil (v := .bool true) rfl,
      Cbor.FirstKeyFits]
    decide +kernel

/-- An object under a key of 4097 letters does not come back from a client that echoes. -/
theorem invokeAction_echo_refuses_long_key :
    ReachesEcho echoHost (describingLamp (some "application/cbor")) "describe" {} ()
        { forms := [describeForm (some "application/cbor")] } (describeForm (some "application/cbor")) "mock"
        ⟨echoClient, describeForm (some "application/cbor"), [], none⟩ ∧
      (CodecRegistry.underKeyOfLength 4097).IsNormal ∧
      (CodecRegistry.underKeyOfLength 4097).depth ≤ Json.maxDepth ∧
      SchemaKind.accepts (.object ([] : Dict DataSchema) []) (CodecRegistry.underKeyOfLength 4097) = true ∧
      ∃ e, (invokeAction echoHost (describingLamp (some "application/cbor")) "describe"
        (some (CodecRegistry.underKeyOfLength 4097)) {} ()).1 = .error (.content "mock://lamp/describe" e) := by
  have hm : MediaType.ofString? "application/cbor" = some ⟨"application/cbor", []⟩ := by decide +kernel
  have hnormal : (CodecRegistry.underKeyOfLength 4097).IsNormal := rfl
  have hlong : ¬ (CodecRegistry.underKeyOfLength 4097).Everywhere Cbor.FirstKeyFits := by
    rw [CodecRegistry.everywhere_underKeyOfLength_iff]
    decide
  have hlength : (Cbor.write (CodecRegistry.underKeyOfLength 4097)).length < 18446744073709551616 := by
    simp only [CodecRegistry.underKeyOfLength, Cbor.write, Cbor.writeMembers, Cbor.writeText,
      List.length_append, CodecRegistry.length_utf8_replicate]
    decide
  refine ⟨reachesEcho_lamp _, hnormal, by decide, rfl, ?_⟩
  obtain ⟨e, he⟩ := (CodecRegistry.returned_of_isCbor CodecRegistry.hasStructured_standard hm (.inl rfl)
    hnormal (by decide) hlength (some { kind := some (.object [] []) })).2 hlong
  refine ⟨e, ?_⟩
  rw [invokeAction_echoed (reachesEcho_lamp _)]
  exact congrArg (Except.mapError _) he

end Remote
end WebOfThings
