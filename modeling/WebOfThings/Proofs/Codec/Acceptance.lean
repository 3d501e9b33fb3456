import WebOfThings.Codec.Registry
import WebOfThings.Proofs.Json.RoundTrip

/-!
# What plain text is decoded to under a schema

Where values are scalars, each type has its own way to read a text and yields values of that type only
(`accepts_of_scalar?`). For arrays and objects the text is read as JSON, and nobody looks at what was read
(`decodeText_structured_iff`). `decode_accepted_unless_structured` says both of every payload, and
`decodes_number_for_array` is a number that comes out where the schema asks for an array.

`TextCodec` follows the schema for the sake of texts that look alike, such as `5` as a number and as a text.
For scalar types this is as strict as it can be: `scalar?` has a case for each of them, and a case that
succeeds yields a value of the type. The branch of arrays and objects does not ask, so its result may be of
any type. The statement about all types is therefore a disjunction, with the exact condition for the second
half.
-/

namespace WebOfThings

namespace Codec

/-- A scalar is of the type that it was read as. -/
theorem accepts_of_scalar? {trimmed : List Char} {kind : SchemaKind DataSchema} {v : Json}
    (h : scalar? trimmed kind = some v) : kind.accepts v = true := by
  cases kind with
  | boolean =>
    simp only [scalar?] at h
    split at h
    · cases h
      rfl
    · split at h
      · cases h
        rfl
      · cases h
  | integer bounds =>
    obtain ⟨n, hn, rfl⟩ := Option.map_eq_some_iff.1 h
    obtain ⟨i, -, hi, rfl⟩ := integer?_eq_some_iff.1 hn
    rfl
  | number bounds =>
    obtain ⟨n, -, rfl⟩ := Option.map_eq_some_iff.1 h
    rfl
  | null =>
    simp only [scalar?] at h
    split at h
    · cases h
      rfl
    · cases h
  | _ => cases h

/-- A scalar is read from the text without its surrounding blanks. -/
theorem decodeText_scalar_iff {text : String} {kind : SchemaKind DataSchema} {v : Json}
    (hstring : ∀ rules, kind ≠ .string rules) (hkind : kind.isStructured = false) :
    decodeText text (some kind) = .ok v ↔ scalar? (Text.trim text.toList) kind = some v := by
  cases kind with
  | string rules => exact absurd rfl (hstring rules)
  | array _ _ _ => cases hkind
  | object _ _ => cases hkind
  | _ =>
    simp only [decodeText]
    split <;> simp [*]

/-- What a text is decoded to is of the type of the schema, if that is the type of a scalar. -/
theorem accepts_of_decodeText {text : String} {kind : SchemaKind DataSchema} {v : Json}
    (hkind : kind.isStructured = false) (h : decodeText text (some kind) = .ok v) : kind.accepts v = true := by
  by_cases hstring : ∃ rules, kind = .string rules
  · obtain ⟨rules, rfl⟩ := hstring
    cases h
    rfl
  · exact accepts_of_scalar? ((decodeText_scalar_iff (not_exists.1 hstring) hkind).1 h)

/-- For an array or an object every JSON text will do, whatever its value is. -/
theorem decodeText_structured_iff {text : String} {kind : SchemaKind DataSchema} {v : Json}
    (hkind : kind.isStructured = true) :
    decodeText text (some kind) = .ok v ↔ Json.ofText? text = some v := by
  have htext : decodeText text (some (.array none none none)) = .ok v ↔ Json.ofText? text = some v := by
    simp only [decodeText]
    split <;> simp [*]
  cases kind with
  | array _ _ _ => exact htext
  | object _ _ => exact htext
  | _ => cases hkind

/-- A plain text is decoded if its charset is supported, its bytes are a text and the schema takes it. -/
theorem decode_plainText_iff {body : List UInt8} {schema : Option DataSchema} {params : Dict String} {v : Json} :
    plainText.decode body schema params = .ok v ↔
      checkCharset params = .ok () ∧
        ∃ text, Text.ofUtf8? body = some text ∧ decodeText text (schema.bind (·.kind)) = .ok v := by
  simp only [plainText, bind]
  cases checkCharset params with
  | error fault => simp [Except.bind]
  | ok _ => cases Text.ofUtf8? body <;> simp [Except.bind]

end Codec

namespace CodecRegistry

/-- What the registry decodes as plain text is what the codec decodes. -/
theorem decode_plainText {r : CodecRegistry} {content : Content} {default : String} {m : MediaType}
    (hr : r.codec? MediaType.plainText = some Codec.plainText)
    (hm : MediaType.ofString? (content.contentTypeOr default) = some m)
    (hessence : m.essence = MediaType.plainText) (schema : Option DataSchema) (v : Json) :
    r.decode content default schema = .ok v ↔ Codec.plainText.decode content.body schema m.params = .ok v := by
  simp only [decode, hm, hessence, hr]
  cases Codec.plainText.decode content.body schema m.params <;> simp

/-- A plain text payload that is decoded with a typed schema yields a value of its type, unless the type is that
of arrays or of objects. Then it yields whatever the payload is the JSON text of, of any type. -/
theorem decode_accepted_unless_structured {r : CodecRegistry} {content : Content} {default : String}
    {m : MediaType} {s : DataSchema} {kind : SchemaKind DataSchema}
    (hr : r.codec? MediaType.plainText = some Codec.plainText)
    (hm : MediaType.ofString? (content.contentTypeOr default) = some m)
    (hessence : m.essence = MediaType.plainText) (hkind : s.kind = some kind) (v : Json) :
    (kind.isStructured = false → r.decode content default (some s) = .ok v → kind.accepts v = true) ∧
    (kind.isStructured = true →
      (r.decode content default (some s) = .ok v ↔
        Codec.checkCharset m.params = .ok () ∧
          ∃ text, Text.ofUtf8? content.body = some text ∧ Json.ofText? text = some v)) := by
  rw [decode_plainText hr hm hessence, Codec.decode_plainText_iff, Option.bind_some, hkind]
  constructor
  · rintro hscalar ⟨-, text, -, hv⟩
    exact Codec.accepts_of_decodeText hscalar hv
  · intro hstructured
    simp only [Codec.decodeText_structured_iff hstructured]

theorem ofText?_five : Json.ofText? "5" = some (.num (.integer 5 (by decide))) :=
  Json.ofText?_text (v := .num (.integer 5 (by decide))) rfl (by decide)
    (Json.everywhere_num_iff.2 (by simp [Json.DoubleReadsBack]))

/-- A number with blanks around it that is decoded as an integer, and the text of a number that is decoded as an
array. -/
theorem decode_accepted_unless_structured_readings :
    (∃ v, standard.decode ⟨none, Text.utf8 " +7\n"⟩ "text/plain" (some { kind := some (.integer {}) }) = .ok v ∧
      SchemaKind.accepts (σ := DataSchema) (.integer {}) v = true) ∧
    standard.decode ⟨some "text/plain; charset=utf-8", Text.utf8 "5"⟩ MediaType.json
      (some { kind := some (.array none none none) }) = .ok (.num (.integer 5 (by decide))) := by
  constructor
  · have hread : standard.decode ⟨none, Text.utf8 " +7\n"⟩ "text/plain" (some { kind := some (.integer {}) }) =
        .ok (.num (.integer 7 (by decide))) := by rfl
    exact ⟨_, hread, (decode_accepted_unless_structured (m := ⟨"text/plain", []⟩) rfl (by decide +kernel) rfl rfl
      _).1 rfl hread⟩
  · exact ((decode_accepted_unless_structured (m := ⟨"text/plain", [("charset", "utf-8")]⟩) rfl
      (by decide +kernel) rfl rfl _).2 rfl).2 ⟨by rfl, "5", Text.ofUtf8?_utf8 _, ofText?_five⟩

/-- Not all that is decoded is of the type that the schema asks for. -/
theorem decodes_number_for_array :
    ¬ ∀ (body : List UInt8) (s : DataSchema) (kind : SchemaKind DataSchema) (v : Json), s.kind = some kind →
      Codec.plainText.decode body (some s) [] = .ok v → kind.accepts v = true := by
  intro h
  have hread : Codec.plainText.decode (Text.utf8 "5") (some { kind := some (.array none none none) }) [] =
      .ok (.num (.integer 5 (by decide))) :=
    Codec.decode_plainText_iff.2 ⟨rfl, "5", Text.ofUtf8?_utf8 _,
      (Codec.decodeText_structured_iff rfl).2 ofText?_five⟩
  exact absurd (h _ _ _ _ rfl hread) (by decide)

end CodecRegistry
end WebOfThings
