import WebOfThings.Codec.Registry
import WebOfThings.Proofs.Cbor.RoundTrip
import WebOfThings.Proofs.Json.RoundTrip

/-!
# Contents that are decoded as they were encoded

A value that is encoded as JSON or CBOR, also for want of a codec, is decoded as that value, whatever schema
and default go with it. For JSON every double in the value has to be one that its text is read as; for CBOR
the first key of every object in it must not be too long, and that decides the matter.

A media type denotes JSON if its essence is one of the two that the JSON codec serves, and CBOR if it is
that of the CBOR codec or has no codec at all; parameters and case of letters do not matter. Registries are
asked for the structured codecs only (`HasStructured`), so the statement holds after further codecs have
been added. `not_roundTrips_underLongKey` is an object with one long key, which is encoded and not decoded.
-/

namespace WebOfThings

namespace Codec

/-- A normal value is decoded from its text, if it is not too deep and its doubles read back. -/
theorem decodeJson_text {v : Json} (hnormal : v.IsNormal) (hdepth : v.depth ≤ Json.maxDepth)
    (hdoubles : v.Everywhere Json.DoubleReadsBack) : decodeJson (Text.utf8 v.text) = .ok v := by
  have hread := Json.ofText?_text hnormal hdepth hdoubles
  -- An empty body would be `null`, but no value has an empty text.
  have hbody : (Text.utf8 v.text).isEmpty = false := by
    refine Bool.eq_false_iff.2 fun hempty => ?_
    have htext := Text.ofUtf8?_utf8 v.text
    rw [List.isEmpty_iff.1 hempty] at htext
    have hempty : v.text = "" := Option.some.inj (htext.symm.trans (by decide))
    rw [hempty, Json.ofText?_empty] at hread
    cases hread
  rw [decodeJson, hbody, Text.ofUtf8?_utf8, Option.bind_some, hread]
  rfl

/-- A normal value is decoded from its bytes, if it is not too deep, just where every first key in it fits. -/
theorem decodeCbor_write {v : Json} (hnormal : v.IsNormal) (hdepth : v.depth ≤ Cbor.maxDepth)
    (hlength : (Cbor.write v).length < 18446744073709551616) :
    decodeCbor (Cbor.write v) = .ok v ↔ v.Everywhere Cbor.FirstKeyFits := by
  rw [← Cbor.read?_write_eq_some_iff hnormal hlength hdepth, decodeCbor]
  split
  · next w hw => rw [hw, Except.ok.injEq, Option.some.injEq]
  · next hnone => simp [hnone]

end Codec

namespace CodecRegistry

/-- The codecs of JSON, of Thing Descriptions and of CBOR are those that are built in. -/
structure HasStructured (r : CodecRegistry) : Prop where
  json : r.codec? MediaType.json = some Codec.json
  thingDescription : r.codec? MediaType.thingDescription = some Codec.thingDescription
  cbor : r.codec? MediaType.cbor = some Codec.cbor

/-- The contents of a base media type are JSON. -/
def IsJson (essence : String) : Prop :=
  essence = MediaType.json ∨ essence = MediaType.thingDescription

/-- The contents of a base media type are CBOR, by its codec or for want of one. -/
def IsCbor (r : CodecRegistry) (essence : String) : Prop :=
  essence = MediaType.cbor ∨ r.codec? essence = none

variable {r : CodecRegistry} {contentType : String} {m : MediaType} {v : Json}

/-- A registry with the structured codecs has one for every type that denotes JSON. -/
theorem HasStructured.codec?_of_isJson (hr : r.HasStructured) {essence : String} (h : IsJson essence) :
    ∃ mediaType, r.codec? essence = some (Codec.jsonFor mediaType) := by
  rcases h with rfl | rfl
  · exact ⟨_, hr.json⟩
  · exact ⟨_, hr.thingDescription⟩

/-- Under a type that denotes CBOR a value is written as CBOR. -/
theorem encode_of_isCbor (hr : r.HasStructured) (hm : MediaType.ofString? contentType = some m)
    (h : r.IsCbor m.essence) (v : Json) :
    r.encode v contentType = .ok ⟨some contentType, Cbor.write v⟩ := by
  rcases h with h | h
  · simp only [encode, hm, h, hr.cbor, Codec.cbor]
  · simp only [encode, hm, h]

/-- Under a type that denotes CBOR a body is read as CBOR. -/
theorem decode_of_isCbor (hr : r.HasStructured) (hm : MediaType.ofString? contentType = some m)
    (h : r.IsCbor m.essence) (body : List UInt8) (default : String) (schema : Option DataSchema) :
    r.decode ⟨some contentType, body⟩ default schema = .ok v ↔ Codec.decodeCbor body = .ok v := by
  rcases h with h | h
  · simp only [decode, Content.contentTypeOr, Option.getD_some, hm, h, hr.cbor, Codec.cbor]
    split <;> simp_all
  · simp only [decode, Content.contentTypeOr, Option.getD_some, hm, h]
    split <;> simp_all

/-- Encoding succeeds, the content has the media type as it was given, and decoding gives the value. -/
def RoundTrips (r : CodecRegistry) (contentType default : String) (schema : Option DataSchema) (v : Json) :
    Prop :=
  ∃ body, r.encode v contentType = .ok ⟨some contentType, body⟩ ∧
    r.decode ⟨some contentType, body⟩ default schema = .ok v

/-- A value comes back from JSON if every double in it does. -/
theorem roundTrips_of_isJson (hr : r.HasStructured) (hm : MediaType.ofString? contentType = some m)
    (h : IsJson m.essence) (hnormal : v.IsNormal) (hdepth : v.depth ≤ Json.maxDepth)
    (hdoubles : v.Everywhere Json.DoubleReadsBack) (default : String) (schema : Option DataSchema) :
    r.RoundTrips contentType default schema v := by
  obtain ⟨mediaType, hcodec⟩ := hr.codec?_of_isJson h
  refine ⟨Text.utf8 v.text, by simp only [encode, hm, hcodec, Codec.jsonFor], ?_⟩
  simp only [decode, Content.contentTypeOr, Option.getD_some, hm, hcodec, Codec.jsonFor,
    Codec.decodeJson_text hnormal hdepth hdoubles]

/-- A value comes back from CBOR exactly if no first key in it is too long. -/
theorem roundTrips_iff_of_isCbor (hr : r.HasStructured) (hm : MediaType.ofString? contentType = some m)
    (h : r.IsCbor m.essence) (hnormal : v.IsNormal) (hdepth : v.depth ≤ Cbor.maxDepth)
    (hlength : (Cbor.write v).length < 18446744073709551616) (default : String)
    (schema : Option DataSchema) :
    r.RoundTrips contentType default schema v ↔ v.Everywhere Cbor.FirstKeyFits := by
  have hencode := encode_of_isCbor hr hm h v
  rw [← Codec.decodeCbor_write hnormal hdepth hlength, ← decode_of_isCbor hr hm h _ default schema]
  constructor
  · rintro ⟨body, hbody, hdecode⟩
    rw [hencode] at hbody
    cases hbody
    exact hdecode
  · exact fun hdecode => ⟨_, hencode, hdecode⟩

/-- Encoding a value in a structured media type never fails and reports the media type as it was given.
The value comes back from JSON if every double in it does, and from CBOR exactly if no first key in it is
too long; the schema and the default play no part. -/
theorem structured_roundTrips (hr : r.HasStructured) (hm : MediaType.ofString? contentType = some m)
    (hnormal : v.IsNormal) (hdepth : v.depth ≤ Json.maxDepth) (default : String)
    (schema : Option DataSchema) :
    (IsJson m.essence ∨ r.IsCbor m.essence →
      ∃ body, r.encode v contentType = .ok ⟨some contentType, body⟩) ∧
    (IsJson m.essence → v.Everywhere Json.DoubleReadsBack →
      r.RoundTrips contentType default schema v) ∧
    (r.IsCbor m.essence → (Cbor.write v).length < 18446744073709551616 →
      (r.RoundTrips contentType default schema v ↔ v.Everywhere Cbor.FirstKeyFits)) := by
  refine ⟨?_, fun h hdoubles => roundTrips_of_isJson hr hm h hnormal hdepth hdoubles default schema,
    fun h hlength => roundTrips_iff_of_isCbor hr hm h hnormal (Nat.le_trans hdepth (by decide)) hlength
      default schema⟩
  rintro (h | h)
  · obtain ⟨mediaType, hcodec⟩ := hr.codec?_of_isJson h
    exact ⟨Text.utf8 v.text, by simp only [encode, hm, hcodec, Codec.jsonFor]⟩
  · exact ⟨Cbor.write v, encode_of_isCbor hr hm h v⟩

/-- The standard registry has the structured codecs. -/
theorem hasStructured_standard : standard.HasStructured where
  json := rfl
  thingDescription := rfl
  cbor := rfl

/-- A value with integers at both ends of their range, a double and an escaped text. -/
def sample : Json :=
  .obj [("range", .arr [.num (.integer (-9223372036854775808) (by decide)),
      .num (.integer 18446744073709551615 (by decide)),
      .num (.float ⟨true, 1022, 2251799813685248, by decide, by decide⟩ rfl)]),
    ("unit", .str "\"K\"")]

theorem structured_roundTrips_sample :
    standard.RoundTrips "application/json" "text/plain" none sample ∧
      standard.RoundTrips "Application/X-Vendor; v=1" "text/plain" none sample := by
  have hjsonType : MediaType.ofString? "application/json" = some ⟨"application/json", []⟩ := by decide +kernel
  have hvendorType : MediaType.ofString? "Application/X-Vendor; v=1" =
      some ⟨"application/x-vendor", [("v", "1")]⟩ := by decide +kernel
  have hjson := structured_roundTrips hasStructured_standard hjsonType (v := sample) rfl (by decide)
    "text/plain" none
  have hcbor := structured_roundTrips hasStructured_standard hvendorType (v := sample) rfl (by decide)
    "text/plain" none
  have hdouble : Number.ofText? (Number.floatText ⟨true, 1022, 2251799813685248, by decide, by decide⟩) =
      some (.float ⟨true, 1022, 2251799813685248, by decide, by decide⟩ rfl) := by decide +kernel
  refine ⟨hjson.2.1 (.inl rfl) ?_, (hcbor.2.2 (.inr rfl) (by decide +kernel)).2 ?_⟩
  · simp [sample, Json.everywhere_obj_iff, Json.everywhere_arr_iff, Json.everywhere_num_iff,
      Json.everywhere_str_iff, Json.DoubleReadsBack, hdouble]
  · simp [sample, Json.everywhere_obj_iff, Json.everywhere_arr_iff, Json.everywhere_num_iff,
      Json.everywhere_str_iff, Cbor.FirstKeyFits]
    decide +kernel

/-- An object with one member that is `null`, under a key of so many letters. -/
def underKeyOfLength (n : Nat) : Json := .obj [(String.ofList (List.replicate n 'a'), .null)]

/-- A text of so many letters has so many bytes. -/
theorem length_utf8_replicate (n : Nat) :
    (Text.utf8 (String.ofList (List.replicate n 'a'))).length = n := by
  have hchar : 'a'.utf8Size = 1 := by decide
  simp [Text.utf8, String.toUTF8_eq_toByteArray, List.utf8Encode, List.length_flatMap, hchar]

/-- An object under one key is read back from CBOR if the key is not too long. -/
theorem everywhere_underKeyOfLength_iff (n : Nat) :
    (underKeyOfLength n).Everywhere Cbor.FirstKeyFits ↔ n ≤ Cbor.maxFirstKey := by
  have hnull : Json.Everywhere Cbor.FirstKeyFits .null :=
    (Json.everywhere_iff_of_parts_eq_nil rfl).2 trivial
  rw [underKeyOfLength, Json.everywhere_obj_iff, List.forall_mem_singleton, and_iff_left hnull,
    Cbor.FirstKeyFits, length_utf8_replicate]

/-- A key of 4097 letters is encoded and not decoded. -/
theorem not_roundTrips_underLongKey :
    (underKeyOfLength 4097).IsNormal ∧ (underKeyOfLength 4097).depth ≤ Json.maxDepth ∧
      (∃ body, standard.encode (underKeyOfLength 4097) "application/cbor" =
        .ok ⟨some "application/cbor", body⟩) ∧
      ¬ standard.RoundTrips "application/cbor" "application/json" none (underKeyOfLength 4097) := by
  have hm : MediaType.ofString? "application/cbor" = some ⟨"application/cbor", []⟩ := by decide +kernel
  have hcbor : standard.IsCbor "application/cbor" := .inl rfl
  have hnormal : (underKeyOfLength 4097).IsNormal := rfl
  have hlength : (Cbor.write (underKeyOfLength 4097)).length < 18446744073709551616 := by
    simp only [underKeyOfLength, Cbor.write, Cbor.writeMembers, Cbor.writeText, List.length_append,
      length_utf8_replicate]
    decide
  refine ⟨hnormal, by decide, ⟨_, encode_of_isCbor hasStructured_standard hm hcbor _⟩, ?_⟩
  rw [roundTrips_iff_of_isCbor hasStructured_standard hm hcbor hnormal (by decide) hlength]
  intro hkeys
  have hfits : (Text.utf8 (String.ofList (List.replicate 4097 'a'))).length ≤ Cbor.maxFirstKey :=
    (Json.everywhere_iff.1 hkeys).1
  rw [length_utf8_replicate] at hfits
  exact absurd hfits (by decide)

end CodecRegistry
end WebOfThings
