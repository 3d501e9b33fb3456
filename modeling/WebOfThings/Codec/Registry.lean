import WebOfThings.Codec.PlainText

/-!
# The registry of codecs

One codec per base media type, in lower case, and the media types that are offered to protocol servers. A
media type without codec is converted as CBOR. This is `ContentManager`.

- `add` and `remove` are `add_codec` and `remove_codec`. A codec takes the place of the one with the same
  media type, and whether it is offered is decided anew: adding without offering withdraws an earlier
  offer.
- `encode` and `decode` are `value_to_content` and `content_to_value`. Both find the codec by the essence
  and hand it the parameters. The content keeps the media type as it was given, parameters and case
  included.
- `supports` and `offeredTypes` are `is_supported` and `offered_media_types`.

The name that errors carry is that of the codec where there is one, and the whole text of the media type
where there is none.

Main statements: `codec?_add` and `codec?_remove` (the codec of a media type after each change).
-/

namespace WebOfThings

/-- The known codecs and the offered media types. -/
structure CodecRegistry where
  codecs : Dict Codec := []
  offered : Dict Unit := []

namespace CodecRegistry

/-- The registry without codecs. -/
def empty : CodecRegistry := {}

/-- The codec of a base media type. -/
def codec? (r : CodecRegistry) (essence : String) : Option Codec := Dict.get? essence r.codecs

/-- The registry with a codec in place of the one for the same media type, which is offered or not. -/
def add (r : CodecRegistry) (codec : Codec) (offered : Bool) : CodecRegistry :=
  let key := MediaType.lowerCase codec.mediaType
  { codecs := Dict.insert key codec r.codecs
    offered := if offered then Dict.insert key () r.offered else Dict.erase key r.offered }

/-- The registry without the codec of a media type. -/
def remove (r : CodecRegistry) (mediaType : String) : CodecRegistry :=
  let key := MediaType.lowerCase mediaType
  { codecs := Dict.erase key r.codecs, offered := Dict.erase key r.offered }

/-- Whether `remove` has something to remove. -/
def hasCodec (r : CodecRegistry) (mediaType : String) : Bool :=
  (r.codec? (MediaType.lowerCase mediaType)).isSome

/-- The registry with the codecs that are built in; those of JSON are offered. -/
def standard : CodecRegistry :=
  (((empty.add .json true).add .thingDescription true).add .plainText false).add .cbor false

instance : Inhabited CodecRegistry := ⟨standard⟩

/-- The offered media types in order. -/
def offeredTypes (r : CodecRegistry) : List String := Dict.keys r.offered

/-- Whether a text names a media type with a codec. -/
def supports (r : CodecRegistry) (mediaType : String) : Bool :=
  ((MediaType.ofString? mediaType).bind fun m => r.codec? m.essence).isSome

/-- The content of a value in a media type. -/
def encode (r : CodecRegistry) (v : Json) (contentType : String) : Except CodecError Content :=
  match MediaType.ofString? contentType with
  | none => .error (.invalidMediaType contentType)
  | some m =>
    match r.codec? m.essence with
    | some codec =>
      match codec.encode v m.params with
      | .ok body => .ok ⟨some contentType, body⟩
      | .error fault => .error (.encode codec.mediaType fault)
    | none => .ok ⟨some contentType, Cbor.write v⟩

/-- The value of a content, whose media type is the given one if it reports none. -/
def decode (r : CodecRegistry) (content : Content) (default : String)
    (schema : Option DataSchema) : Except CodecError Json :=
  let contentType := content.contentTypeOr default
  match MediaType.ofString? contentType with
  | none => .error (.invalidMediaType contentType)
  | some m =>
    match r.codec? m.essence with
    | some codec =>
      match codec.decode content.body schema m.params with
      | .ok v => .ok v
      | .error fault => .error (.decode codec.mediaType fault)
    | none =>
      match Codec.decodeCbor content.body with
      | .ok v => .ok v
      | .error fault => .error (.unsupported contentType fault)

/-- The registry for diagnostics. -/
def diagnostic (r : CodecRegistry) : String :=
  "ContentManager \x7b codecs: " ++ Text.quoteList (Dict.keys r.codecs) ++ ", offered: " ++
    Text.quoteSet r.offeredTypes ++ " \x7d"

/-- After an addition, the codec of its media type is the one that was added. -/
theorem codec?_add (r : CodecRegistry) (codec : Codec) (offered : Bool) (essence : String) :
    (r.add codec offered).codec? essence =
      if MediaType.lowerCase codec.mediaType = essence then some codec else r.codec? essence :=
  Dict.get?_insert ..

/-- After a removal, its media type has no codec and the others keep theirs. -/
theorem codec?_remove {r : CodecRegistry} (hr : r.codecs.Sorted) (mediaType essence : String) :
    (r.remove mediaType).codec? essence =
      if MediaType.lowerCase mediaType = essence then none else r.codec? essence :=
  Dict.get?_erase hr ..

end CodecRegistry
end WebOfThings
