import WebOfThings.DataSchema
import WebOfThings.Text.Quoted

/-!
# Contents and codecs

Values cross the network as *contents*: bytes, and the media type that is reported with them. A codec
converts between the values and the bytes of one base media type (`ContentCodec`). It is a record of two
functions, so a registry can hold any codec, the built-in ones and those of the program around it alike.

What goes wrong has two layers. A `CodecFault` is what a codec finds wrong with a value or with bytes; a
`CodecError` says in which media type and which direction that happened, or that a text names no media type
at all, or that there was no codec and the fallback failed too. Errors have the wording of the program where
it gives one. What is wrong inside of a JSON text, a CBOR item or a UTF-8 sequence is worded by its readers
and is not told apart here.
-/

namespace WebOfThings

/-- The media types that are known from the start. -/
def MediaType.json : String := "application/json"

@[inherit_doc MediaType.json]
def MediaType.thingDescription : String := "application/td+json"

@[inherit_doc MediaType.json]
def MediaType.cbor : String := "application/cbor"

@[inherit_doc MediaType.json]
def MediaType.plainText : String := "text/plain"

/-- A payload with the media type reported for it, if any. -/
structure Content where
  contentType : Option String
  body : List UInt8
  deriving DecidableEq

namespace Content

/-- The reported media type, else the given one. -/
def contentTypeOr (c : Content) (fallback : String) : String := c.contentType.getD fallback

/-- The content for diagnostics, without its bytes. -/
def diagnostic (c : Content) : String :=
  let type :=
    match c.contentType with
    | some t => "Some(" ++ Text.quote t ++ ")"
    | none => "None"
  "Content \x7b content_type: " ++ type ++ ", body: " ++ String.ofList (Number.digits c.body.length) ++
    " bytes \x7d"

end Content

/-- What a codec finds wrong with a value or with bytes. -/
inductive CodecFault where
  /-- The charset is not one of the supported ones. -/
  | charset (name : String)
  /-- The bytes are no UTF-8. -/
  | utf8
  /-- A text is no value of the expected type. -/
  | parse (expected raw : String)
  /-- The bytes or the text are no JSON. -/
  | json
  /-- The bytes are no CBOR. -/
  | cbor
  /-- A fault of a codec that is not built in. -/
  | custom (text : String)
  deriving DecidableEq

/-- The wording of a fault. What is wrong inside of a JSON text, a CBOR item or a UTF-8 sequence is
not worded. -/
def CodecFault.message? : CodecFault → Option String
  | charset name => some ("unsupported charset \"" ++ name ++ "\"")
  | parse expected raw => some ("\"" ++ raw ++ "\" is not a valid " ++ expected)
  | custom text => some text
  | utf8 | json | cbor => none

/-- Why a conversion failed. -/
inductive CodecError where
  /-- The text names no media type. -/
  | invalidMediaType (raw : String)
  /-- A codec refused a value. -/
  | encode (mediaType : String) (fault : CodecFault)
  /-- A codec refused bytes. -/
  | decode (mediaType : String) (fault : CodecFault)
  /-- There is no codec, and the fallback refused. -/
  | unsupported (mediaType : String) (fault : CodecFault)
  deriving DecidableEq

namespace CodecError

/-- The media type of the payload involved. -/
def mediaType : CodecError → String
  | invalidMediaType m | encode m _ | decode m _ | unsupported m _ => m

/-- The fault of the codec involved. -/
def fault? : CodecError → Option CodecFault
  | invalidMediaType _ => none
  | encode _ f | decode _ f | unsupported _ f => some f

/-- The wording of the error, if its fault has one. -/
def message? : CodecError → Option String
  | invalidMediaType m => some ("Invalid media type \"" ++ m ++ "\"")
  | encode m f => f.message?.map fun s => "Unable to encode a value as " ++ m ++ ": " ++ s
  | decode m f => f.message?.map fun s => "Unable to decode a " ++ m ++ " payload: " ++ s
  | unsupported m f =>
    f.message?.map fun s =>
      "No codec registered for " ++ m ++ " and the binary fallback failed: " ++ s

end CodecError

/-- A converter between values and the bytes of one media type. Decoding may be guided by the expected
schema; both directions see the parameters of the media type. -/
structure Codec where
  mediaType : String
  encode : Json → Dict String → Except CodecFault (List UInt8)
  decode : List UInt8 → Option DataSchema → Dict String → Except CodecFault Json

end WebOfThings
