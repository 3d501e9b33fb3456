import WebOfThings.Cbor.Reader
import WebOfThings.Cbor.Writer
import WebOfThings.Codec.Basic
import WebOfThings.Json.Printer
import WebOfThings.Json.Reader
import WebOfThings.Text.Utf8

/-!
# The JSON and CBOR codecs

Both write any value, and ignore the schema and the parameters. The JSON codec serves two media types, its
own and that of Thing Descriptions, and reads an empty payload as `null`; otherwise the payload has to be
UTF-8 with one JSON text in it and nothing but blanks around that. The CBOR codec reads the first item of
the payload and leaves what follows it alone. It is also the fallback of media types that have no codec.
-/

namespace WebOfThings.Codec

/-- The value of a JSON payload. -/
def decodeJson (body : List UInt8) : Except CodecFault Json :=
  if body.isEmpty then .ok .null
  else
    match (Text.ofUtf8? body).bind Json.ofText? with
    | some v => .ok v
    | none => .error .json

/-- The value of a CBOR payload. -/
def decodeCbor (body : List UInt8) : Except CodecFault Json :=
  match Cbor.read? body with
  | some v => .ok v
  | none => .error .cbor

/-- A JSON codec for a media type. -/
def jsonFor (mediaType : String) : Codec where
  mediaType
  encode v _ := .ok (Text.utf8 v.text)
  decode body _ _ := decodeJson body

/-- The codec of JSON. -/
def json : Codec := jsonFor MediaType.json

/-- The codec of Thing Descriptions. -/
def thingDescription : Codec := jsonFor MediaType.thingDescription

/-- The codec of CBOR. -/
def cbor : Codec where
  mediaType := MediaType.cbor
  encode v _ := .ok (Cbor.write v)
  decode body _ _ := decodeCbor body

end WebOfThings.Codec
