import WebOfThings.Json.Fields
import WebOfThings.Operation

/-!
# Forms

How an interaction is carried out: where the resource is, for which operations, in which media type and
under which security. A form is a plain record, read from an object or from the array of its fields, and it
is kept as it was written: hrefs stay relative and templates unexpanded until the form is seen in its thing.

The operations are one of two things (`FormOperations`, the program's `DefaultedFormOperations`). A form
that says nothing is suitable for all of them, a form with an empty list for none. The first is written
without `op`, the second with `null` under it, and the reader takes `null` for saying nothing; so a form
with an empty list is the one form that is not read as what was written. `supports` is the test that form
selection makes.

`contentTypeOrDefault` and `responseType` say in which media type a request is encoded and a response is
decoded where nothing else is reported.

The last section has the steps by which a draft writes a form down: `op`, `security`, `scope` and
`additional_response` of the form builder each add to what is there.

Main statement: `supports_iff` (what a form may be used for).
-/

namespace WebOfThings

/-- The operations of a form. -/
inductive FormOperations where
  /-- No list is given: every operation. -/
  | any
  /-- The operations of a list. -/
  | only (ops : List Operation)
  deriving DecidableEq

/-- The response of a form, where it differs from the request. -/
structure ExpectedResponse where
  contentType : String
  deriving DecidableEq

/-- A further response of a form. -/
structure AdditionalResponse where
  success : Bool := true
  contentType : Option String := none
  schema : Option String := none
  deriving DecidableEq

/-- How an interaction is carried out. -/
structure Form where
  op : FormOperations := .any
  href : String
  contentType : Option String := none
  contentCoding : Option String := none
  subprotocol : Option String := none
  security : Option (List String) := none
  scopes : Option (List String) := none
  response : Option ExpectedResponse := none
  additionalResponses : Option (List AdditionalResponse) := none
  deriving DecidableEq

namespace FormOperations

/-- The list under `op`: missing or `null` for no list, one name, or an array of names. -/
def ofJson? : Json → Option FormOperations
  | .null => some .any
  | v => (Json.oneOrMany? (fun v => v.asName?.bind Operation.ofName?) v).map .only

/-- The list as a value: always an array, and `null` where there is no name in it. -/
def toJson : FormOperations → Json
  | .any => .null
  | .only [] => .null
  | .only ops => .arr (ops.map fun op => .str op.name)

end FormOperations

namespace ExpectedResponse

/-- The fields of a response, in order. -/
def fieldNames : List String := ["contentType"]

/-- The response that a value describes. -/
def ofJson? (v : Json) : Option ExpectedResponse := do
  let members ← v.record? fieldNames 1
  let contentType ← Json.required? Json.asString? "contentType" members
  return { contentType }

/-- The response as a value. -/
def toJson (r : ExpectedResponse) : Json := .object [("contentType", .str r.contentType)]

end ExpectedResponse

namespace AdditionalResponse

/-- The fields of a further response, in order. -/
def fieldNames : List String := ["success", "contentType", "schema"]

/-- The response that a value describes. -/
def ofJson? (v : Json) : Option AdditionalResponse := do
  let members ← v.record? fieldNames 3
  let success ← Json.withDefault? Json.asBool? true "success" members
  let contentType ← Json.optional? Json.asString? "contentType" members
  let schema ← Json.optional? Json.asString? "schema" members
  return { success, contentType, schema }

/-- The response as a value; success goes without saying. -/
def toJson (r : AdditionalResponse) : Json :=
  .object <|
    (if r.success then [] else [("success", .bool false)]) ++
    Json.field "contentType" (r.contentType.map .str) ++
    Json.field "schema" (r.schema.map .str)

end AdditionalResponse

namespace Form

/-- The media type of a form that declares none. -/
def defaultContentType : String := "text/plain"

/-- The media type of the requests of a form. -/
def contentTypeOrDefault (f : Form) : String := f.contentType.getD defaultContentType

/-- The media type of a response that comes without one. -/
def responseType (f : Form) : String :=
  match f.response with
  | some r => r.contentType
  | none => f.contentTypeOrDefault

/-- Whether a form may be used for an operation. -/
def supports (f : Form) (op : Operation) : Bool :=
  match f.op with
  | .any => true
  | .only ops => decide (op ∈ ops)

/-- A form may be used for everything, or for what it lists. -/
theorem supports_iff (f : Form) (op : Operation) :
    f.supports op = true ↔ f.op = .any ∨ ∃ ops, f.op = .only ops ∧ op ∈ ops := by
  unfold supports
  split
  · next h => simp [h]
  · next ops h => simp [h]

/-- The fields of a form, in order. -/
def fieldNames : List String :=
  ["op", "href", "contentType", "contentCoding", "subprotocol", "security", "scopes", "response",
   "additionalResponses"]

/-- The form that a value describes. -/
def ofJson? (v : Json) : Option Form := do
  let members ← v.record? fieldNames 8
  let op ← Json.withDefault? FormOperations.ofJson? .any "op" members
  let href ← Json.required? Json.asString? "href" members
  let contentType ← Json.optional? Json.asString? "contentType" members
  let contentCoding ← Json.optional? Json.asString? "contentCoding" members
  let subprotocol ← Json.optional? Json.asString? "subprotocol" members
  let security ← Json.optional? (Json.oneOrMany? Json.asString?) "security" members
  let scopes ← Json.optional? (Json.oneOrMany? Json.asString?) "scopes" members
  let response ← Json.optional? ExpectedResponse.ofJson? "response" members
  let additionalResponses ←
    Json.optional? (Json.oneOrMany? AdditionalResponse.ofJson?) "additionalResponses" members
  return { op, href, contentType, contentCoding, subprotocol, security, scopes, response,
           additionalResponses }

/-- The form as a value. -/
def toJson (f : Form) : Json :=
  .object <|
    (if f.op = .any then [] else [("op", f.op.toJson)]) ++
    [("href", .str f.href)] ++
    Json.field "contentType" (f.contentType.map .str) ++
    Json.field "contentCoding" (f.contentCoding.map .str) ++
    Json.field "subprotocol" (f.subprotocol.map .str) ++
    Json.field "security" (f.security.map (Json.oneOrMany .str)) ++
    Json.field "scopes" (f.scopes.map (Json.oneOrMany .str)) ++
    Json.field "response" (f.response.map ExpectedResponse.toJson) ++
    Json.field "additionalResponses"
      (f.additionalResponses.map (Json.oneOrMany AdditionalResponse.toJson))

/-! ## Writing a form down step by step -/

/-- The form with one more operation. -/
def allow (f : Form) (op : Operation) : Form :=
  match f.op with
  | .any => { f with op := .only [op] }
  | .only ops => { f with op := .only (ops ++ [op]) }

/-- The form with one more security definition in force. -/
def secure (f : Form) (name : String) : Form :=
  { f with security := some (f.security.getD [] ++ [name]) }

/-- The form with one more authorization scope. -/
def withScope (f : Form) (scope : String) : Form :=
  { f with scopes := some (f.scopes.getD [] ++ [scope]) }

/-- The form with one more further response. -/
def withResponse (f : Form) (r : AdditionalResponse) : Form :=
  { f with additionalResponses := some (f.additionalResponses.getD [] ++ [r]) }

end Form
end WebOfThings
