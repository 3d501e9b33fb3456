import WebOfThings.Json.Fields

/-!
# Links and versions

Resources that relate to a thing, and the version of a description. Both are plain records: they read from
an object or from the array of their fields, members that they do not know are passed over, and what is
missing is left out when they are written. A link has its target and, if it says so, the media type of the
target, its relation and its anchor; a version has the instance and, if given, the model.
-/

namespace WebOfThings

/-- A resource that relates to a thing. -/
structure Link where
  href : String
  mediaType : Option String := none
  rel : Option String := none
  anchor : Option String := none
  deriving DecidableEq

namespace Link

/-- The fields of a link, in order. -/
def fieldNames : List String := ["href", "type", "rel", "anchor"]

/-- The link that a value describes. -/
def ofJson? (v : Json) : Option Link := do
  let members ← v.record? fieldNames 4
  let href ← Json.required? Json.asString? "href" members
  let mediaType ← Json.optional? Json.asString? "type" members
  let rel ← Json.optional? Json.asString? "rel" members
  let anchor ← Json.optional? Json.asString? "anchor" members
  return { href, mediaType, rel, anchor }

/-- The link as a value. -/
def toJson (l : Link) : Json :=
  .object <|
    ("href", .str l.href) ::
    Json.field "type" (l.mediaType.map .str) ++
    Json.field "rel" (l.rel.map .str) ++
    Json.field "anchor" (l.anchor.map .str)

end Link

/-- The version of a thing and of its model. -/
structure VersionInfo where
  instanceVersion : String
  model : Option String := none
  deriving DecidableEq

namespace VersionInfo

/-- The fields of a version, in order. -/
def fieldNames : List String := ["instance", "model"]

/-- The version that a value describes. -/
def ofJson? (v : Json) : Option VersionInfo := do
  let members ← v.record? fieldNames 2
  let instanceVersion ← Json.required? Json.asString? "instance" members
  let model ← Json.optional? Json.asString? "model" members
  return { instanceVersion, model }

/-- The version as a value. -/
def toJson (v : VersionInfo) : Json :=
  .object (("instance", .str v.instanceVersion) :: Json.field "model" (v.model.map .str))

end VersionInfo
end WebOfThings
