import WebOfThings.Json.Beginning
import WebOfThings.Shape
import WebOfThings.Thing.Basic

/-!
# Texts of things and vocabularies

The text of a description is taken member by member, from left to right (`from_json`). The first fault is
the one that is reported: a member that the vocabulary knows and that is repeated, one that cannot be read,
or the place where the text stops being JSON. Only a fault of the vocabulary itself has a wording.

Two passes over the members find that fault. `firstFault?` goes through the members as they are written and
stops at the first that is wrong in itself. If there is none, `ofWritten` reads the value in normal form,
where what is missing is noticed and what the members say together. For a text that stops being JSON, the
first pass is made over its beginning.

`@context` is the one member that is read as it is written, since its objects may repeat a default
vocabulary. A text that is no object is no description, whatever it is.

`Context.ofText` and `Iri.ofText` are the readers of a vocabulary and of an IRI alone, with the same care
for what stands before a fault.
-/

namespace WebOfThings

/-! ## Vocabularies -/

namespace Context

/-- The fault of a context of which only a beginning is there, in what is complete of it. -/
def faultOfBeginning? (b : Json.Beginning) : Option ContextError :=
  let read : Except ContextError Context :=
    match b with
    | .nothing => .ok empty
    | .whole v => ofJson v
    | .array items _ => ofJson (.arr items)
    | .object members | .member members _ _ => ofJson (.obj members)
  match read with
  | .ok _ => none
  | .error e => some e

/-- The context that a text describes. -/
def ofText (s : String) : Except DescriptionError Context :=
  match Json.parse? .all s.toList with
  | some v =>
    match ofJson v with
    | .ok context => .ok context
    | .error e => .error (.context e)
  | none =>
    match faultOfBeginning? (.ofText .all s.toList) with
    | some e => .error (.context e)
    | none => .error .malformed

end Context

/-- The IRI that a text gives. -/
def Iri.ofText (s : String) : Except DescriptionError Iri :=
  match Json.parse? .all s.toList, Json.Beginning.ofText .all s.toList with
  | some v, _ => (ofJson v).mapError .context
  | none, .whole (.str "") => .error (.context .emptyIri)
  | none, _ => .error .malformed

/-! ## Things -/

namespace Thing

/-- The shapes of the members of a description that have known members themselves. -/
def fieldShape (key : String) : Shape :=
  match key with
  | "titles" | "descriptions" => .dict .text
  | "version" => .version
  | "properties" => .dict .property
  | "actions" => .dict .action
  | "events" => .dict .event
  | "links" => .list .link
  | "forms" => .list .form
  | "securityDefinitions" => .dict .scheme
  | "uriVariables" => .dict .schema
  | _ => .free

/-- What is wanted of the text of a description: all members, those with plain records in them in
outline. -/
def outline : Json.Outline :=
  .members (["version", "links", "forms"].map fun key => (key, (fieldShape key).outline))

/-- Whether a known member other than the vocabulary can be read, whatever the others say. -/
def canReadMember (key : String) (v : Json) : Bool :=
  (fieldShape key).isUnambiguous v &&
    (ofMembers? .standard (Dict.ofList [("id", .str ""), (key, v.normal)])).isSome

/-- The fault of one member, as it is written. -/
def memberFault? (key : String) (v : Json) : Option DescriptionError :=
  if key = "@context" then
    match Context.ofJson v with
    | .ok _ => none
    | .error e => some (.context e)
  else if canReadMember key v then none
  else some .malformed

/-- The first fault among members, after those whose keys have been seen. -/
def firstFault? (seen : List String) : List (String × Json) → Option DescriptionError
  | [] => none
  | (key, v) :: rest =>
    if fieldNames.contains key then
      if seen.contains key then some .malformed
      else (memberFault? key v).or (firstFault? (key :: seen) rest)
    else firstFault? seen rest

/-- The thing that a value describes, taken as it is written. -/
def ofWritten (v : Json) : Except DescriptionError Thing :=
  match v with
  | .obj members =>
    match firstFault? [] members with
    | some e => .error e
    | none => ofJson v.normal
  | _ => .error .malformed

/-- The fault of a text that stops being JSON, given what is complete of it. -/
def faultOfBeginning (b : Json.Beginning) : DescriptionError :=
  match b with
  | .whole v =>
    match ofWritten v with
    | .ok _ => .malformed
    | .error e => e
  | .object members => (firstFault? [] members).getD .malformed
  | .member members key value =>
    match firstFault? [] members with
    | some e => e
    | none =>
      if key = "@context" && !members.any (fun m => m.1 = key) then
        match Context.faultOfBeginning? value with
        | some e => .context e
        | none => .malformed
      else .malformed
  | _ => .malformed

/-- The thing that a text describes. -/
def ofText (s : String) : Except DescriptionError Thing :=
  match Json.parse? outline s.toList with
  | some v => ofWritten v
  | none => .error (faultOfBeginning (.ofText outline s.toList))

end Thing
end WebOfThings
