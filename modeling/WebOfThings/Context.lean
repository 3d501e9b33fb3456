import WebOfThings.Json.Fields
import WebOfThings.Text.Cut

/-!
# The vocabulary of a description

The `@context` of a Thing Description, as far as it is needed to resolve compact terms: at most one default
vocabulary and a table of named prefixes. Entries that are objects keep their other members, so that a
description can be written again without losing them.

The reader is the visitor of `Context`: a text is the default vocabulary, an object binds names, and an
array may hold both, one element after the other. `addMember` is `visit_entry` and `setDefault` is
`set_default_iri`: the key `@id` gives the default vocabulary, every other key that starts with `@` is kept
beside it, and a second default is an error. The members of an object are taken in the order of the text and
with their repetitions, because a repeated default has to show; only what they are bound to is brought into
normal form.

`expand` turns a compact term `prefix:suffix` into the IRI of the prefix followed by the suffix. It looks at
the first colon only and takes any bound name for a prefix, the scheme of a full IRI included.

Main statement: `expand_of_prefix` (a compact term stands for the IRI of its prefix followed by its suffix).
-/

namespace WebOfThings

/-- A non-empty reference to a vocabulary or a term. -/
structure Iri where
  text : String
  nonempty : text ≠ ""
  deriving DecidableEq

namespace Iri

/-- The text as an IRI, unless it is empty. -/
def of? (s : String) : Option Iri :=
  if h : s ≠ "" then some ⟨s, h⟩ else none

/-- The text of an IRI is the text of an IRI. -/
theorem of?_text (iri : Iri) : of? iri.text = some iri := dif_pos iri.nonempty

/-- The vocabulary of Thing Descriptions 1.1. -/
def thingDescription : Iri := ⟨"https://www.w3.org/2019/wot/td/v1.1", by decide⟩

end Iri

/-- What a vocabulary name is bound to: an IRI, or an object that may name one. -/
inductive ContextEntry where
  | iri (iri : Iri)
  | object (iri : Option Iri) (others : Dict Json)

namespace ContextEntry

/-- The IRI that the entry names. -/
def iri? : ContextEntry → Option Iri
  | .iri i => some i
  | .object i _ => i

/-- The entry as a value. -/
def toJson : ContextEntry → Json
  | .iri i => .str i.text
  | .object i others => .object (Json.field "@id" (i.map fun i => .str i.text) ++ others)

end ContextEntry

/-- The vocabulary of a description. -/
structure Context where
  default : Option ContextEntry
  named : Dict ContextEntry

/-- Why a value is no context. -/
inductive ContextError where
  /-- An IRI is empty. -/
  | emptyIri
  /-- There are two default vocabularies. -/
  | defaultTwice
  /-- An `@id` is bound to something else than a text. -/
  | idNotText
  /-- An array holds something else than texts and objects. -/
  | element
  /-- A term is bound to something else than a text or an object. -/
  | term
  /-- The value is neither text nor object nor array. -/
  | kind
  deriving DecidableEq

/-- The wording of an error; values of the wrong kind have none. -/
def ContextError.message? : ContextError → Option String
  | .emptyIri => some "IRI cannot be an empty string"
  | .defaultTwice => some "default context specified more than once"
  | .idNotText => some "only string @id values in contexts are supported"
  | .element => some "only strings and objects are supported in context arrays"
  | .term => some "context terms must be bound to a string or an object"
  | .kind => none

/-- The IRI that a value gives. -/
def Iri.ofJson : Json → Except ContextError Iri
  | .str s => (of? s).elim (.error .emptyIri) .ok
  | _ => .error .kind

namespace Context

/-- The context with nothing in it. -/
def empty : Context := ⟨none, []⟩

/-- The context whose default vocabulary is that of Thing Descriptions. -/
def standard : Context := ⟨some (.iri .thingDescription), []⟩

instance : Inhabited Context := ⟨standard⟩

/-- The context with one default vocabulary. -/
def ofIri? (s : String) : Option Context :=
  (Iri.of? s).map fun iri => ⟨some (.iri iri), []⟩

/-- The context in which a prefix is bound to an IRI, in place of what it was bound to. -/
def insertPrefix? (context : Context) (name iri : String) : Option Context :=
  (Iri.of? iri).map fun iri => { context with named := context.named.insert name (.iri iri) }

/-- The IRI that a prefix is bound to. -/
def prefix? (context : Context) (name : String) : Option Iri :=
  (Dict.get? name context.named).bind ContextEntry.iri?

/-- The meaning of a term: a compact term `name:suffix` whose prefix is bound stands for the IRI of
the prefix followed by the suffix, every other term for itself. -/
def expand (context : Context) (term : String) : String :=
  match Text.cut ':' term.toList with
  | (_, none) => term
  | (name, some suffix) =>
    match context.prefix? (String.ofList name) with
    | some iri => iri.text ++ String.ofList suffix
    | none => term

/-- A compact IRI whose name is bound expands to what the name stands for and the rest of it. -/
theorem expand_of_prefix {context : Context} {term : String} {name suffix : List Char} {iri : Iri}
    (hcut : Text.cut ':' term.toList = (name, some suffix))
    (hiri : context.prefix? (String.ofList name) = some iri) :
    context.expand term = iri.text ++ String.ofList suffix := by
  simp [expand, hcut, hiri]

/-! ## Reading -/

/-- The context with a default vocabulary, which it must not have yet. -/
def setDefault (context : Context) (iri : String) : Except ContextError Context :=
  match Iri.of? iri with
  | none => .error .emptyIri
  | some iri =>
    match context.default with
    | none => .ok { context with default := some (.iri iri) }
    | some (.object none others) => .ok { context with default := some (.object (some iri) others) }
    | some _ => .error .defaultTwice

/-- The context with a keyword, which belongs to the default vocabulary. -/
def setKeyword (context : Context) (keyword : String) (v : Json) : Context :=
  let iri := context.default.bind ContextEntry.iri?
  let others :=
    match context.default with
    | some (.object _ others) => others
    | _ => []
  { context with default := some (.object iri (Dict.insert keyword v others)) }

/-- The IRI under `@id` in the object that a term is bound to. -/
def readId (members : Dict Json) : Except ContextError (Option Iri) :=
  match Dict.get? "@id" members with
  | none => .ok none
  | some (.str iri) =>
    match Iri.of? iri with
    | some iri => .ok (some iri)
    | none => .error .emptyIri
  | some _ => .error .idNotText

/-- The context with one more member of an object. -/
def addMember (context : Context) (key : String) (v : Json) : Except ContextError Context :=
  if key = "@id" then
    match v with
    | .str iri => context.setDefault iri
    | _ => .error .idNotText
  else if key.toList.head? = some '@' then .ok (context.setKeyword key v)
  else
    match v with
    | .str iri =>
      match context.insertPrefix? key iri with
      | some context => .ok context
      | none => .error .emptyIri
    | .obj members =>
      match readId members with
      | .error e => .error e
      | .ok iri =>
        let entry := ContextEntry.object iri (Dict.erase "@id" members)
        .ok { context with named := context.named.insert key entry }
    | _ => .error .term

/-- The context with the members of an object, one after the other. -/
def addMembers (context : Context) (members : List (String × Json)) :
    Except ContextError Context :=
  members.foldlM (fun context (key, v) => context.addMember key v) context

/-- The context with an element of an array. -/
def addElement (context : Context) : Json → Except ContextError Context
  | .str iri => context.setDefault iri
  | .obj members => context.addMembers members
  | _ => .error .element

/-- The context that a value describes. The members of an object are taken as they are written, so
that a repeated default vocabulary shows; what they are bound to is brought into normal form. -/
def ofJson : Json → Except ContextError Context
  | .str iri =>
    match ofIri? iri with
    | some context => .ok context
    | none => .error .emptyIri
  | .obj members => empty.addMembers (Json.normalMembers members)
  | .arr items => (Json.normalItems items).foldlM addElement empty
  | _ => .error .kind

/-! ## Writing -/

/-- The context as a value: the default vocabulary, the table of prefixes, or both in an array. -/
def toJson (context : Context) : Json :=
  let table := Json.ofDict ContextEntry.toJson context.named
  match context.default, context.named.isEmpty with
  | some entry, true => entry.toJson
  | none, true => .arr []
  | none, false => table
  | some entry, false => .arr [entry.toJson, table]

end Context
end WebOfThings
