import WebOfThings.Security
import WebOfThings.Text.Quoted
import WebOfThings.Text.Utf8

/-!
# Credentials

A security scheme says how a thing expects to be authenticated; the secret itself is kept in a store, under
a part of the hrefs that it is for or under the id of a thing.

`findForHref?` is `find_for_href`: of the keys that occur in the href the longest wins, counted in bytes,
and of two that are equally long the smaller one. The store has no order of its own, so the choice is
written as a fold that compares each entry with the best of the others (`foremost?`); that it does not
depend on how the entries are listed is a theorem. The empty key occurs in every href and is for none.

`resolve` is `resolve_credentials`. Only the first of the schemes in force counts. Where there is none, or
it is `nosec`, the store is not looked at. Else the secret is the one for the href, or the one under the id
of the thing where no key is for the href, and it has to be of the kind that the mechanism needs
(`expectedKind?`, after `expected_kind`), if it needs a certain one.

Diagnostics tell the name of a user and never a secret: `diagnostic` has a mark in its place.

Main statement: `resolve_of_noSecurity` (a first scheme that needs no secret never looks at the store).
-/

namespace WebOfThings

/-- The kinds of secrets. -/
inductive CredentialKind where
  | basic
  | bearer
  | apiKey
  deriving DecidableEq

/-- The name of a kind for people. -/
def CredentialKind.label : CredentialKind → String
  | basic => "Basic"
  | bearer => "Bearer"
  | apiKey => "APIKey"

/-- A secret. -/
inductive Credentials where
  | basic (username password : String)
  | bearer (token : String)
  | apiKey (key : String)
  deriving DecidableEq

namespace Credentials

/-- The kind of a secret. -/
def kind : Credentials → CredentialKind
  | basic .. => .basic
  | bearer _ => .bearer
  | apiKey _ => .apiKey

/-- The names of the fields of each kind, in order. -/
def fieldNames (type : String) : List String :=
  match type with
  | "basic" => ["username", "password"]
  | "bearer" => ["token"]
  | "apikey" => ["key"]
  | _ => []

/-- The secret of a type with its fields. -/
def ofFields? (type : String) (fields : List (String × Json)) : Option Credentials :=
  match type with
  | "basic" => do
    let username ← Json.required? Json.asString? "username" fields
    let password ← Json.required? Json.asString? "password" fields
    return .basic username password
  | "bearer" => (Json.required? Json.asString? "token" fields).map .bearer
  | "apikey" => (Json.required? Json.asString? "key" fields).map .apiKey
  | _ => none

/-- The secret that a value describes: an object with its type among the members, or an array with its
type in front. -/
def ofJson? : Json → Option Credentials
  | .obj members => do
    let type ← Json.required? Json.asString? "type" members
    ofFields? type members
  | .arr (.str type :: items) =>
    if items.length = (fieldNames type).length then ofFields? type ((fieldNames type).zip items)
    else none
  | _ => none

/-- The secret as a value. -/
def toJson : Credentials → Json
  | basic username password =>
    .object [("type", .str "basic"), ("username", .str username), ("password", .str password)]
  | bearer token => .object [("type", .str "bearer"), ("token", .str token)]
  | apiKey key => .object [("type", .str "apikey"), ("key", .str key)]

/-- The secret for diagnostics, which do not tell it. -/
def diagnostic : Credentials → String
  | basic username _ =>
    "Basic \x7b username: " ++ Text.quote username ++ ", password: \"<redacted>\" \x7d"
  | bearer _ => "Bearer \x7b token: \"<redacted>\" \x7d"
  | apiKey _ => "ApiKey \x7b key: \"<redacted>\" \x7d"

end Credentials

/-- Secrets by a part of the hrefs that they are for, or by the id of a thing. -/
abbrev CredentialStore := Dict Credentials

namespace CredentialStore

/-- Whether a text stands somewhere in another one. -/
def occursIn (part : List Char) : List Char → Bool
  | [] => part.isEmpty
  | c :: rest => part.isPrefixOf (c :: rest) || occursIn part rest

/-- Whether the secret under a key is for an href. -/
def isFor (key href : String) : Bool := key ≠ "" && occursIn key.toList href.toList

/-- Whether a key goes before another one: the longer one, counted in bytes, and of two that are equally long
the smaller one. -/
def precedes (key other : String) : Bool :=
  other.utf8ByteSize < key.utf8ByteSize ||
    (other.utf8ByteSize == key.utf8ByteSize && decide (key < other))

/-- The entry whose key goes before those of the others, in whatever order they are listed. -/
def foremost? : List (String × Credentials) → Option (String × Credentials)
  | [] => none
  | e :: rest =>
    match foremost? rest with
    | none => some e
    | some best => if precedes best.1 e.1 then some best else some e

/-- The secret for an href: the one with the longest key in it, of several the one with the smallest key. -/
def findForHref? (store : CredentialStore) (href : String) : Option Credentials :=
  (foremost? (store.filter fun (key, _) => isFor key href)).map Prod.snd

/-- The store that a value describes. -/
def ofJson? : Json → Option CredentialStore := Json.asDict? Credentials.ofJson?

/-- The store as a value. -/
def toJson (store : CredentialStore) : Json := Json.ofDict Credentials.toJson store

end CredentialStore

/-- The kind of secret that a mechanism needs. Those that need none, or carry theirs elsewhere, have
none. -/
def Mechanism.expectedKind? : Mechanism → Option CredentialKind
  | .basic _ | .digest .. => some .basic
  | .bearer _ | .oauth2 _ => some .bearer
  | .apiKey _ => some .apiKey
  | _ => none

/-- Why there is no secret for an interaction. -/
inductive CredentialsError where
  /-- The store has none. -/
  | notFound (href : String)
  /-- The stored one is of another kind than the scheme needs. -/
  | kindMismatch (scheme : String) (expected actual : CredentialKind)
  deriving DecidableEq

/-- The wording of the error. -/
def CredentialsError.message : CredentialsError → String
  | notFound href => "No credentials found for \"" ++ href ++ "\""
  | kindMismatch scheme expected actual =>
    "Security scheme " ++ scheme ++ " expects " ++ expected.label ++ " credentials, found " ++
      actual.label

namespace CredentialStore

/-- The secret for an href under the first of the schemes in force, none if that needs none. Where no
key is for the href, the secret under the id of the thing serves. -/
def resolve (store : CredentialStore) (schemes : List SecurityScheme) (href : String)
    (thing : Option String) : Except CredentialsError (Option Credentials) :=
  match schemes with
  | [] => .ok none
  | scheme :: _ =>
    if scheme.mechanism = .noSecurity then .ok none
    else
      match (store.findForHref? href).or (thing.bind (Dict.get? · store)) with
      | none => .error (.notFound href)
      | some c =>
        match scheme.mechanism.expectedKind? with
        | none => .ok (some c)
        | some expected =>
          if expected = c.kind then .ok (some c)
          else .error (.kindMismatch scheme.mechanism.label expected c.kind)

/-- Nothing is looked up for a scheme that needs no secret. -/
theorem resolve_of_noSecurity {scheme : SecurityScheme} (h : scheme.mechanism = .noSecurity)
    (store : CredentialStore) (others : List SecurityScheme) (href : String)
    (thing : Option String) : store.resolve (scheme :: others) href thing = .ok none := by
  simp [resolve, h]

end CredentialStore
end WebOfThings
