import WebOfThings.Json.Fields

/-!
# Security schemes

How a thing expects to be authenticated, never the secret itself. The mechanisms are a closed set, each with
its own parameters (`SecuritySchemeSubtype` and its records); what is said about any of them, its semantic
types, descriptions and proxy, stands beside the mechanism in `SecurityScheme`.

The name of the mechanism stands under `scheme` in the same object as its parameters. `ofName?` reads the
parameters that go with a name: places such as `header` with an optional name in it (`Placement`), the rules
of a token, those of OAuth 2. A parameter may be missing, but for the flow of OAuth 2. Those with a default
are always written, the others where they are given. The members of other mechanisms are no members of this
one and are passed over. A description may also give the mechanism by its number in the order of `all`,
which is how the reader of the program takes a variant that was buffered.

`label` is the name of a mechanism for people, which messages use.

`MechanismName.ofName?_name`: mechanisms are known by their names.
-/

namespace WebOfThings

/-- Where the secret of a request goes. -/
inductive AuthLocation where
  | header
  | query
  | body
  | cookie
  | uri
  deriving DecidableEq

namespace AuthLocation

/-- Every location. -/
def all : List AuthLocation := [header, query, body, cookie, uri]

/-- The name of a location in descriptions. -/
def name : AuthLocation → String
  | header => "header"
  | query => "query"
  | body => "body"
  | cookie => "cookie"
  | uri => "uri"

/-- The location that a value names. -/
def ofJson? (v : Json) : Option AuthLocation :=
  v.asParameterName?.bind fun s => all.find? fun l => l.name = s

end AuthLocation

/-- What digest authentication protects. -/
inductive ProtectionQuality where
  | auth
  | authInt
  deriving DecidableEq

namespace ProtectionQuality

/-- The name of a quality in descriptions. -/
def name : ProtectionQuality → String
  | auth => "auth"
  | authInt => "auth-int"

/-- The quality that a value names. -/
def ofJson? (v : Json) : Option ProtectionQuality :=
  v.asParameterName?.bind fun s => [auth, authInt].find? fun q => q.name = s

end ProtectionQuality

/-- A place with an optional name in it. -/
structure Placement where
  location : AuthLocation
  name : Option String := none
  deriving DecidableEq

/-- The parameters of a token mechanism. -/
structure TokenRules where
  authorization : Option String := none
  alg : String := "ES256"
  format : String := "jwt"
  placement : Placement := ⟨.header, none⟩
  deriving DecidableEq

/-- The parameters of OAuth 2. -/
structure OAuth2Rules where
  authorization : Option String := none
  token : Option String := none
  refresh : Option String := none
  scopes : Option (List String) := none
  flow : String
  deriving DecidableEq

/-- A security mechanism with its parameters. -/
inductive Mechanism where
  | noSecurity
  | basic (placement : Placement)
  | digest (quality : ProtectionQuality) (placement : Placement)
  | apiKey (placement : Placement)
  | bearer (rules : TokenRules)
  | psk (identity : Option String)
  | certificate (identity : Option String)
  | proofOfPossession (rules : TokenRules)
  | oauth2 (rules : OAuth2Rules)
  | publicKey (identity : Option String)
  deriving DecidableEq

/-- The names of the mechanisms, without parameters. -/
inductive MechanismName where
  | noSecurity
  | basic
  | digest
  | apiKey
  | bearer
  | psk
  | certificate
  | proofOfPossession
  | oauth2
  | publicKey
  deriving DecidableEq

namespace MechanismName

/-- Every mechanism, in the order in which a description may also number them. -/
def all : List MechanismName :=
  [noSecurity, basic, digest, apiKey, bearer, psk, certificate, proofOfPossession, oauth2, publicKey]

/-- The name of a mechanism in descriptions. -/
def name : MechanismName → String
  | noSecurity => "nosec"
  | basic => "basic"
  | digest => "digest"
  | apiKey => "apikey"
  | bearer => "bearer"
  | psk => "psk"
  | certificate => "cert"
  | proofOfPossession => "pop"
  | oauth2 => "oauth2"
  | publicKey => "public"

/-- The mechanism with a name. -/
def ofName? (s : String) : Option MechanismName := all.find? fun m => m.name = s

/-- The mechanism that a value names, by its name or by its number. -/
def ofJson? : Json → Option MechanismName
  | .str s => ofName? s
  | .num (.integer n _) => if 0 ≤ n then all[n.toNat]? else none
  | _ => none

/-- Every mechanism is known by its name. -/
theorem ofName?_name (m : MechanismName) : ofName? m.name = some m := by
  cases m <;> rfl

end MechanismName

namespace Mechanism

/-- The mechanism without its parameters. -/
def toName : Mechanism → MechanismName
  | noSecurity => .noSecurity
  | basic _ => .basic
  | digest .. => .digest
  | apiKey _ => .apiKey
  | bearer _ => .bearer
  | psk _ => .psk
  | certificate _ => .certificate
  | proofOfPossession _ => .proofOfPossession
  | oauth2 _ => .oauth2
  | publicKey _ => .publicKey

/-- The name of a mechanism for people. -/
def label : Mechanism → String
  | noSecurity => "NoSecurity"
  | basic _ => "Basic"
  | digest .. => "Digest"
  | apiKey _ => "APIKey"
  | bearer _ => "Bearer"
  | psk _ => "PSK"
  | certificate _ => "Certificate"
  | proofOfPossession _ => "ProofOfPossession"
  | oauth2 _ => "OAuth2"
  | publicKey _ => "PublicKey"

end Mechanism

namespace Placement

/-- The placement among the members of an object. -/
def ofMembers? (default : AuthLocation) (members : List (String × Json)) : Option Placement := do
  let location ← Json.withDefault? AuthLocation.ofJson? default "in" members
  let name ← Json.optional? Json.asString? "name" members
  return { location, name }

/-- The members that a placement writes. -/
def members (p : Placement) : List (String × Json) :=
  ("in", .str p.location.name) :: Json.field "name" (p.name.map .str)

end Placement

namespace TokenRules

/-- The parameters among the members of an object. -/
def ofMembers? (members : List (String × Json)) : Option TokenRules := do
  let authorization ← Json.optional? Json.asString? "authorization" members
  let alg ← Json.withDefault? Json.asString? "ES256" "alg" members
  let format ← Json.withDefault? Json.asString? "jwt" "format" members
  let placement ← Placement.ofMembers? .header members
  return { authorization, alg, format, placement }

/-- The members that the parameters write. -/
def members (r : TokenRules) : List (String × Json) :=
  Json.field "authorization" (r.authorization.map .str) ++
  [("alg", .str r.alg), ("format", .str r.format)] ++
  r.placement.members

end TokenRules

namespace OAuth2Rules

/-- The parameters among the members of an object. -/
def ofMembers? (members : List (String × Json)) : Option OAuth2Rules := do
  let authorization ← Json.optional? Json.asString? "authorization" members
  let token ← Json.optional? Json.asString? "token" members
  let refresh ← Json.optional? Json.asString? "refresh" members
  let scopes ← Json.optional? (Json.oneOrMany? Json.asString?) "scopes" members
  let flow ← Json.required? Json.asString? "flow" members
  return { authorization, token, refresh, scopes, flow }

/-- The members that the parameters write. -/
def members (r : OAuth2Rules) : List (String × Json) :=
  Json.field "authorization" (r.authorization.map .str) ++
  Json.field "token" (r.token.map .str) ++
  Json.field "refresh" (r.refresh.map .str) ++
  Json.field "scopes" (r.scopes.map (Json.oneOrMany .str)) ++
  [("flow", .str r.flow)]

end OAuth2Rules

namespace Mechanism

/-- The mechanism of a name, from the members that go with it. -/
def ofName? (name : MechanismName) (members : List (String × Json)) : Option Mechanism :=
  let identity := Json.optional? Json.asString? "identity" members
  match name with
  | .noSecurity => some .noSecurity
  | .basic => (Placement.ofMembers? .header members).map .basic
  | .digest => do
    let quality ← Json.withDefault? ProtectionQuality.ofJson? .auth "qop" members
    let placement ← Placement.ofMembers? .header members
    return .digest quality placement
  | .apiKey => (Placement.ofMembers? .query members).map .apiKey
  | .bearer => (TokenRules.ofMembers? members).map .bearer
  | .psk => identity.map .psk
  | .certificate => identity.map .certificate
  | .proofOfPossession => (TokenRules.ofMembers? members).map .proofOfPossession
  | .oauth2 => (OAuth2Rules.ofMembers? members).map .oauth2
  | .publicKey => identity.map .publicKey

/-- The names of the parameters that go with the name of a mechanism. -/
def parameterNames : MechanismName → List String
  | .noSecurity => []
  | .basic | .apiKey => ["in", "name"]
  | .digest => ["qop", "in", "name"]
  | .bearer | .proofOfPossession => ["authorization", "alg", "format", "in", "name"]
  | .psk | .certificate | .publicKey => ["identity"]
  | .oauth2 => ["authorization", "token", "refresh", "scopes", "flow"]

/-- The members that the parameters of a mechanism write. -/
def parameters : Mechanism → List (String × Json)
  | noSecurity => []
  | basic p | apiKey p => p.members
  | digest q p => ("qop", .str q.name) :: p.members
  | bearer r | proofOfPossession r => r.members
  | psk i | certificate i | publicKey i => Json.field "identity" (i.map .str)
  | oauth2 r => r.members

/-- A mechanism with its parameters left at their defaults. -/
def default : MechanismName → Mechanism
  | .noSecurity => .noSecurity
  | .basic => .basic ⟨.header, none⟩
  | .digest => .digest .auth ⟨.header, none⟩
  | .apiKey => .apiKey ⟨.query, none⟩
  | .bearer => .bearer {}
  | .psk => .psk none
  | .certificate => .certificate none
  | .proofOfPossession => .proofOfPossession {}
  | .oauth2 => .oauth2 { flow := "code" }
  | .publicKey => .publicKey none

end Mechanism

/-- A security mechanism with what is said about it. -/
structure SecurityScheme where
  types : Option (List String) := none
  description : Option String := none
  descriptions : Option (Dict String) := none
  proxy : Option String := none
  mechanism : Mechanism
  deriving DecidableEq

namespace SecurityScheme

/-- The scheme that a value describes. -/
def ofJson? : Json → Option SecurityScheme
  | .obj members => do
    let types ← Json.optional? (Json.oneOrMany? Json.asString?) "@type" members
    let description ← Json.optional? Json.asString? "description" members
    let descriptions ← Json.optional? (Json.asDict? Json.asString?) "descriptions" members
    let proxy ← Json.optional? Json.asString? "proxy" members
    let name ← Json.required? MechanismName.ofJson? "scheme" members
    let mechanism ← Mechanism.ofName? name members
    return { types, description, descriptions, proxy, mechanism }
  | _ => none

/-- The scheme as a value. -/
def toJson (s : SecurityScheme) : Json :=
  .object <|
    Json.field "@type" (s.types.map (Json.oneOrMany .str)) ++
    Json.field "description" (s.description.map .str) ++
    Json.field "descriptions" (s.descriptions.map (Json.ofDict .str)) ++
    Json.field "proxy" (s.proxy.map .str) ++
    ("scheme", .str s.mechanism.toName.name) :: s.mechanism.parameters

end SecurityScheme
end WebOfThings
