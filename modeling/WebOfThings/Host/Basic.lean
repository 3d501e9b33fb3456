import WebOfThings.Binding
import WebOfThings.Codec.Registry
import WebOfThings.HostConfig

/-!
# Hosts

A host (`Servient`) holds things, the servers that make them reachable, the clients that reach others,
credentials and codecs. Its registries never replace a thing, but a new factory takes the place of the one
for the same scheme.

Factories are kept under their schemes in lower case and looked up in lower case, while their own spelling
stays in the factory and is what errors name. Servers are a list in the order in which they were added, and
the same server may be in it twice. Things are kept by id; `addThing` says whether the id was free and
changes nothing if it was not, and `produce` turns that answer into an error.

Failures of bindings are collected and reported as one result (`aggregate`): none, one as it is, or several
in their order (`ofFailures`). Messages of errors follow those of the program; what wraps an error of a text
reader has no wording here.

Main statements: `factory?_of_lowerCase_eq` (the case of a scheme does not matter) and
`ofFailures_eq_ok_iff`.
-/

namespace WebOfThings

/-- A failure of one binding. -/
inductive BindingError where
  | server (source : ServerError)
  | client (scheme : String) (source : ClientError)
  deriving DecidableEq

/-- The wording of the error. -/
def BindingError.message : BindingError → String
  | server source => "Protocol server failure: " ++ source.message
  | client scheme source =>
    "Protocol client failure for scheme \"" ++ scheme ++ "\": " ++ source.message

/-- Why an operation of a host fails. -/
inductive HostError where
  /-- No thing has the id. -/
  | unknownThing (id : String)
  /-- Another thing has the id. -/
  | duplicateThing (id : String)
  /-- The host has already been started. -/
  | alreadyStarted
  /-- The text is no configuration. -/
  | config
  /-- One binding failed. -/
  | binding (e : BindingError)
  /-- Several bindings failed. -/
  | multiple (errors : List BindingError)
  /-- There is no client for the scheme. -/
  | noClientForScheme (scheme : String)
  /-- The URL has no scheme. -/
  | invalidUrl (url : String)
  /-- A client refused the credentials. -/
  | securityDeclined (url : String)
  /-- What was fetched cannot be decoded. -/
  | content (url : String) (source : CodecError)
  /-- What was fetched is no description. -/
  | description (url : String) (source : DescriptionError)

namespace HostError

/-- The wording of the error, as far as it has one. -/
def message? : HostError → Option String
  | unknownThing id => some ("Unknown Thing \"" ++ id ++ "\"")
  | duplicateThing id => some ("A Thing with id \"" ++ id ++ "\" already exists")
  | alreadyStarted => some "The servient has already been started"
  | binding e => some e.message
  | multiple errors => some ("; ".intercalate (errors.map BindingError.message))
  | noClientForScheme scheme =>
    some ("No protocol client registered for scheme \"" ++ scheme ++ "\"")
  | invalidUrl url => some ("\"" ++ url ++ "\" is not an absolute URL")
  | securityDeclined url =>
    some ("The protocol client refused the credentials for \"" ++ url ++ "\"")
  | config | content .. | description .. => none

/-- The result of many bindings: fine if none failed. -/
def ofFailures : List BindingError → Except HostError Unit
  | [] => .ok ()
  | [e] => .error (.binding e)
  | errors => .error (.multiple errors)

/-- The result of many bindings is fine just if none failed. -/
theorem ofFailures_eq_ok_iff {errors : List BindingError} :
    ofFailures errors = .ok () ↔ errors = [] := by
  unfold ofFailures
  split <;> simp_all

end HostError

/-- A host of things. -/
structure Host (ω : Type) where
  state : HostState := .created
  servers : List (ProtocolServer ω) := []
  factories : Dict (ClientFactory ω) := []
  things : Dict (LocalThing ω) := []
  credentials : CredentialStore := []
  codecs : CodecRegistry := .standard
  /-- How many notifications are kept for a subscriber of a thing that is produced here. -/
  channelCapacity : Nat := 64

namespace Host

variable {ω : Type}

/-- A host that has been set up and not started. -/
def create (config : HostConfig) : Host ω :=
  { credentials := config.credentials, channelCapacity := config.channelCapacity.toNat }

/-- The host for diagnostics. -/
def diagnostic (h : Host ω) : String :=
  "Servient \x7b state: " ++ h.state.label ++
    ", servers: " ++ String.ofList (Number.digits h.servers.length) ++
    ", client_schemes: " ++ Text.quoteList (Dict.keys h.factories) ++
    ", things: " ++ Text.quoteList (Dict.keys h.things) ++
    ", content_manager: " ++ h.codecs.diagnostic ++ " \x7d"

/-! ## Bindings and credentials -/

/-- The host with one more server. -/
def addServer (h : Host ω) (server : ProtocolServer ω) : Host ω :=
  { h with servers := h.servers ++ [server] }

/-- The factory for a scheme. -/
def factory? (h : Host ω) (scheme : String) : Option (ClientFactory ω) :=
  Dict.get? (MediaType.lowerCase scheme) h.factories

/-- The host with a factory in place of the one for the same scheme. -/
def addFactory (h : Host ω) (factory : ClientFactory ω) : Host ω :=
  { h with factories := h.factories.insert (MediaType.lowerCase factory.scheme) factory }

/-- The schemes that there are clients for. -/
def schemes (h : Host ω) : List String := Dict.keys h.factories

/-- The host with credentials in place of those under the same key. -/
def addCredentials (h : Host ω) (key : String) (c : Credentials) : Host ω :=
  { h with credentials := Dict.insert key c h.credentials }

/-- The case of a scheme does not matter. -/
theorem factory?_of_lowerCase_eq (h : Host ω) {s t : String}
    (hst : MediaType.lowerCase s = MediaType.lowerCase t) : h.factory? s = h.factory? t := by
  simp [factory?, hst]

/-! ## Things -/

/-- The thing with an id. -/
def thing? (h : Host ω) (id : String) : Option (LocalThing ω) := Dict.get? id h.things

/-- The host with another state of a thing. -/
def setThing (h : Host ω) (t : LocalThing ω) : Host ω :=
  { h with things := h.things.insert t.id t }

/-- The host with one more thing, unless its id is taken; the result says whether it was added. -/
def addThing (h : Host ω) (t : LocalThing ω) : Bool × Host ω :=
  if h.things.contains t.id then (false, h) else (true, h.setThing t)

/-- The host with a thing made from its description. -/
def produce (h : Host ω) (t : Thing) : Except HostError String × Host ω :=
  match h.addThing (.create t h.channelCapacity) with
  | (true, h) => (.ok t.id, h)
  | (false, h) => (.error (.duplicateThing t.id), h)

end Host
end WebOfThings
