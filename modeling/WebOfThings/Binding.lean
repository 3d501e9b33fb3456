import WebOfThings.Codec.Basic
import WebOfThings.Credentials
import WebOfThings.LocalThing
import WebOfThings.Query

/-!
# Protocol bindings

What a host needs from a protocol: *clients*, which carry out interactions with remote things, factories of
clients by URI scheme, and *servers*, which make local things reachable. These are the contracts that
`ProtocolClient`, `ProtocolClientFactory` and `ProtocolServer` are, and none of them is implemented here: a
binding is data, a record of functions on a world `ω` that the host knows nothing of. What a theorem says of
every host it says of every such record, a binding that fails, lies or counts its calls included.

An `Effect` is a step on the world that may fail. Its world comes back in either case, since a request that
fails has still been sent. `runEach` carries out a list of steps one after the other and keeps every answer:
no failure of one binding keeps another from its turn.

A server is handed what it asks the host for when it is started, a `HostView` with the state and the things
of that moment, and `expose` hands it the thing with its live state. Starting and shutting down a factory do
nothing by default, and a client that cannot look for things fails `discover` as unsupported.

Main statement: `length_runEach` (carrying out a list of steps gives one answer for each).
-/

namespace WebOfThings

/-- Why a client fails. -/
inductive ClientError where
  /-- The client cannot do this. -/
  | unsupported (operation : String)
  /-- The transport failed. -/
  | transport (href cause : String)
  deriving DecidableEq

/-- The wording of the error. -/
def ClientError.message : ClientError → String
  | unsupported operation => operation ++ " is not supported by this protocol client"
  | transport href cause => "Transport failure on " ++ href ++ ": " ++ cause

/-- Why a server fails. -/
inductive ServerError where
  /-- The server has not been started. -/
  | notStarted
  /-- The transport failed. -/
  | transport (cause : String)
  deriving DecidableEq

/-- The wording of the error. -/
def ServerError.message : ServerError → String
  | notStarted => "The protocol server has not been started"
  | transport cause => "Protocol server failure: " ++ cause

/-- A step on a world that may fail. -/
abbrev Effect (ω ε α : Type) := ω → Except ε α × ω

namespace Effect

variable {ω ε α : Type}

/-- The step that does nothing and succeeds. -/
def pure (a : α) : Effect ω ε α := fun w => (.ok a, w)

/-- The step that does nothing and fails. -/
def fail (e : ε) : Effect ω ε α := fun w => (.error e, w)

/-- Steps carried out one after the other, whatever the answers of the earlier ones. -/
def runEach : List (Effect ω ε α) → ω → List (Except ε α) × ω
  | [], w => ([], w)
  | step :: rest, w =>
    let (answer, w) := step w
    let (answers, w) := runEach rest w
    (answer :: answers, w)

/-- There is one answer for each action. -/
theorem length_runEach (steps : List (Effect ω ε α)) (w : ω) :
    (runEach steps w).1.length = steps.length := by
  induction steps generalizing w with
  | nil => rfl
  | cons step rest ih => simp [runEach, ih]

end Effect

/-- The client side of a protocol. The forms that it receives have absolute hrefs with nothing left to
expand. -/
structure ProtocolClient (ω : Type) where
  /-- Setting up the authentication of the next request; `false` if the schemes are not understood. -/
  setSecurity : List SecurityScheme → Option Credentials → ω → Bool × ω
  read : Form → Effect ω ClientError Content
  write : Form → Content → Effect ω ClientError (Option Content)
  invoke : Form → Option Content → Effect ω ClientError Content
  /-- The notifications of a resource, each of which may be a failure. -/
  observe : Form → Effect ω ClientError (List (Except ClientError Content))
  /-- The things that a client finds; by default it cannot look for any. -/
  discover : ThingFilter → Effect ω ClientError (List (Except ClientError Thing)) :=
    fun _ => Effect.fail (.unsupported "discovery")

/-- The provider of the clients of a URI scheme. -/
structure ClientFactory (ω : Type) where
  scheme : String
  client : ProtocolClient ω
  /-- What is done when the host starts. -/
  init : Effect ω ClientError Unit := Effect.pure ()
  /-- What is done when the host shuts down. -/
  destroy : Effect ω ClientError Unit := Effect.pure ()

/-- The phases in the life of a host. -/
inductive HostState where
  | created
  | started
  | stopped
  deriving DecidableEq

namespace HostState

/-- The name of a phase. -/
def name : HostState → String
  | created => "created"
  | started => "started"
  | stopped => "stopped"

/-- The name of a phase in diagnostics. -/
def label : HostState → String
  | created => "Created"
  | started => "Started"
  | stopped => "Stopped"

end HostState

/-- What a server sees of its host when it is started. -/
structure HostView (ω : Type) where
  state : HostState
  things : List (LocalThing ω)

/-- The server side of a protocol. -/
structure ProtocolServer (ω : Type) where
  start : HostView ω → Effect ω ServerError Unit
  stop : Effect ω ServerError Unit
  /-- Serving a thing, with the state that it has then. -/
  expose : LocalThing ω → Effect ω ServerError Unit
  /-- No longer serving the thing with an id; the result says whether it was served. -/
  destroy : String → Effect ω ServerError Bool

end WebOfThings
