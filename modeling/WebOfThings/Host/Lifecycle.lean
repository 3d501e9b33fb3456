import WebOfThings.Host.Basic

/-!
# The life of a host

Starting, shutting down, and serving a thing reach every binding, whatever the others answer; their failures
are reported together, those of servers in order and then those of clients.

`start` refuses a host that is started and does nothing then; a host that was shut down may be started
again. It counts as started before the first binding is asked, also if all of them fail. `shutdown` reaches
every binding in every state and counts as stopped afterwards. `expose` and `destroy` need the thing to be
there and speak to servers only; `destroy` takes the thing out of the host whatever they answer.

The requests to several bindings are made at once in the program. Here they are made one after the other
(`onBindings`), servers first and factories in the order of their schemes; the order of the answers in the
result is the same.
-/

namespace WebOfThings.Host

variable {ω : Type}

/-- What servers see of the host. -/
def view (h : Host ω) : HostView ω := ⟨h.state, Dict.values h.things⟩

/-- The failures of servers. -/
def serverFailures {α : Type} (answers : List (Except ServerError α)) : List BindingError :=
  answers.filterMap fun
    | .error e => some (.server e)
    | .ok _ => none

/-- The failures of factories, with the schemes as the factories give them. -/
def clientFailures (factories : List (ClientFactory ω)) (answers : List (Except ClientError Unit)) :
    List BindingError :=
  (factories.zip answers).filterMap fun
    | (f, .error e) => some (.client f.scheme e)
    | (_, .ok _) => none

/-- A step on all servers and one on all factories, with the failures of both. -/
def onBindings (h : Host ω) (server : ProtocolServer ω → Effect ω ServerError Unit)
    (factory : ClientFactory ω → Effect ω ClientError Unit) (w : ω) : List BindingError × ω :=
  let factories := Dict.values h.factories
  let (serverAnswers, w) := Effect.runEach (h.servers.map server) w
  let (clientAnswers, w) := Effect.runEach (factories.map factory) w
  (serverFailures serverAnswers ++ clientFailures factories clientAnswers, w)

/-- Starting a host that is not started. It counts as started even if bindings fail. -/
def start (h : Host ω) (w : ω) : Except HostError Unit × Host ω × ω :=
  if h.state = .started then (.error .alreadyStarted, h, w)
  else
    let h := { h with state := .started }
    let (failures, w) := h.onBindings (fun s => s.start h.view) (·.init) w
    (HostError.ofFailures failures, h, w)

/-- Shutting down a host in any state. -/
def shutdown (h : Host ω) (w : ω) : Except HostError Unit × Host ω × ω :=
  let (failures, w) := h.onBindings (·.stop) (·.destroy) w
  (HostError.ofFailures failures, { h with state := .stopped }, w)

/-- Serving a thing on all servers. -/
def expose (h : Host ω) (id : String) (w : ω) : Except HostError Unit × ω :=
  match h.thing? id with
  | none => (.error (.unknownThing id), w)
  | some t =>
    let (answers, w) := Effect.runEach (h.servers.map fun s => s.expose t) w
    (HostError.ofFailures (serverFailures answers), w)

/-- No longer serving a thing and no longer hosting it. -/
def destroy (h : Host ω) (id : String) (w : ω) : Except HostError Unit × Host ω × ω :=
  match h.thing? id with
  | none => (.error (.unknownThing id), h, w)
  | some _ =>
    let (answers, w) := Effect.runEach (h.servers.map fun s => s.destroy id) w
    (HostError.ofFailures (serverFailures answers), { h with things := h.things.erase id }, w)

end WebOfThings.Host
