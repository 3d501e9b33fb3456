import Mathlib.Data.List.Forall2
import WebOfThings.Host.Lifecycle

/-!
# What the bindings of a host are asked

A host reaches all of its servers, or all of its servers and factories, in one go. What happens then is told
by bindings that note every call and how it ends (`Host.withBindings`): a round over bindings adds one call
for each of them, in order, and its failures are those of the noted calls.

Bindings are data, so one that notes what it is asked is made from any other one, and it behaves the same
apart from its log. Two problems are solved here once for all statements about hosts. The worlds differ, one
with the log and one without, so states of things are moved between them (`LocalThing.aside`). And since a
server is handed things, which have handlers of the world, those handlers act on the world without the log
while the server is asked.

Main statements: `Host.runEach_servers` and `Host.onBindings_noting` (rounds over servers and over all
bindings), `reports_ofFailures` (how their failures are reported).
-/

namespace WebOfThings

/-! ## Steps that are noted -/

/-- The error of an answer, if it is one. -/
def errorOf? {ε α : Type} : Except ε α → Option ε
  | .error e => some e
  | .ok _ => none

variable {ω : Type}

namespace Effect

variable {κ σ ε α : Type}

/-- A step that notes in a log how it ends. -/
def logged (step : Effect ω ε α) (note : Option ε → κ) : Effect (ω × List κ) ε α :=
  fun s => ((step s.1).1, (step s.1).2, s.2 ++ [note (errorOf? (step s.1).1)])

/-- A step on a world with a log that it leaves alone. -/
def besideLog (step : Effect ω ε α) : Effect (ω × List κ) ε α :=
  fun s => ((step s.1).1, (step s.1).2, s.2)

/-- Steps that are noted answer as they do otherwise, and the log gets one entry for each of them. -/
theorem runEach_logged (xs : List σ) (step : σ → Effect ω ε α) (note : σ → Option ε → κ) (w : ω)
    (log : List κ) :
    runEach (xs.map fun x => (step x).logged (note x)) (w, log) =
      ((runEach (xs.map step) w).1, (runEach (xs.map step) w).2,
        log ++ List.zipWith note xs ((runEach (xs.map step) w).1.map errorOf?)) := by
  -- The log grows with every step.
  induction xs generalizing w log with
  | nil => simp [runEach]
  | cons x rest ih => simp [runEach, logged, ih]

/-- A round over things that note what they are asked. -/
theorem runEach_noting {τ : Type} (xs : List σ) {noting : σ → τ} {ask : τ → Effect (ω × List κ) ε α}
    {step : σ → Effect ω ε α} {note : σ → Option ε → κ}
    (hask : ∀ x, ask (noting x) = (step x).logged (note x)) (w : ω) (log : List κ) :
    ∃ answers w', answers.length = xs.length ∧
      runEach ((xs.map noting).map ask) (w, log) =
        (answers, w', log ++ List.zipWith note xs (answers.map errorOf?)) := by
  have hsteps : (xs.map noting).map ask = xs.map fun x => (step x).logged (note x) := by
    rw [List.map_map]
    exact List.map_congr_left fun x _ => hask x
  refine ⟨(runEach (xs.map step) w).1, (runEach (xs.map step) w).2, ?_, ?_⟩
  · rw [length_runEach, List.length_map]
  · rw [hsteps, runEach_logged]

end Effect

/-! ## Things seen without a log -/

section

variable {κ : Type}

/-- A handler on a world with a log, as one on the world by itself: its own notes are dropped. -/
def Handler.aside {α β : Type} (handler : Handler (ω × List κ) α β) : Handler ω α β :=
  fun request w => ((handler request (w, [])).1, (handler request (w, [])).2.1)

/-- A property on a world with a log, as one on the world by itself. -/
def PropertyState.aside (p : PropertyState (ω × List κ)) : PropertyState ω where
  value := p.value
  onRead := p.onRead.map Handler.aside
  onWrite := p.onWrite.map Handler.aside
  channel := p.channel

/-- A thing on a world with a log, as one on the world by itself: the same description, values and channels,
with the handlers that do the same there. -/
def LocalThing.aside (t : LocalThing (ω × List κ)) : LocalThing ω where
  thing := t.thing
  properties := t.properties.mapValues PropertyState.aside
  actions := t.actions.mapValues (·.map Handler.aside)
  events := t.events

/-- What is seen of a host on a world with a log, as if it were one on the world by itself. -/
def HostView.aside (view : HostView (ω × List κ)) : HostView ω where
  state := view.state
  things := view.things.map LocalThing.aside

end

/-! ## Bindings that note their calls -/

/-- What a server is asked. -/
inductive ServerRequest (ω : Type) where
  | start (view : HostView ω)
  | stop
  | expose (t : LocalThing ω)
  | destroy (id : String)

/-- What a factory is asked. -/
inductive FactoryRequest where
  | init
  | destroy

section

variable {κ : Type}

/-- The server, noting what it is asked and how that ends. The server itself acts on the world without the log,
and sees things as they are there. -/
def ProtocolServer.noting (s : ProtocolServer ω) (note : ServerRequest ω → Option ServerError → κ) :
    ProtocolServer (ω × List κ) where
  start view := (s.start view.aside).logged (note (.start view.aside))
  stop := s.stop.logged (note .stop)
  expose t := (s.expose t.aside).logged (note (.expose t.aside))
  destroy id := (s.destroy id).logged (note (.destroy id))

/-- The client on a world with a log. -/
def ProtocolClient.besideLog (c : ProtocolClient ω) : ProtocolClient (ω × List κ) where
  setSecurity schemes credentials s :=
    ((c.setSecurity schemes credentials s.1).1, (c.setSecurity schemes credentials s.1).2, s.2)
  read form := (c.read form).besideLog
  write form content := (c.write form content).besideLog
  invoke form content := (c.invoke form content).besideLog
  observe form := (c.observe form).besideLog
  discover filter := (c.discover filter).besideLog

/-- The factory, noting what it is asked and how that ends. Its clients note nothing. -/
def ClientFactory.noting (f : ClientFactory ω) (note : FactoryRequest → Option ClientError → κ) :
    ClientFactory (ω × List κ) where
  scheme := f.scheme
  client := f.client.besideLog
  init := f.init.logged (note .init)
  destroy := f.destroy.logged (note .destroy)

end

/-- A call of a binding, with its error if it fails. -/
inductive BindingCall (ω : Type) where
  | server (s : ProtocolServer ω) (request : ServerRequest ω) (error? : Option ServerError)
  | factory (f : ClientFactory ω) (request : FactoryRequest) (error? : Option ClientError)

/-- The failure of a call: the error of the binding itself and, for a factory, its own scheme. -/
def BindingCall.failure? : BindingCall ω → Option BindingError
  | server _ _ error? => error?.map .server
  | factory f _ error? => error?.map (.client f.scheme)

/-- The failures among calls, in order. -/
def failuresOf (calls : List (BindingCall ω)) : List BindingError := calls.filterMap BindingCall.failure?

/-- The failures among two lists of calls are those of the first and then those of the second. -/
theorem failuresOf_append (calls calls' : List (BindingCall ω)) :
    failuresOf (calls ++ calls') = failuresOf calls ++ failuresOf calls' := List.filterMap_append

/-- A world with a log of the calls of bindings. -/
abbrev Noted (ω : Type) := ω × List (BindingCall ω)

/-- The host with these bindings in place of its own, all of which note their calls. -/
def Host.withBindings (h : Host (Noted ω)) (servers : List (ProtocolServer ω))
    (factories : Dict (ClientFactory ω)) : Host (Noted ω) :=
  { h with
    servers := servers.map fun s => s.noting (.server s)
    factories := factories.mapValues fun f => f.noting (.factory f) }

/-! ## Rounds -/

/-- Each server is asked once, in order. -/
def EachServer (servers : List (ProtocolServer ω)) (request : ServerRequest ω)
    (calls : List (BindingCall ω)) : Prop :=
  List.Forall₂ (fun s c => ∃ error?, c = .server s request error?) servers calls

/-- Each factory is asked once, in order. -/
def EachFactory (factories : List (ClientFactory ω)) (request : FactoryRequest)
    (calls : List (BindingCall ω)) : Prop :=
  List.Forall₂ (fun f c => ∃ error?, c = .factory f request error?) factories calls

/-- Entries made for a list, one for each of its elements. -/
theorem forall₂_zipWith {κ σ α : Type} (note : σ → α → κ) {xs : List σ} {answers : List α}
    (hlength : answers.length = xs.length) :
    List.Forall₂ (fun x c => ∃ answer, c = note x answer) xs (List.zipWith note xs answers) := by
  induction xs generalizing answers with
  | nil => simp
  | cons x rest ih =>
    cases answers with
    | nil => cases hlength
    | cons a answers => exact .cons ⟨a, rfl⟩ (ih (Nat.succ.inj hlength))

/-- The failures of servers are those of their calls. -/
theorem failuresOf_zipWith_server {α : Type} (request : ServerRequest ω)
    {servers : List (ProtocolServer ω)} {answers : List (Except ServerError α)}
    (hlength : answers.length = servers.length) :
    failuresOf (List.zipWith (fun s => .server s request) servers (answers.map errorOf?)) =
      Host.serverFailures answers := by
  induction servers generalizing answers with
  | nil =>
    rw [List.length_eq_zero_iff.1 hlength]
    rfl
  | cons s rest ih =>
    cases answers with
    | nil => cases hlength
    | cons a answers =>
      have hrest := ih (Nat.succ.inj hlength)
      cases a with
      | error e =>
        exact congrArg (BindingError.server e :: ·) hrest
      | ok a => exact hrest

/-- The failures of factories are those of their calls. -/
theorem failuresOf_zipWith_factory (request : FactoryRequest) (factories : List (ClientFactory ω))
    (answers : List (Except ClientError Unit)) :
    failuresOf (List.zipWith (fun f => .factory f request) factories (answers.map errorOf?)) =
      Host.clientFailures factories answers := by
  induction factories generalizing answers with
  | nil => rfl
  | cons f rest ih =>
    cases answers with
    | nil => rfl
    | cons a answers =>
      cases a with
      | error e => exact congrArg (BindingError.client f.scheme e :: ·) (ih answers)
      | ok a => exact ih answers

namespace Host

/-- A round over servers asks each of them once, in order, and its failures are those of the calls. -/
theorem runEach_servers {α : Type} (servers : List (ProtocolServer ω)) (request : ServerRequest ω)
    (ask : ProtocolServer (Noted ω) → Effect (Noted ω) ServerError α)
    {step : ProtocolServer ω → Effect ω ServerError α}
    (hask : ∀ s, ask (s.noting (.server s)) = (step s).logged (.server s request)) (w : ω)
    (log : List (BindingCall ω)) :
    ∃ answers w' calls, EachServer servers request calls ∧ failuresOf calls = serverFailures answers ∧
      Effect.runEach ((servers.map fun s => s.noting (.server s)).map ask) (w, log) =
        (answers, w', log ++ calls) := by
  obtain ⟨answers, w', hlength, hrun⟩ := Effect.runEach_noting servers hask w log
  exact ⟨answers, w', _, forall₂_zipWith _ (by rw [List.length_map, hlength]),
    failuresOf_zipWith_server request hlength, hrun⟩

/-- The failures of factories depend on them through their schemes only. -/
theorem clientFailures_noting {κ : Type} (factories : List (ClientFactory ω))
    (note : ClientFactory ω → FactoryRequest → Option ClientError → κ)
    (answers : List (Except ClientError Unit)) :
    clientFailures (factories.map fun f => f.noting (note f)) answers =
      clientFailures factories answers := by
  induction factories generalizing answers with
  | nil => rfl
  | cons f rest ih =>
    cases answers with
    | nil => rfl
    | cons a answers =>
      cases a with
      | error e => exact congrArg (BindingError.client f.scheme e :: ·) (ih answers)
      | ok a => exact ih answers

/-- A round over all bindings of a host asks each of them once, servers first, and finds their failures in
this order. -/
theorem onBindings_noting (h : Host (Noted ω)) (servers : List (ProtocolServer ω))
    (factories : Dict (ClientFactory ω)) (serverRequest : ServerRequest ω) (factoryRequest : FactoryRequest)
    (askServer : ProtocolServer (Noted ω) → Effect (Noted ω) ServerError Unit)
    (askFactory : ClientFactory (Noted ω) → Effect (Noted ω) ClientError Unit)
    {serverStep : ProtocolServer ω → Effect ω ServerError Unit}
    {factoryStep : ClientFactory ω → Effect ω ClientError Unit}
    (hserver : ∀ s, askServer (s.noting (.server s)) = (serverStep s).logged (.server s serverRequest))
    (hfactory : ∀ f,
      askFactory (f.noting (.factory f)) = (factoryStep f).logged (.factory f factoryRequest))
    (w : ω) (log : List (BindingCall ω)) :
    ∃ w' serverCalls factoryCalls, EachServer servers serverRequest serverCalls ∧
      EachFactory (Dict.values factories) factoryRequest factoryCalls ∧
      (h.withBindings servers factories).onBindings askServer askFactory (w, log) =
        (failuresOf (serverCalls ++ factoryCalls), w', log ++ (serverCalls ++ factoryCalls)) := by
  obtain ⟨serverAnswers, w₁, serverCalls, hservers, hserverFailures, hserverRun⟩ :=
    runEach_servers servers serverRequest askServer hserver w log
  obtain ⟨factoryAnswers, w₂, hlength, hfactoryRun⟩ :=
    Effect.runEach_noting (Dict.values factories) hfactory w₁ (log ++ serverCalls)
  refine ⟨w₂, serverCalls,
    List.zipWith (fun f => .factory f factoryRequest) (Dict.values factories) (factoryAnswers.map errorOf?),
    hservers, forall₂_zipWith _ (by rw [List.length_map, hlength]), ?_⟩
  have hfactoryFailures := failuresOf_zipWith_factory factoryRequest (Dict.values factories) factoryAnswers
  have hvalues : Dict.values (factories.mapValues fun f => f.noting (BindingCall.factory f)) =
      (Dict.values factories).map fun f => f.noting (.factory f) := by
    simp [Dict.values, Dict.mapValues]
  simp only [onBindings, withBindings, hvalues, hserverRun, hfactoryRun, clientFailures_noting,
    ← hserverFailures, ← hfactoryFailures, failuresOf_append, List.append_assoc]

end Host

/-! ## Reports -/

/-- How failures are reported: as a success if there is none, a single one by itself, several of them
together and in order. -/
structure Reports (failures : List BindingError) (result : Except HostError Unit) : Prop where
  fine : result = .ok () ↔ failures = []
  single : ∀ e, result = .error (.binding e) ↔ failures = [e]
  several : ∀ errors, result = .error (.multiple errors) ↔ failures = errors ∧ 2 ≤ errors.length

/-- However many bindings fail, the result reports all of them. -/
theorem reports_ofFailures (failures : List BindingError) :
    Reports failures (HostError.ofFailures failures) where
  fine := HostError.ofFailures_eq_ok_iff
  single e := by
    unfold HostError.ofFailures
    split <;> simp_all
  several errors := by
    match failures with
    | [] => cases errors <;> simp [HostError.ofFailures]
    | [e] => rcases errors with _ | ⟨_, _ | _⟩ <;> simp [HostError.ofFailures]
    | e :: e' :: rest =>
      simp only [HostError.ofFailures, Except.error.injEq, HostError.multiple.injEq, iff_self_and]
      rintro rfl
      simp

end WebOfThings
