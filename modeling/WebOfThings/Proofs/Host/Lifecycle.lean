import WebOfThings.Proofs.Host.Calls

/-!
# Starting and shutting down

Both ask every server and every client factory, whatever the others answer, and report the failures of all
of them: those of servers in the order of their registration, then those of factories. `Host.start_shutdown`
says so of hosts with any bindings.

The statement is about hosts and bindings in any state: `Host.withBindings` makes the bindings note their
calls, and what they note is the whole of what is asked. A host that is started refuses before anything is
asked; any other one counts as started while its bindings are asked, so that a server that looks at the host
sees that. When it is shut down, the end is told to every binding in place, whatever state the host is in.

`ofFailures` turns the failures of a round into one result, and three shapes of it are told apart
(`Reports`): none, one as it is, and several together.
-/

namespace WebOfThings.Host

variable {ω : Type}

/-- What servers see of a host that counts as started. -/
def startedView (h : Host ω) : HostView ω := ⟨.started, Dict.values h.things⟩

/-- Starting a host that is not started is a round over its bindings. -/
theorem start_eq {h : Host ω} (hstate : h.state ≠ .started) (w : ω) :
    h.start w =
      let round := { h with state := .started }.onBindings (fun s => s.start h.startedView)
        ClientFactory.init w
      (HostError.ofFailures round.1, { h with state := .started }, round.2) := by
  rw [start, if_neg hstate]
  rfl

/-- A host that is not started counts as started before anything is asked of a binding. -/
theorem start_noting {h : Host (Noted ω)} (hstate : h.state ≠ .started)
    (servers : List (ProtocolServer ω)) (factories : Dict (ClientFactory ω)) (w : ω)
    (log : List (BindingCall ω)) :
    ∃ w' serverCalls factoryCalls,
      EachServer servers (.start h.startedView.aside) serverCalls ∧
      EachFactory (Dict.values factories) .init factoryCalls ∧
      (h.withBindings servers factories).start (w, log) =
        (HostError.ofFailures (failuresOf (serverCalls ++ factoryCalls)),
          { h.withBindings servers factories with state := .started },
          w', log ++ (serverCalls ++ factoryCalls)) := by
  obtain ⟨w', serverCalls, factoryCalls, hservers, hfactories, hround⟩ :=
    onBindings_noting { h with state := .started } servers factories (.start h.startedView.aside) .init
      (fun s => s.start h.startedView) ClientFactory.init (fun _ => rfl) (fun _ => rfl) w log
  refine ⟨w', serverCalls, factoryCalls, hservers, hfactories, ?_⟩
  have hnot : (h.withBindings servers factories).state ≠ .started := hstate
  rw [start_eq hnot]
  exact congrArg (fun round => (HostError.ofFailures round.1,
    { h.withBindings servers factories with state := .started }, round.2)) hround

/-- Shutting down asks every server to stop and every factory to end, and reports their failures. -/
theorem shutdown_noting (h : Host (Noted ω)) (servers : List (ProtocolServer ω))
    (factories : Dict (ClientFactory ω)) (w : ω) (log : List (BindingCall ω)) :
    ∃ w' serverCalls factoryCalls,
      EachServer servers .stop serverCalls ∧
      EachFactory (Dict.values factories) .destroy factoryCalls ∧
      (h.withBindings servers factories).shutdown (w, log) =
        (HostError.ofFailures (failuresOf (serverCalls ++ factoryCalls)),
          { h.withBindings servers factories with state := .stopped },
          w', log ++ (serverCalls ++ factoryCalls)) := by
  obtain ⟨w', serverCalls, factoryCalls, hservers, hfactories, hround⟩ :=
    onBindings_noting h servers factories .stop .destroy (·.stop) (·.destroy) (fun _ => rfl)
      (fun _ => rfl) w log
  refine ⟨w', serverCalls, factoryCalls, hservers, hfactories, ?_⟩
  rw [shutdown, hround]

/-- Starting a host that is started fails and asks nothing. Any other host counts as started when it asks every
server to start and every factory to set itself up, each of them once; shutting down asks all of them to stop
and leaves the host stopped. Either way all failures are reported: those of servers in order, then those of
factories, each with the scheme of the factory itself. -/
theorem start_shutdown (h : Host (Noted ω)) (servers : List (ProtocolServer ω))
    (factories : Dict (ClientFactory ω)) (w : ω) (log : List (BindingCall ω)) :
    (h.state = .started →
      (h.withBindings servers factories).start (w, log) =
        (.error .alreadyStarted, h.withBindings servers factories, w, log)) ∧
    (h.state ≠ .started →
      ∃ result w' serverCalls factoryCalls,
        (h.withBindings servers factories).start (w, log) =
          (result, { h.withBindings servers factories with state := .started },
            w', log ++ (serverCalls ++ factoryCalls)) ∧
        EachServer servers (.start ⟨.started, (Dict.values h.things).map (·.aside)⟩) serverCalls ∧
        EachFactory (Dict.values factories) .init factoryCalls ∧
        Reports (failuresOf serverCalls ++ failuresOf factoryCalls) result) ∧
    ∃ result w' serverCalls factoryCalls,
      (h.withBindings servers factories).shutdown (w, log) =
        (result, { h.withBindings servers factories with state := .stopped },
          w', log ++ (serverCalls ++ factoryCalls)) ∧
      EachServer servers .stop serverCalls ∧
      EachFactory (Dict.values factories) .destroy factoryCalls ∧
      Reports (failuresOf serverCalls ++ failuresOf factoryCalls) result := by
  refine ⟨fun hstate => ?_, fun hstate => ?_, ?_⟩
  · have hstarted : (h.withBindings servers factories).state = .started := hstate
    rw [start, if_pos hstarted]
  · obtain ⟨w', serverCalls, factoryCalls, hservers, hfactories, hstart⟩ :=
      start_noting hstate servers factories w log
    refine ⟨_, w', serverCalls, factoryCalls, hstart, hservers, hfactories, ?_⟩
    rw [← failuresOf_append]
    exact reports_ofFailures _
  · -- Unlike starting, shutting down asks nothing of the state.
    obtain ⟨w', serverCalls, factoryCalls, hservers, hfactories, hshutdown⟩ :=
      shutdown_noting h servers factories w log
    refine ⟨_, w', serverCalls, factoryCalls, hshutdown, hservers, hfactories, ?_⟩
    rw [← failuresOf_append]
    exact reports_ofFailures _

/-- A server that fails whatever it is asked. -/
def brokenServer : ProtocolServer Unit where
  start _ := Effect.fail .notStarted
  stop := Effect.fail .notStarted
  expose _ := Effect.fail .notStarted
  destroy _ := Effect.fail .notStarted

/-- A server that does whatever it is asked. -/
def idleServer : ProtocolServer Unit where
  start _ := Effect.pure ()
  stop := Effect.pure ()
  expose _ := Effect.pure ()
  destroy _ := Effect.pure true

/-- A factory that cannot set itself up. -/
def brokenFactory (scheme : String) : ClientFactory Unit where
  scheme
  client :=
    { setSecurity := fun _ _ w => (true, w)
      read := fun _ => Effect.fail (.unsupported "reading")
      write := fun _ _ => Effect.fail (.unsupported "writing")
      invoke := fun _ _ => Effect.fail (.unsupported "invoking")
      observe := fun _ => Effect.fail (.unsupported "observing") }
  init := Effect.fail (.transport scheme "no route")

/-- A server and a factory fail to start; their failures come together. Starting once more fails at once. -/
theorem start_shutdown_broken :
    (∃ result w' serverCalls factoryCalls,
      (({} : Host (Noted Unit)).withBindings [idleServer, brokenServer]
          [("coap", brokenFactory "coap")]).start ((), []) =
        (result,
          { ({} : Host (Noted Unit)).withBindings [idleServer, brokenServer]
              [("coap", brokenFactory "coap")] with state := .started },
          w', serverCalls ++ factoryCalls) ∧
      Reports (failuresOf serverCalls ++ failuresOf factoryCalls) result ∧
      result =
        .error (.multiple [.server .notStarted, .client "coap" (.transport "coap" "no route")])) ∧
    (({ state := .started } : Host (Noted Unit)).withBindings [brokenServer] []).start ((), []) =
      (.error .alreadyStarted, ({ state := .started } : Host (Noted Unit)).withBindings [brokenServer] [],
        (), []) := by
  refine ⟨?_, (start_shutdown { state := .started } [brokenServer] [] () []).1 rfl⟩
  obtain ⟨result, w', serverCalls, factoryCalls, hstart, -, -, hreports⟩ :=
    (start_shutdown {} [idleServer, brokenServer] [("coap", brokenFactory "coap")] () []).2.1
      (by decide)
  refine ⟨result, w', serverCalls, factoryCalls, hstart, hreports, ?_⟩
  have hresult := congrArg Prod.fst hstart
  exact hresult.symm

end WebOfThings.Host
