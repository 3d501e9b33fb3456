import Mathlib.Data.List.Chain
import Mathlib.Data.List.Nodup
import WebOfThings.Proofs.Dict
import WebOfThings.Proofs.Host.Lifecycle

/-!
# When bindings begin and end

A host tells its bindings to begin when it is started (a server to start, a factory to set itself up), and
to end when it is shut down. Bindings may be added at any time, and a factory may take the place of another
one. To tell them apart, each binding has the number of the operation that added it, and a log shows what
was asked under which number (`heard`).

A host that is started refuses to be started once more, so no binding is told to begin twice in a row.
Shutting down is not refused in any state: what a binding hears takes turns if and only if the host is only
shut down when it is started, and the binding was not added to a started host (`signals_takeTurns_iff`).

`LifeOperation.apply_host` says what one operation does, to the bindings in place (`Roster`) and to the log;
the rest is by induction over runs.

The hooks of a binding are meant to be called once for one beginning and one end. Starting refuses to begin
what has begun, and there is no such refusal for shutting down, nor for a binding that is added late. What a
binding is told is therefore described by the run alone (`told`), without asking the bindings themselves,
and the condition for the signals to take turns is exact. `ends_unbegun` is a run without it: a server is
added, and the host is shut down.
-/

namespace WebOfThings

variable {ω : Type}

/-! ## Signals -/

/-- What a binding is told: to begin, or to end. -/
inductive Signal where
  | up
  | down
  deriving DecidableEq

namespace Signal

/-- The other signal. -/
def other : Signal → Signal
  | up => down
  | down => up

/-- Signals of which no two in a row are the same, beginning with a given one. -/
def TakeTurns : Signal → List Signal → Prop
  | _, [] => True
  | expected, s :: rest => s = expected ∧ TakeTurns expected.other rest

end Signal

/-- What a binding is asked. -/
inductive BindingRequest (ω : Type) where
  | server (request : ServerRequest ω)
  | factory (request : FactoryRequest)

/-- The signal that a request gives. -/
def BindingRequest.signal? : BindingRequest ω → Option Signal
  | server (.start _) | factory .init => some .up
  | server .stop | factory .destroy => some .down
  | server (.expose _) | server (.destroy _) => none

/-- A world with a log of what is asked of numbered bindings. -/
abbrev Logged (ω : Type) := ω × List (Nat × BindingRequest ω)

/-- The server, noting under a number what it is asked. -/
def ProtocolServer.numbered (s : ProtocolServer ω) (number : Nat) : ProtocolServer (Logged ω) :=
  s.noting fun request _ => (number, .server request)

/-- The factory, noting under a number what it is asked. -/
def ClientFactory.numbered (f : ClientFactory ω) (number : Nat) : ClientFactory (Logged ω) :=
  f.noting fun request _ => (number, .factory request)

/-- The signals that a binding gets. -/
def heard (number : Nat) (log : List (Nat × BindingRequest ω)) : List Signal :=
  log.filterMap fun e => if e.1 = number then e.2.signal? else none

/-- What is heard in two stretches of a log is heard in the first and then in the second. -/
theorem heard_append (number : Nat) (log log' : List (Nat × BindingRequest ω)) :
    heard number (log ++ log') = heard number log ++ heard number log' := List.filterMap_append

/-! ## Operations on the life of a host -/

/-- A binding that is added to a host. -/
inductive Binding (ω : Type) where
  | server (s : ProtocolServer ω)
  | factory (f : ClientFactory ω)

/-- Whether a binding takes the place of another one: both are factories, for the same scheme. -/
def Binding.replaces : Binding ω → Binding ω → Bool
  | factory f, factory g => MediaType.lowerCase f.scheme = MediaType.lowerCase g.scheme
  | _, _ => false

/-- An operation on the bindings or on the phase of a host. -/
inductive LifeOperation (ω : Type) where
  | add (b : Binding ω)
  | start
  | shutdown

namespace LifeOperation

/-- Carrying out an operation. A binding that is added notes what it is asked, under the number of the
operation. -/
def apply (number : Nat) (h : Host (Logged ω)) (w : Logged ω) :
    LifeOperation ω → Host (Logged ω) × Logged ω
  | add (.server s) => (h.addServer (s.numbered number), w)
  | add (.factory f) => (h.addFactory (f.numbered number), w)
  | start => (h.start w).2
  | shutdown => (h.shutdown w).2

/-- The host and its world after operations, which are numbered. -/
def run (number : Nat) : List (LifeOperation ω) → Host (Logged ω) → Logged ω → Host (Logged ω) × Logged ω
  | [], h, w => (h, w)
  | op :: rest, h, w => run (number + 1) rest (op.apply number h w).1 (op.apply number h w).2

/-- A run goes on from what its first part leaves, with the numbers that come next. -/
theorem run_append (number : Nat) (ops ops' : List (LifeOperation ω)) (h : Host (Logged ω))
    (w : Logged ω) :
    run number (ops ++ ops') h w =
      run (number + ops.length) ops' (run number ops h w).1 (run number ops h w).2 := by
  induction ops generalizing number h w with
  | nil => rfl
  | cons op rest ih =>
    rw [List.cons_append, run, ih, List.length_cons, Nat.add_right_comm, Nat.add_assoc]
    rfl

/-- The phase of a host after an operation. -/
def phaseAfter (state : HostState) : LifeOperation ω → HostState
  | add _ => state
  | start => .started
  | shutdown => .stopped

/-- The phase of a host after operations. -/
def phase (state : HostState) (ops : List (LifeOperation ω)) : HostState := ops.foldl phaseAfter state

/-- Whether an operation puts another binding in the place of one. -/
def displaces (b : Binding ω) : LifeOperation ω → Bool
  | add b' => b'.replaces b
  | start | shutdown => false

/-- The signal that an operation gives to all bindings in place. -/
def signal? (state : HostState) : LifeOperation ω → Option Signal
  | add _ => none
  | start => if state = .started then none else some .up
  | shutdown => some .down

/-- What a binding in place is told in the course of operations, until it is displaced. -/
def told (b : Binding ω) : HostState → List (LifeOperation ω) → List Signal
  | _, [] => []
  | state, op :: rest =>
    if op.displaces b then [] else (op.signal? state).toList ++ told b (op.phaseAfter state) rest

/-- A binding that is displaced is told nothing any more. -/
theorem told_of_displaces {b : Binding ω} {op : LifeOperation ω} (hop : op.displaces b = true)
    (state : HostState) (rest : List (LifeOperation ω)) : told b state (op :: rest) = [] := by
  rw [told, if_pos hop]

/-- A binding that stays is told the signal of the first operation, and then what the rest tells. -/
theorem told_cons {b : Binding ω} {op : LifeOperation ω} (hop : op.displaces b = false)
    (state : HostState) (rest : List (LifeOperation ω)) :
    told b state (op :: rest) = (op.signal? state).toList ++ told b (op.phaseAfter state) rest := by
  rw [told, hop, if_neg Bool.false_ne_true]

end LifeOperation

/-! ## The bindings in place -/

/-- The bindings of a host with their numbers, factories by their schemes. -/
structure Roster (ω : Type) where
  servers : List (Nat × ProtocolServer ω) := []
  factories : Dict (Nat × ClientFactory ω) := []

namespace Roster

/-- The numbers of the bindings. -/
def numbers (r : Roster ω) : List Nat :=
  r.servers.map Prod.fst ++ (Dict.values r.factories).map Prod.fst

/-- The bindings after one more has been added. -/
def add (r : Roster ω) (number : Nat) : Binding ω → Roster ω
  | .server s => { r with servers := r.servers ++ [(number, s)] }
  | .factory f =>
    { r with factories := r.factories.insert (MediaType.lowerCase f.scheme) (number, f) }

/-- The bindings after an operation. -/
def next (r : Roster ω) (number : Nat) : LifeOperation ω → Roster ω
  | .add b => r.add number b
  | .start | .shutdown => r

/-- The binding is in place under its number. -/
def Has (r : Roster ω) (number : Nat) : Binding ω → Prop
  | .server s => (number, s) ∈ r.servers
  | .factory f => Dict.get? (MediaType.lowerCase f.scheme) r.factories = some (number, f)

/-- No number is given twice, and all of them have been given already. -/
structure Numbered (r : Roster ω) (next : Nat) : Prop where
  sorted : r.factories.Sorted
  nodup : r.numbers.Nodup
  lt : ∀ k ∈ r.numbers, k < next

/-- The host with these bindings, which note what they are asked. -/
def host (r : Roster ω) (h : Host (Logged ω)) : Host (Logged ω) :=
  { h with
    servers := r.servers.map fun e => e.2.numbered e.1
    factories := r.factories.mapValues fun e => e.2.numbered e.1 }

/-- What is noted when all bindings are asked, servers first. -/
def asked (r : Roster ω) (server : ServerRequest ω) (factory : FactoryRequest) :
    List (Nat × BindingRequest ω) :=
  r.servers.map (fun e => (e.1, .server server)) ++
    (Dict.values r.factories).map fun e => (e.1, .factory factory)

/-! ### Adding a binding -/

theorem numbers_add_subperm (r : Roster ω) (number : Nat) (b : Binding ω) :
    (r.add number b).numbers.Subperm (number :: r.numbers) := by
  cases b with
  | server s =>
    simp only [numbers, add, List.map_append, List.map_cons, List.map_nil, List.append_assoc]
    exact List.perm_middle.subperm
  | factory f =>
    obtain ⟨l, hperm, hsublist⟩ :=
      Dict.values_insert_subperm r.factories (MediaType.lowerCase f.scheme) (number, f)
    have hvalues : ((Dict.values (r.add number (.factory f)).factories).map Prod.fst).Subperm
        (number :: (Dict.values r.factories).map Prod.fst) :=
      ⟨l.map Prod.fst, hperm.map _, hsublist.map _⟩
    exact ((List.subperm_append_left _).2 hvalues).trans List.perm_middle.subperm

theorem mem_numbers_add {r : Roster ω} {number k : Nat} {b : Binding ω}
    (h : k ∈ (r.add number b).numbers) : k = number ∨ k ∈ r.numbers :=
  List.mem_cons.1 ((r.numbers_add_subperm number b).subset h)

/-- A binding that gets the next number has it alone. -/
theorem Numbered.add {r : Roster ω} {next : Nat} (hr : r.Numbered next) (b : Binding ω) :
    (r.add next b).Numbered (next + 1) where
  sorted := by
    cases b with
    | server s => exact hr.sorted
    | factory f => exact hr.sorted.insert _ _
  nodup := by
    have hnew : next ∉ r.numbers := fun hmem => Nat.lt_irrefl _ (hr.lt next hmem)
    obtain ⟨l, hperm, hsublist⟩ := r.numbers_add_subperm next b
    exact hperm.nodup_iff.1 (hsublist.nodup (List.nodup_cons.2 ⟨hnew, hr.nodup⟩))
  lt k hk := by
    rcases mem_numbers_add hk with rfl | hk
    · exact Nat.lt_succ_self _
    · exact Nat.lt_succ_of_lt (hr.lt k hk)

/-- An operation keeps the numbers of bindings apart. -/
theorem Numbered.next {r : Roster ω} {number : Nat} (hr : r.Numbered number) (op : LifeOperation ω) :
    (r.next number op).Numbered (number + 1) := by
  cases op with
  | add b => exact hr.add b
  | _ => exact ⟨hr.sorted, hr.nodup, fun k hk => Nat.lt_succ_of_lt (hr.lt k hk)⟩

/-! ### Whether a binding is in place -/

section

variable {r : Roster ω} {k number : Nat} {b : Binding ω}

theorem Has.mem_numbers (h : r.Has k b) : k ∈ r.numbers := by
  cases b with
  | server s => exact List.mem_append_left _ (List.mem_map.2 ⟨_, h, rfl⟩)
  | factory f =>
    exact List.mem_append_right _ (List.mem_map.2 ⟨(k, f), List.mem_map.2 ⟨_, Dict.mem_of_get? h, rfl⟩, rfl⟩)

/-- A binding that is added is in place. -/
theorem has_add (r : Roster ω) (number : Nat) (b : Binding ω) : (r.add number b).Has number b := by
  cases b with
  | server s => exact List.mem_append_right _ (List.mem_singleton_self _)
  | factory f => exact (Dict.get?_insert ..).trans (if_pos rfl)

/-- A binding stays in place unless another one takes it. -/
theorem Has.add (h : r.Has k b) {b' : Binding ω} (hstays : b'.replaces b = false) :
    (r.add number b').Has k b := by
  cases b' with
  | server s' =>
    cases b with
    | server s => exact List.mem_append_left _ h
    | factory f => exact h
  | factory g =>
    cases b with
    | server s => exact h
    | factory f =>
      have hne : MediaType.lowerCase g.scheme ≠ MediaType.lowerCase f.scheme := of_decide_eq_false hstays
      exact (Dict.get?_insert ..).trans ((if_neg hne).trans h)

/-- A binding whose place is taken is gone. -/
theorem Has.not_mem_numbers_add (hr : r.Numbered number) (h : r.Has k b) {b' : Binding ω}
    (hgoes : b'.replaces b = true) : k ∉ (r.add number b').numbers := by
  have hlt : k < number := hr.lt k h.mem_numbers
  cases b' with
  | server s' => cases hgoes
  | factory g =>
    cases b with
    | server s => cases hgoes
    | factory f =>
      have hscheme : MediaType.lowerCase g.scheme = MediaType.lowerCase f.scheme := of_decide_eq_true hgoes
      have hmem : (MediaType.lowerCase f.scheme, (k, f)) ∈ r.factories := Dict.mem_of_get? h
      obtain ⟨-, hfactories, hdisjoint⟩ := List.nodup_append.1 hr.nodup
      have hfactory : k ∈ (Dict.values r.factories).map Prod.fst :=
        List.mem_map.2 ⟨(k, f), List.mem_map.2 ⟨_, hmem, rfl⟩, rfl⟩
      intro hk
      rcases List.mem_append.1 hk with hk | hk
      · exact hdisjoint k hk k hfactory rfl
      · -- The number belongs to an entry under the same scheme, where the new factory is now.
        obtain ⟨⟨k', f'⟩, hvalue, rfl⟩ := List.mem_map.1 hk
        obtain ⟨⟨key, -⟩, hentry, rfl⟩ := List.mem_map.1 hvalue
        rcases Dict.mem_insert hentry with hnew | hold
        · cases hnew
          exact Nat.lt_irrefl _ hlt
        · rw [Dict.values, List.map_map] at hfactories
          have hsame := List.inj_on_of_nodup_map hfactories hold hmem rfl
          cases hsame
          have hget := Dict.get?_of_mem (hr.sorted.insert (MediaType.lowerCase g.scheme) (number, g)) hentry
          rw [Dict.get?_insert, if_pos hscheme] at hget
          cases hget
          exact Nat.lt_irrefl _ hlt

end

/-! ### Asking all bindings -/

/-- Every binding in place hears a signal once. -/
theorem heard_asked {r : Roster ω} (hnodup : r.numbers.Nodup) {server : ServerRequest ω}
    {factory : FactoryRequest} {s : Signal} (hserver : (BindingRequest.server server).signal? = some s)
    (hfactory : (BindingRequest.factory factory : BindingRequest ω).signal? = some s) (k : Nat) :
    heard k (r.asked server factory) = if k ∈ r.numbers then [s] else [] := by
  have hheard : ∀ numbers : List Nat, numbers.filterMap (fun n => if n = k then some s else none) =
      List.replicate (numbers.count k) s := by
    intro numbers
    induction numbers with
    | nil => rfl
    | cons n rest ih =>
      by_cases hn : n = k
      · subst hn
        simp [ih, List.replicate_succ]
      · simp [hn, ih]
  have hall : heard k (r.asked server factory) =
      r.numbers.filterMap fun n => if n = k then some s else none := by
    simp [heard, asked, numbers, List.filterMap_append, List.filterMap_map, hserver, hfactory]
  rw [hall, hheard, hnodup.count]
  split <;> rfl

/-- Entries that do not depend on the answers. -/
theorem zipWith_answers {σ α κ : Type} (note : σ → κ) {xs : List σ} {answers : List α}
    (hlength : answers.length = xs.length) :
    List.zipWith (fun x _ => note x) xs answers = xs.map note := by
  induction xs generalizing answers with
  | nil => rfl
  | cons x rest ih =>
    cases answers with
    | nil => cases hlength
    | cons a answers => exact congrArg (note x :: ·) (ih (Nat.succ.inj hlength))

/-- A round over all bindings asks each of them once. -/
theorem onBindings_host (r : Roster ω) (h : Host (Logged ω)) (server : ServerRequest ω)
    (factory : FactoryRequest) (askServer : ProtocolServer (Logged ω) → Effect (Logged ω) ServerError Unit)
    (askFactory : ClientFactory (Logged ω) → Effect (Logged ω) ClientError Unit)
    {serverStep : ProtocolServer ω → Effect ω ServerError Unit}
    {factoryStep : ClientFactory ω → Effect ω ClientError Unit}
    (hserver : ∀ (s : ProtocolServer ω) k,
      askServer (s.numbered k) = (serverStep s).logged fun _ => (k, .server server))
    (hfactory : ∀ (f : ClientFactory ω) k,
      askFactory (f.numbered k) = (factoryStep f).logged fun _ => (k, .factory factory))
    (w : ω) (log : List (Nat × BindingRequest ω)) :
    ∃ failures w', (r.host h).onBindings askServer askFactory (w, log) =
      (failures, w', log ++ r.asked server factory) := by
  have hservers (e : Nat × ProtocolServer ω) : askServer (e.2.numbered e.1) =
      (serverStep e.2).logged fun _ => (e.1, .server server) := hserver e.2 e.1
  have hfactories (e : Nat × ClientFactory ω) : askFactory (e.2.numbered e.1) =
      (factoryStep e.2).logged fun _ => (e.1, .factory factory) := hfactory e.2 e.1
  obtain ⟨serverAnswers, w₁, hserverLength, hserverRun⟩ := Effect.runEach_noting r.servers hservers w log
  obtain ⟨factoryAnswers, w₂, hfactoryLength, hfactoryRun⟩ :=
    Effect.runEach_noting (Dict.values r.factories) hfactories w₁
      (log ++ r.servers.map fun e => (e.1, .server server))
  rw [zipWith_answers _ (by rw [List.length_map, hserverLength])] at hserverRun
  rw [zipWith_answers _ (by rw [List.length_map, hfactoryLength])] at hfactoryRun
  have hvalues : Dict.values (r.host h).factories =
      (Dict.values r.factories).map fun e => e.2.numbered e.1 := by
    simp [host, Dict.values, Dict.mapValues]
  refine ⟨Host.serverFailures serverAnswers ++
    Host.clientFailures (Dict.values (r.host h).factories) factoryAnswers, w₂, ?_⟩
  have hlist : (r.host h).servers = r.servers.map fun e => e.2.numbered e.1 := rfl
  rw [Host.onBindings, hvalues, hlist, hserverRun]
  simp only [hfactoryRun, asked, List.append_assoc]

/-- Adding a binding to a host adds it to the roster. -/
theorem host_add (r : Roster ω) (h : Host (Logged ω)) (number : Nat) (b : Binding ω) (w : Logged ω) :
    (LifeOperation.add b).apply number (r.host h) w = ((r.add number b).host h, w) := by
  cases b with
  | server s => simp [LifeOperation.apply, Host.addServer, host, add]
  | factory f =>
    simp only [LifeOperation.apply, Host.addFactory, host, add, Dict.mapValues_insert]
    rfl

end Roster

namespace LifeOperation

/-! ## One operation -/

/-- What an operation does: the bindings in place are those of the roster, the phase changes, and every binding
in place hears the signal of the operation, if it has one. -/
theorem apply_host {r : Roster ω} (hnodup : r.numbers.Nodup) (h : Host (Logged ω)) (number : Nat)
    (op : LifeOperation ω) (w : ω) (log : List (Nat × BindingRequest ω)) :
    ∃ w' calls, op.apply number (r.host h) (w, log) =
        ((r.next number op).host { h with state := op.phaseAfter h.state }, w', log ++ calls) ∧
      ∀ k, heard k calls = if k ∈ r.numbers then (op.signal? h.state).toList else [] := by
  cases op with
  | add b => exact ⟨w, [], by rw [r.host_add, List.append_nil]; rfl, fun k => by simp [heard, signal?]⟩
  | start =>
    by_cases hstate : h.state = .started
    · -- The host refuses.
      refine ⟨w, [], ?_, fun k => by simp [heard, signal?, hstate]⟩
      have hsame : { h with state := .started } = h := by rw [← hstate]
      have hrefused : (r.host h).start (w, log) = (.error .alreadyStarted, r.host h, w, log) :=
        if_pos hstate
      rw [apply, hrefused, phaseAfter, hsame, List.append_nil]
      rfl
    · obtain ⟨failures, w', hround⟩ := r.onBindings_host { h with state := .started }
        (.start h.startedView.aside) .init (fun s => s.start h.startedView) ClientFactory.init
        (fun _ _ => rfl) (fun _ _ => rfl) w log
      refine ⟨w', r.asked (.start h.startedView.aside) .init, ?_, fun k => ?_⟩
      · have hnot : (r.host h).state ≠ .started := hstate
        rw [apply, Host.start_eq hnot]
        exact congrArg (fun round => (r.host { h with state := .started }, round.2)) hround
      · rw [Roster.heard_asked hnodup rfl rfl, signal?, if_neg hstate]
        rfl
  | shutdown =>
    obtain ⟨failures, w', hround⟩ := r.onBindings_host h .stop .destroy (·.stop) (·.destroy)
      (fun _ _ => rfl) (fun _ _ => rfl) w log
    refine ⟨w', r.asked .stop .destroy, ?_, Roster.heard_asked hnodup rfl rfl⟩
    rw [apply, Host.shutdown, hround]
    rfl

/-! ## Runs -/

section

variable {r : Roster ω} {number k : Nat} {b : Binding ω}

/-- The bindings in place and the phase after a run. -/
theorem run_host (hr : r.Numbered number) (h : Host (Logged ω)) (ops : List (LifeOperation ω))
    (w : Logged ω) :
    ∃ (r' : Roster ω) (w' : Logged ω),
      run number ops (r.host h) w = (r'.host { h with state := phase h.state ops }, w') ∧
        r'.Numbered (number + ops.length) := by
  induction ops generalizing r number h w with
  | nil => exact ⟨r, w, rfl, hr⟩
  | cons op rest ih =>
    obtain ⟨w₁, calls, hstep, -⟩ := apply_host hr.nodup h number op w.1 w.2
    obtain ⟨r', w', hrun, hnumbered⟩ :=
      ih (hr.next op) { h with state := op.phaseAfter h.state } (w₁, w.2 ++ calls)
    refine ⟨r', w', ?_, ?_⟩
    · rw [run, hstep, hrun]
      rfl
    · rwa [List.length_cons, Nat.add_comm rest.length, ← Nat.add_assoc]

theorem not_mem_numbers_next {op : LifeOperation ω} (hk : k ∉ r.numbers) (hne : k ≠ number) :
    k ∉ (r.next number op).numbers := by
  cases op with
  | add b => exact fun hmem => (Roster.mem_numbers_add hmem).elim hne hk
  | start => exact hk
  | shutdown => exact hk

/-- Who is not in place and is not added hears nothing. -/
theorem heard_run_of_not_mem (hr : r.Numbered number) (hk : k ∉ r.numbers) {ops : List (LifeOperation ω)}
    (hne : k < number ∨ number + ops.length ≤ k) (h : Host (Logged ω)) (w : Logged ω) :
    heard k (run number ops (r.host h) w).2.2 = heard k w.2 := by
  induction ops generalizing r number h w with
  | nil => rfl
  | cons op rest ih =>
    rw [List.length_cons] at hne
    obtain ⟨w₁, calls, hstep, hheard⟩ := apply_host hr.nodup h number op w.1 w.2
    have hnext : k ∉ (r.next number op).numbers := not_mem_numbers_next hk (by omega)
    rw [run, hstep, ih (hr.next op) hnext (by omega), heard_append, hheard, if_neg hk, List.append_nil]

/-- A binding stays in place while no operation displaces it. -/
theorem has_next {op : LifeOperation ω} (hb : r.Has k b) (hstays : op.displaces b = false) :
    (r.next number op).Has k b := by
  cases op with
  | add b' => exact hb.add hstays
  | start => exact hb
  | shutdown => exact hb

/-- A binding that is displaced loses its number. -/
theorem not_mem_numbers_of_displaces {op : LifeOperation ω} (hr : r.Numbered number) (hb : r.Has k b)
    (hgoes : op.displaces b = true) : k ∉ (r.next number op).numbers := by
  cases op with
  | add b' => exact hb.not_mem_numbers_add hr hgoes
  | start => cases hgoes
  | shutdown => cases hgoes

/-- An operation that displaces a binding gives no signal. -/
theorem signal?_of_displaces {op : LifeOperation ω} (hgoes : op.displaces b = true) (state : HostState) :
    op.signal? state = none := by
  cases op with
  | add b' => rfl
  | start => cases hgoes
  | shutdown => cases hgoes

/-- A binding in place hears what it is told until it is displaced, and nothing after that. -/
theorem heard_run_of_has (hr : r.Numbered number) (hb : r.Has k b) (ops : List (LifeOperation ω))
    (h : Host (Logged ω)) (w : Logged ω) :
    heard k (run number ops (r.host h) w).2.2 = heard k w.2 ++ told b h.state ops := by
  induction ops generalizing r number h w with
  | nil => exact (List.append_nil _).symm
  | cons op rest ih =>
    obtain ⟨w₁, calls, hstep, hheard⟩ := apply_host hr.nodup h number op w.1 w.2
    have hlt : k < number := hr.lt k hb.mem_numbers
    rw [run, hstep]
    cases hop : op.displaces b with
    | true =>
      have hgone := not_mem_numbers_of_displaces hr hb hop
      rw [told_of_displaces hop, heard_run_of_not_mem (hr.next op) hgone (.inl (by omega)), heard_append,
        hheard, signal?_of_displaces hop, Option.toList_none, ite_self]
    | false =>
      rw [told_cons hop, ih (hr.next op) (has_next hb hop), heard_append, hheard, if_pos hb.mem_numbers,
        List.append_assoc]

end

/-! ## Taking turns -/

/-- What holds of the operations before each shutdown that a binding in place at first hears of. -/
def BeforeShutdowns (b : Binding ω) (ops : List (LifeOperation ω)) (P : List (LifeOperation ω) → Prop) :
    Prop :=
  ∀ first last, ops = first ++ .shutdown :: last → (∀ op ∈ first, op.displaces b = false) → P first

section

variable {b : Binding ω}

theorem beforeShutdowns_nil (P : List (LifeOperation ω) → Prop) : BeforeShutdowns b [] P := by
  intro first last heq
  cases first <;> cases heq

/-- A binding that is displaced hears of no shutdown. -/
theorem beforeShutdowns_of_displaces {op : LifeOperation ω} (hop : op.displaces b = true)
    (rest : List (LifeOperation ω)) (P : List (LifeOperation ω) → Prop) : BeforeShutdowns b (op :: rest) P := by
  intro first last heq hstays
  cases first with
  | nil =>
    cases heq
    cases hop
  | cons o first =>
    cases heq
    exact absurd hop (Bool.eq_false_iff.1 (hstays op (List.mem_cons_self ..)))

/-- What is asked of the operations before each shutdown is asked of those in front of the first operation, if that is
a shutdown, and of those before each shutdown in the rest. -/
theorem beforeShutdowns_cons_iff {op : LifeOperation ω} (hop : op.displaces b = false)
    {rest : List (LifeOperation ω)} {P : List (LifeOperation ω) → Prop} :
    BeforeShutdowns b (op :: rest) P ↔
      (op = .shutdown → P []) ∧ BeforeShutdowns b rest fun first => P (op :: first) := by
  constructor
  · intro h
    refine ⟨?_, ?_⟩
    · rintro rfl
      exact h [] rest rfl (List.forall_mem_nil _)
    · rintro first last rfl hstays
      exact h (op :: first) last rfl (List.forall_mem_cons.2 ⟨hop, hstays⟩)
  · rintro ⟨hnow, hlater⟩ first last heq hstays
    cases first with
    | nil =>
      cases heq
      exact hnow rfl
    | cons o first =>
      cases heq
      exact hlater first last rfl (List.forall_mem_cons.1 hstays).2

variable (b)

/-- After a beginning comes an end, and nobody hears of a beginning first on a host that is started. -/
theorem isChain_told (state : HostState) (ops : List (LifeOperation ω)) :
    (told b state ops).IsChain (fun s s' => s = .up → s' = .down) ∧
      (state = .started → .up ∉ (told b state ops).head?) := by
  induction ops generalizing state with
  | nil => exact ⟨.nil, fun _ => nofun⟩
  | cons op rest ih =>
    cases hop : op.displaces b with
    | true =>
      rw [told_of_displaces hop]
      exact ⟨.nil, fun _ => nofun⟩
    | false =>
      rw [told_cons hop]
      cases op with
      | add b' => exact ih state
      | start =>
        obtain ⟨hchain, hhead⟩ := ih .started
        by_cases hstate : state = .started
        · rw [signal?, if_pos hstate]
          exact ⟨hchain, fun _ => hhead rfl⟩
        · rw [signal?, if_neg hstate]
          refine ⟨hchain.cons fun s hs _ => ?_, fun h => absurd h hstate⟩
          cases s with
          | up => exact absurd hs (hhead rfl)
          | down => rfl
      | shutdown => exact ⟨(ih .stopped).1.cons (fun _ _ h => nomatch h), fun _ h => nomatch h⟩

/-- What a binding is told takes turns if and only if every shutdown finds the host started, and an end is
expected first from a host that is started already. -/
theorem takeTurns_told_iff {state : HostState} {expected : Signal}
    (hexpected : expected = .down → state = .started) (ops : List (LifeOperation ω)) :
    Signal.TakeTurns expected (told b state ops) ↔
      BeforeShutdowns b ops fun first =>
        (state = .started → expected = .down) ∧ phase state first = .started := by
  induction ops generalizing state expected with
  | nil => exact iff_of_true trivial (beforeShutdowns_nil _)
  | cons op rest ih =>
    cases hop : op.displaces b with
    | true =>
      rw [told_of_displaces hop]
      exact iff_of_true trivial (beforeShutdowns_of_displaces hop _ _)
    | false =>
      rw [told_cons hop, beforeShutdowns_cons_iff hop]
      cases op with
      | add b' =>
        rw [and_iff_right nofun]
        exact ih hexpected
      | start =>
        rw [and_iff_right nofun, signal?]
        by_cases hstate : state = .started
        · subst hstate
          rw [if_pos rfl]
          exact ih hexpected
        · -- The beginning is what was expected, and now an end is.
          rw [if_neg hstate]
          cases expected with
          | up =>
            have hrest := ih (show Signal.down = .down → HostState.started = .started from fun _ => rfl)
            simp only [implies_true, true_and] at hrest
            simp only [hstate, false_implies, true_and]
            exact (and_iff_right rfl).trans hrest
          | down => exact absurd (hexpected rfl) hstate
      | shutdown =>
        cases expected with
        | up => exact iff_of_false (fun h => nomatch h.1) fun h => nomatch (h.1 rfl).1 (h.1 rfl).2
        | down =>
          obtain rfl : state = .started := hexpected rfl
          have hrest := ih (show Signal.up = .down → HostState.stopped = .started from nofun)
          simp only [reduceCtorEq, false_implies, true_and] at hrest
          simp only [implies_true, true_and]
          exact and_congr (iff_of_true rfl fun _ => rfl) hrest

/-- What a binding is told takes turns, beginning with a beginning, if and only if it hears of a shutdown only
when the host has been started since it was added. -/
theorem takeTurns_up_told_iff (state : HostState) (ops : List (LifeOperation ω)) :
    Signal.TakeTurns .up (told b state ops) ↔
      BeforeShutdowns b ops fun first => state ≠ .started ∧ phase state first = .started := by
  have htold := takeTurns_told_iff b (show Signal.up = .down → state = .started from nofun) ops
  simpa only [reduceCtorEq, imp_false, ne_eq] using htold

end

/-! ## What a binding hears -/

/-- A new host has no bindings. -/
theorem numbered_empty : ({} : Roster ω).Numbered 0 := ⟨Dict.sorted_nil, List.nodup_nil, fun _ => nofun⟩

theorem host_empty (config : HostConfig) :
    ({} : Roster ω).host (Host.create config) = Host.create config := rfl

/-- The phase of a new host after a run. -/
theorem state_run (config : HostConfig) (ops : List (LifeOperation ω)) (w : Logged ω) :
    (run 0 ops (Host.create config) w).1.state = phase .created ops := by
  obtain ⟨r', w', hrun, -⟩ := run_host numbered_empty (Host.create config) ops w
  rw [← host_empty, hrun]
  rfl

/-- A binding that is added in the course of a run hears what it is told from then on. -/
theorem heard_run (config : HostConfig) (before : List (LifeOperation ω)) (b : Binding ω)
    (after : List (LifeOperation ω)) (w : ω) :
    heard before.length (run 0 (before ++ .add b :: after) (Host.create config) (w, [])).2.2 =
      told b (phase .created before) after := by
  obtain ⟨r, w', hrun, hr⟩ := run_host numbered_empty (Host.create config) before (w, [])
  rw [Nat.zero_add] at hr
  -- Under its number nothing has been asked so far.
  have hnothing : heard before.length (run 0 before (Host.create config) (w, [])).2.2 = [] :=
    heard_run_of_not_mem numbered_empty List.not_mem_nil (.inr (Nat.le_of_eq (Nat.zero_add _)))
      (Host.create config) (w, [])
  rw [← host_empty, hrun] at hnothing
  rw [run_append, ← host_empty, hrun, Nat.zero_add, run, Roster.host_add,
    heard_run_of_has (hr.add b) (r.has_add _ b), hnothing]
  rfl

/-- In every run on a new host, whatever the bindings answer, a binding hears of every start that is not refused
and of every shutdown, until another binding takes its place. It is never told to begin twice in a row. What it
hears takes turns, beginning with a beginning, if and only if every shutdown that it hears of finds a started
host that was not started already when the binding was added. -/
theorem signals_takeTurns_iff (config : HostConfig) (before : List (LifeOperation ω)) (b : Binding ω)
    (after : List (LifeOperation ω)) (w : ω) :
    let reached := fun ops => run 0 ops (Host.create config) (w, [])
    let signals := heard before.length (reached (before ++ .add b :: after)).2.2
    signals = told b (reached before).1.state after ∧
      signals.IsChain (fun s s' => s = .up → s' = .down) ∧
      (Signal.TakeTurns .up signals ↔
        ∀ first last, after = first ++ .shutdown :: last → (∀ op ∈ first, op.displaces b = false) →
          (reached before).1.state ≠ .started ∧
            (reached (before ++ .add b :: first)).1.state = .started) := by
  intro reached signals
  have hsignals : signals = told b (phase .created before) after := heard_run config before b after w
  have hphase (first : List (LifeOperation ω)) :
      phase .created (before ++ .add b :: first) = phase (phase .created before) first := by
    rw [phase, List.foldl_append]
    rfl
  simp only [reached, state_run, hphase, hsignals, true_and]
  exact ⟨(isChain_told b _ after).1, takeTurns_up_told_iff b _ after⟩

/-- Two factories for the same scheme, the second of which comes when the host is started. -/
def succession : List (LifeOperation Unit) :=
  [.start, .add (.factory (Host.brokenFactory "COAP")), .shutdown]

/-- The first one only hears that it begins, since its place is taken before the shutdown. -/
theorem signals_takeTurns_iff_succession :
    let reached := run 0 (.add (.factory (Host.brokenFactory "coap")) :: succession) (Host.create {}) ((), [])
    heard 0 reached.2.2 = [.up] ∧ Signal.TakeTurns .up (heard 0 reached.2.2) := by
  intro reached
  refine ⟨rfl, (signals_takeTurns_iff {} [] (.factory (Host.brokenFactory "coap")) succession ()).2.2.2 ?_⟩
  intro first last heq hstays
  have hmem : .add (.factory (Host.brokenFactory "COAP")) ∈ first := by
    unfold succession at heq
    rcases first with _ | ⟨o, _ | ⟨o', rest⟩⟩ <;> simp at heq
    simp [heq.2.1]
  exact absurd (hstays _ hmem) (by decide)

/-- A server that is added to a new host and only hears that it ends. -/
theorem ends_unbegun :
    let reached := run 0 [.add (.server Host.idleServer), .shutdown] (Host.create {}) ((), [])
    heard 0 reached.2.2 = [.down] ∧ ¬ Signal.TakeTurns .up (heard 0 reached.2.2) :=
  ⟨rfl, fun h => nomatch h.1⟩

end LifeOperation
end WebOfThings
