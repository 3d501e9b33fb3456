import Mathlib.Data.List.DropRight
import WebOfThings.Proofs.Host.Lifecycle

/-!
# The things of a host

Things are added, produced, exposed and destroyed (`RegistryOperation`). `Does` says what one operation
means for what is hosted, for the servers and for the caller. What is hosted at some moment follows by
induction over the run that led there: under each id the first thing that was added since the id was last
destroyed (`hosted?`). `registry_run` puts the two together.

Failures of bindings do not keep a thing from being added or taken out: what is hosted is decided by the id
alone, and the caller learns the failures in the order of the bindings. `Adds` and `Does` are the two halves
of a step, what a registry does and what it answers, with the guard of an id that is free or taken. The
thing that a run leaves under an id has that id itself, so the registry never files one under a foreign key.
-/

namespace WebOfThings

variable {ω : Type}

/-- An operation on the things of a host. -/
inductive RegistryOperation (ω : Type) where
  | addThing (t : LocalThing ω)
  | produce (t : Thing)
  | expose (id : String)
  | destroy (id : String)

/-- What an operation on the things of a host answers. -/
inductive RegistryReply where
  | added (new : Bool)
  | produced (result : Except HostError String)
  | done (result : Except HostError Unit)

namespace RegistryOperation

/-- Carrying out an operation. -/
def apply (h : Host ω) (w : ω) : RegistryOperation ω → RegistryReply × Host ω × ω
  | addThing t => (.added (h.addThing t).1, (h.addThing t).2, w)
  | produce t => (.produced (h.produce t).1, (h.produce t).2, w)
  | expose id => (.done (h.expose id w).1, h, (h.expose id w).2)
  | destroy id => (.done (h.destroy id w).1, (h.destroy id w).2)

/-- The host and its world after operations carried out one after the other. -/
def run (h : Host ω) (w : ω) (ops : List (RegistryOperation ω)) : Host ω × ω :=
  ops.foldl (fun s op => (op.apply s.1 s.2).2) (h, w)

/-- A run is what comes before the last operation and that operation. -/
theorem run_append_singleton (h : Host ω) (w : ω) (ops : List (RegistryOperation ω))
    (op : RegistryOperation ω) :
    run h w (ops ++ [op]) = (op.apply (run h w ops).1 (run h w ops).2).2 := by
  rw [run, List.foldl_append]
  rfl

/-! ## What is hosted after a run -/

/-- The thing that the operation adds under an id if the id is free. -/
def offers? (capacity : Nat) (id : String) : RegistryOperation ω → Option (LocalThing ω)
  | addThing t => if t.id = id then some t else none
  | produce t => if t.id = id then some (.create t capacity) else none
  | expose _ => none
  | destroy _ => none

/-- Whether the operation destroys what is hosted under an id. -/
def destroys (id : String) : RegistryOperation ω → Bool
  | destroy other => other = id
  | _ => false

/-- The thing hosted under an id after operations on a host that had no things: the first one that was added
since the id was last destroyed. -/
def hosted? (capacity : Nat) (ops : List (RegistryOperation ω)) (id : String) : Option (LocalThing ω) :=
  (ops.rtakeWhile fun op => !op.destroys id).findSome? (offers? capacity id)

/-- One operation more destroys what is hosted under an id, adds something under it, or leaves it. -/
theorem hosted?_append_singleton (capacity : Nat) (ops : List (RegistryOperation ω))
    (op : RegistryOperation ω) (id : String) :
    hosted? capacity (ops ++ [op]) id =
      if op.destroys id then none else (hosted? capacity ops id).or (op.offers? capacity id) := by
  rw [hosted?, List.rtakeWhile_concat]
  cases op.destroys id with
  | true => rfl
  | false => simp [hosted?, List.findSome?_append]

/-- A thing is added under its own id. -/
theorem id_of_offers? {capacity : Nat} {id : String} {op : RegistryOperation ω} {t : LocalThing ω}
    (ht : op.offers? capacity id = some t) : t.id = id := by
  cases op with
  | addThing t' =>
    rw [offers?] at ht
    split at ht
    · next hid =>
      cases ht
      exact hid
    · cases ht
  | produce t' =>
    rw [offers?] at ht
    split at ht
    · next hid =>
      cases ht
      exact hid
    · cases ht
  | expose id' => cases ht
  | destroy id' => cases ht

/-- A thing is hosted under its own id. -/
theorem id_of_hosted? {capacity : Nat} {ops : List (RegistryOperation ω)} {id : String}
    {t : LocalThing ω} (ht : hosted? capacity ops id = some t) : t.id = id := by
  obtain ⟨op, -, hop⟩ := List.exists_of_findSome?_eq_some ht
  exact id_of_offers? hop

/-! ## One operation -/

/-- A host differs from another in its things only, and hosts these. -/
def Hosts (h h' : Host ω) (hosted : String → Option (LocalThing ω)) : Prop :=
  ∃ things, h' = { h with things } ∧ things.Sorted ∧ h'.thing? = hosted

/-- A thing is added if its id is free; otherwise nothing changes. -/
def Adds (h : Host ω) (w : ω) (t : LocalThing ω) (added refused : RegistryReply)
    (after : RegistryReply × Host ω × ω) : Prop :=
  (h.thing? t.id = none →
    ∃ h', after = (added, h', w) ∧ Hosts h h' (Function.update h.thing? t.id (some t))) ∧
  (h.thing? t.id ≠ none → after = (refused, h, w))

/-- What an operation does. Exposing and destroying fail for an id that is free, and nothing happens; for any
other id every server is asked and the failures are reported, and the thing stays or goes whatever the servers
answer. -/
def Does (servers : List (ProtocolServer ω)) (h : Host (Noted ω)) (w : Noted ω)
    (after : RegistryReply × Host (Noted ω) × Noted ω) : RegistryOperation (Noted ω) → Prop
  | addThing t => Adds h w t (.added true) (.added false) after
  | produce t =>
    Adds h w (.create t h.channelCapacity) (.produced (.ok t.id))
      (.produced (.error (.duplicateThing t.id))) after
  | expose id =>
    (h.thing? id = none → after = (.done (.error (.unknownThing id)), h, w)) ∧
    ∀ t, h.thing? id = some t →
      ∃ result w' calls, after = (.done result, h, w', w.2 ++ calls) ∧
        EachServer servers (.expose t.aside) calls ∧ Reports (failuresOf calls) result
  | destroy id =>
    (h.thing? id = none → after = (.done (.error (.unknownThing id)), h, w)) ∧
    ∀ t, h.thing? id = some t →
      ∃ result h' w' calls, after = (.done result, h', w', w.2 ++ calls) ∧
        EachServer servers (.destroy id) calls ∧ Reports (failuresOf calls) result ∧
        Hosts h h' (Function.update h.thing? id none)

section

variable {h : Host ω}

/-- A thing is added under a free id, and all other things stay. -/
theorem addThing_of_free (hs : h.things.Sorted) {t : LocalThing ω} (ht : h.thing? t.id = none) :
    ∃ h', h.addThing t = (true, h') ∧ Hosts h h' (Function.update h.thing? t.id (some t)) := by
  have hfree : h.things.contains t.id = false := by
    rw [Dict.contains, ← Host.thing?, ht]
    rfl
  refine ⟨h.setThing t, ?_, _, rfl, hs.insert t.id t, ?_⟩
  · rw [Host.addThing, hfree]
    rfl
  · funext id
    show Dict.get? id (h.things.insert t.id t) = _
    rw [Dict.get?_insert, Function.update_apply]
    simp only [eq_comm, Host.thing?]

/-- Under an id that is taken nothing is added. -/
theorem addThing_of_taken {t : LocalThing ω} (ht : h.thing? t.id ≠ none) :
    h.addThing t = (false, h) := by
  have htaken : h.things.contains t.id = true := by
    rw [Dict.contains, ← Host.thing?]
    exact Option.isSome_iff_ne_none.2 ht
  rw [Host.addThing, if_pos htaken]

/-- A thing is added if its id is free, and the reply says so. -/
theorem adds_addThing (hs : h.things.Sorted) (w : ω) (t : LocalThing ω) (reply : Bool → RegistryReply) :
    Adds h w t (reply true) (reply false) (reply (h.addThing t).1, (h.addThing t).2, w) := by
  refine ⟨fun ht => ?_, fun ht => ?_⟩
  · obtain ⟨h', hadd, hh'⟩ := addThing_of_free hs ht
    exact ⟨h', by rw [hadd], hh'⟩
  · rw [addThing_of_taken ht]

/-- A thing that is produced is added, and the answer becomes an error where its id is taken. -/
theorem produce_eq (h : Host ω) (t : Thing) :
    h.produce t =
      (if (h.addThing (.create t h.channelCapacity)).1 then .ok t.id else .error (.duplicateThing t.id),
        (h.addThing (.create t h.channelCapacity)).2) := by
  rw [Host.produce]
  rcases h.addThing (.create t h.channelCapacity) with ⟨_ | _, h'⟩ <;> rfl

end

/-- Every operation does what it should. -/
theorem does_apply {servers : List (ProtocolServer ω)} {h : Host (Noted ω)}
    (hservers : h.servers = servers.map fun s => s.noting (.server s)) (hs : h.things.Sorted)
    (w : Noted ω) (op : RegistryOperation (Noted ω)) : Does servers h w (op.apply h w) op := by
  cases op with
  | addThing t => exact adds_addThing hs w t .added
  | produce t =>
    rw [apply, produce_eq]
    exact adds_addThing hs w (.create t h.channelCapacity) fun new =>
      .produced (if new then .ok t.id else .error (.duplicateThing t.id))
  | expose id =>
    refine ⟨fun ht => ?_, fun t ht => ?_⟩
    · simp only [apply, Host.expose, ht]
    · obtain ⟨answers, w', calls, heach, hfailures, hround⟩ :=
        Host.runEach_servers servers (.expose t.aside) (fun s => s.expose t) (fun _ => rfl) w.1 w.2
      refine ⟨_, w', calls, ?_, heach, reports_ofFailures _⟩
      rw [← hservers] at hround
      simp only [apply, Host.expose, ht, hround, hfailures]
  | destroy id =>
    refine ⟨fun ht => ?_, fun t ht => ?_⟩
    · simp only [apply, Host.destroy, ht]
    · obtain ⟨answers, w', calls, heach, hfailures, hround⟩ :=
        Host.runEach_servers servers (.destroy id) (fun s => s.destroy id) (fun _ => rfl) w.1 w.2
      refine ⟨_, { h with things := h.things.erase id }, w', calls, ?_, heach, reports_ofFailures _,
        _, rfl, hs.erase id, ?_⟩
      · rw [← hservers] at hround
        simp only [apply, Host.destroy, ht, hround, hfailures]
      · funext other
        rw [Host.thing?, Dict.get?_erase hs, Function.update_apply]
        simp only [eq_comm, Host.thing?]

/-! ## Runs -/

theorem Hosts.refl {h : Host ω} (hs : h.things.Sorted) : Hosts h h h.thing? := ⟨h.things, rfl, hs, rfl⟩

/-- What is hosted after two operations is what is hosted after the second one. -/
theorem Hosts.trans {h h' h'' : Host ω} {hosted hosted' : String → Option (LocalThing ω)}
    (hh : Hosts h h' hosted) (hh' : Hosts h' h'' hosted') : Hosts h h'' hosted' := by
  obtain ⟨things, rfl, -, -⟩ := hh
  obtain ⟨things', rfl, hs', rfl⟩ := hh'
  exact ⟨things', rfl, hs', rfl⟩

/-- A thing under a free id is there after it was added, and all others stay. -/
theorem hosts_of_adds {h : Host ω} (hs : h.things.Sorted) {w : ω} {t : LocalThing ω}
    {added refused : RegistryReply} {after : RegistryReply × Host ω × ω}
    (hadds : Adds h w t added refused after) :
    Hosts h after.2.1 fun id => (h.thing? id).or (if t.id = id then some t else none) := by
  by_cases ht : h.thing? t.id = none
  · obtain ⟨h', rfl, hh'⟩ := hadds.1 ht
    have hupdate : Function.update h.thing? t.id (some t) =
        fun id => (h.thing? id).or (if t.id = id then some t else none) := by
      funext id
      by_cases hid : id = t.id
      · subst hid
        simp [ht]
      · simp [hid, Ne.symm hid]
    rw [← hupdate]
    exact hh'
  · rw [hadds.2 ht]
    have hsame : h.thing? = fun id => (h.thing? id).or (if t.id = id then some t else none) := by
      funext id
      by_cases hid : t.id = id
      · subst hid
        obtain ⟨t', ht'⟩ := Option.ne_none_iff_exists'.1 ht
        simp [ht']
      · simp [hid]
    rw [← hsame]
    exact .refl hs

/-- What is hosted after an operation that does what it should. -/
theorem hosts_of_does {servers : List (ProtocolServer ω)} {h : Host (Noted ω)}
    (hs : h.things.Sorted) {w : Noted ω} {op : RegistryOperation (Noted ω)}
    {after : RegistryReply × Host (Noted ω) × Noted ω} (hop : Does servers h w after op) :
    Hosts h after.2.1 fun id =>
      if op.destroys id then none else (h.thing? id).or (op.offers? h.channelCapacity id) := by
  cases op with
  | addThing t => exact hosts_of_adds hs hop
  | produce t => exact hosts_of_adds hs hop
  | expose id =>
    have hsame : (fun id' => if (expose id : RegistryOperation (Noted ω)).destroys id' then none
        else (h.thing? id').or ((expose id).offers? h.channelCapacity id')) = h.thing? := by
      funext id'
      exact Option.or_none
    rw [hsame]
    cases ht : h.thing? id with
    | none =>
      rw [hop.1 ht]
      exact .refl hs
    | some t =>
      obtain ⟨result, w', calls, rfl, -⟩ := hop.2 t ht
      exact .refl hs
  | destroy id =>
    -- To take a thing away is to update the look-up at its id.
    have hother : ∀ id', (if (destroy id : RegistryOperation (Noted ω)).destroys id' then none
        else (h.thing? id').or ((destroy id).offers? h.channelCapacity id')) =
          Function.update h.thing? id none id' := by
      intro id'
      by_cases hid : id = id'
      · simp [destroys, hid]
      · simp [destroys, offers?, hid, Ne.symm hid]
    rw [funext hother]
    cases ht : h.thing? id with
    | none =>
      rw [hop.1 ht, ← ht, Function.update_eq_self]
      exact .refl hs
    | some t =>
      obtain ⟨result, h', w', calls, rfl, -, -, hh'⟩ := hop.2 t ht
      exact hh'

/-- What is hosted after a run on a host that had no things. -/
theorem hosts_run (servers : List (ProtocolServer ω)) {h : Host (Noted ω)}
    (hservers : h.servers = servers.map fun s => s.noting (.server s)) (hthings : h.things = [])
    (w : Noted ω) (ops : List (RegistryOperation (Noted ω))) :
    Hosts h (run h w ops).1 (hosted? h.channelCapacity ops) := by
  -- The last operation decides, on top of what the others left behind.
  induction ops using List.reverseRecOn with
  | nil =>
    have hnone : h.thing? = hosted? h.channelCapacity [] := by
      funext id
      rw [Host.thing?, hthings]
      rfl
    rw [← hnone]
    exact .refl (by rw [hthings]; exact Dict.sorted_nil)
  | append_singleton ops op ih =>
    rw [run_append_singleton]
    refine ih.trans ?_
    obtain ⟨things, hrun, hs, hhosted⟩ := ih
    have hsorted : (run h w ops).1.things.Sorted := by
      rw [hrun]
      exact hs
    have hcapacity : (run h w ops).1.channelCapacity = h.channelCapacity := by rw [hrun]
    have hop := hosts_of_does hsorted
      (does_apply (by rw [hrun]; exact hservers) hsorted (run h w ops).2 op)
    rw [hhosted, hcapacity] at hop
    rw [funext (hosted?_append_singleton h.channelCapacity ops op)]
    exact hop

/-- After any run on a host that had no things, every id has the first thing that was added under it since it was
last destroyed, and the thing has this id. The next operation does what it should. -/
theorem registry_run (h : Host (Noted ω)) (servers : List (ProtocolServer ω))
    (factories : Dict (ClientFactory ω)) (w : Noted ω) (ops : List (RegistryOperation (Noted ω))) :
    let fresh := { h with things := [] }.withBindings servers factories
    let s := run fresh w ops
    (∀ id, s.1.thing? id = hosted? h.channelCapacity ops id) ∧
    (∀ id t, s.1.thing? id = some t → t.id = id) ∧
    ∀ op, Does servers s.1 s.2 (op.apply s.1 s.2) op := by
  intro fresh s
  obtain ⟨things, hrun, hs, hhosted⟩ : Hosts fresh s.1 (hosted? h.channelCapacity ops) :=
    hosts_run servers rfl rfl w ops
  refine ⟨congrFun hhosted, fun id t ht => ?_, fun op => does_apply ?_ ?_ s.2 op⟩
  · rw [hhosted] at ht
    exact id_of_hosted? ht
  · rw [hrun]
    rfl
  · rw [hrun]
    exact hs

/-- Two lamps with one id. -/
def twoLamps (base : String) : Thing := { id := "urn:lamp", base := some base }

/-- The second lamp is not added as long as the first one is there; it is after the first one was destroyed, on
a server that fails. -/
theorem registry_run_lamps :
    (run (({} : Host (Noted Unit)).withBindings [Host.brokenServer] []) ((), [])
        [.produce (twoLamps "http://first"), .produce (twoLamps "http://second")]).1.thing? "urn:lamp" =
      some (.create (twoLamps "http://first") 64) ∧
    (run (({} : Host (Noted Unit)).withBindings [Host.brokenServer] []) ((), [])
        [.produce (twoLamps "http://first"), .destroy "urn:lamp",
          .produce (twoLamps "http://second")]).1.thing? "urn:lamp" =
      some (.create (twoLamps "http://second") 64) :=
  ⟨(registry_run {} [Host.brokenServer] [] ((), []) _).1 "urn:lamp",
    (registry_run {} [Host.brokenServer] [] ((), []) _).1 "urn:lamp"⟩

end RegistryOperation
end WebOfThings
