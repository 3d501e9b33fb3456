import WebOfThings.LocalThing

/-!
# Runs of a local thing

A run is any sequence of operations on a thing, with handlers that may end as they like; operations on many
properties work on them at the same time, and these accesses come to their end in any order (`Schedule`).
What a run does to one property is told by two kinds of events (`PropertyEvent`): a successful write commits
a value, and a handler serves a read with a value. Reads and writes whose handler fails, and operations on
other affordances, are no events.

From the events follow the stored value (`valueAfter`) and what is sent to the subscribers (`changes`): the
committed values that differ from the value before. A property `Stands` with such a value, what was sent so
far and the handlers in place. One access keeps this (`Stands.access`), so does one operation
(`Stands.apply`), which may install a handler, and so, by induction, does every run (`Stands.run`).

`run_property` says what follows: the value and the notifications after any run, which operations leave a
property alone, and that the handlers installed last answer from then on (`AnsweredBy`). `run_action` says
the latter of actions.

Operations are the reads and writes of single properties and of many, the invocation of actions, the
emission of events, subscriptions and their ends, and the installation of handlers. Installing one does
nothing to the value and sends nothing; it decides what a later access does. A handler may end as it likes,
including with a crash, and it may change the world in between: nothing is asked of it beyond that.
-/

namespace WebOfThings

variable {ω : Type}

/-! ## Events of a property -/

/-- What changes a property. -/
inductive PropertyEvent where
  /-- A write succeeds with a value. -/
  | committed (v : Json)
  /-- A handler supplies the value that is read. -/
  | served (v : Json)

namespace PropertyEvent

/-- The stored value after some events. A value that equals the stored one does not take its place when it
is committed. -/
def valueAfter (v : Json) : List PropertyEvent → Json
  | [] => v
  | committed u :: rest => valueAfter (if v == u then v else u) rest
  | served u :: rest => valueAfter u rest

/-- The committed values that differ from the value stored before, in order. -/
def changes (v : Json) : List PropertyEvent → List Json
  | [] => []
  | committed u :: rest => if v == u then changes v rest else u :: changes u rest
  | served u :: rest => changes u rest

/-- The stored value after some events and others is that after the others, on what the first ones left. -/
theorem valueAfter_append (v : Json) (es es' : List PropertyEvent) :
    valueAfter v (es ++ es') = valueAfter (valueAfter v es) es' := by
  induction es generalizing v with
  | nil => rfl
  | cons e rest ih =>
    cases e with
    | committed u => exact ih _
    | served u => exact ih u

/-- What changes in two stretches of events is what changes in the first and then in the second. -/
theorem changes_append (v : Json) (es es' : List PropertyEvent) :
    changes v (es ++ es') = changes v es ++ changes (valueAfter v es) es' := by
  induction es generalizing v with
  | nil => rfl
  | cons e rest ih =>
    cases e with
    | committed u =>
      rw [List.cons_append, changes, changes, valueAfter]
      split
      · exact ih v
      · rw [ih u, List.cons_append]
    | served u => exact ih u

end PropertyEvent

namespace PropertyState

/-- The value that a write commits: what its handler makes of the written value, if there is one. -/
def committed? (p : PropertyState ω) (v : Json) (w : ω) : Option Json :=
  match p.onWrite with
  | none => some v
  | some handler =>
    match (handler v w).1 with
    | .done u => some u
    | _ => none

/-- The value with which the handler for reads serves a read. -/
def served? (p : PropertyState ω) (w : ω) : Option Json :=
  match p.onRead with
  | none => none
  | some handler =>
    match (handler () w).1 with
    | .done u => some u
    | _ => none

/-- A read returns the value that its handler supplies, or without a handler the stored one. -/
theorem read_eq_ok_iff {p : PropertyState ω} {u : Json} {w : ω} :
    (p.read w).1 = .ok u ↔ p.served? w = some u ∨ (p.onRead = none ∧ p.value = u) := by
  unfold read served?
  cases p.onRead with
  | none => simp
  | some handler =>
    simp only
    cases (handler () w).1 <;> simp [Outcome.toExcept]

/-- A write whose handler fails commits nothing. -/
theorem committed?_eq_none {p : PropertyState ω} {handler : Handler ω Json Json} {v : Json} {w : ω}
    (hp : p.onWrite = some handler) (hfails : ∀ u, (handler v w).1 ≠ .done u) :
    p.committed? v w = none := by
  rw [committed?, hp]
  show (match (handler v w).1 with | .done u => some u | _ => none) = none
  cases hresult : (handler v w).1 with
  | done u => exact absurd hresult (hfails u)
  | failed message => rfl
  | crashed message => rfl

/-- A read whose handler fails serves nothing. -/
theorem served?_eq_none {p : PropertyState ω} {handler : Handler ω Unit Json} {w : ω}
    (hp : p.onRead = some handler) (hfails : ∀ u, (handler () w).1 ≠ .done u) : p.served? w = none := by
  rw [served?, hp]
  show (match (handler () w).1 with | .done u => some u | _ => none) = none
  cases hresult : (handler () w).1 with
  | done u => exact absurd hresult (hfails u)
  | failed message => rfl
  | crashed message => rfl

/-- What a write leaves is what it commits, or the property as it was. -/
theorem state_of_write (p : PropertyState ω) (v : Json) (w : ω) :
    (p.write v w).2.1 =
      match p.committed? v w with
      | some u => p.commit u
      | none => p := by
  unfold write committed?
  cases p.onWrite with
  | none => rfl
  | some handler =>
    simp only
    cases (handler v w).1 <;> rfl

/-- What a read leaves is the value that it was served with, or the property as it was. -/
theorem state_of_read (p : PropertyState ω) (w : ω) :
    (p.read w).2.1 =
      match p.served? w with
      | some u => { p with value := u }
      | none => p := by
  unfold read served?
  cases p.onRead with
  | none => rfl
  | some handler =>
    simp only
    cases (handler () w).1 <;> rfl

end PropertyState

/-! ## Accesses -/

/-- A single read or write of a property. -/
inductive Access where
  | read (name : String)
  | write (name : String) (v : Json)

/-- The property that is accessed. -/
def Access.name : Access → String
  | read name => name
  | write name _ => name

namespace LocalThing

/-- The thing and the world after an access. -/
def access (a : Access) (t : LocalThing ω) (w : ω) : LocalThing ω × ω :=
  match a with
  | .read name => (t.readProperty name w).2
  | .write name v => (t.writeProperty name v w).2

/-- The thing and the world after some accesses. -/
def accessAll : List Access → LocalThing ω → ω → LocalThing ω × ω
  | [], t, w => (t, w)
  | a :: rest, t, w => accessAll rest (access a t w).1 (access a t w).2

/-- The event that an access is for a property: none if it is an access to another one or fails. -/
def eventOf (name : String) (a : Access) (t : LocalThing ω) (w : ω) : List PropertyEvent :=
  match Dict.get? name t.properties with
  | none => []
  | some p =>
    if a.name = name then
      match a with
      | .read _ => ((p.served? w).map .served).toList
      | .write _ v => ((p.committed? v w).map .committed).toList
    else []

/-- The events of some accesses. -/
def eventsOf (name : String) : List Access → LocalThing ω → ω → List PropertyEvent
  | [], _, _ => []
  | a :: rest, t, w =>
    eventOf name a t w ++ eventsOf name rest (access a t w).1 (access a t w).2

/-- A property holds a value, and these values have been sent to its subscribers. -/
def Holds (t : LocalThing ω) (name : String) (v : Json) (sent : List Json) : Prop :=
  ∃ p, Dict.get? name t.properties = some p ∧ p.value = v ∧ p.channel.sent = sent

/-- A property holds a value, these values have been sent to its subscribers, and these handlers are in place. -/
def Stands (t : LocalThing ω) (name : String) (v : Json) (sent : List Json)
    (onRead : Option (Handler ω Unit Json)) (onWrite : Option (Handler ω Json Json)) : Prop :=
  ∃ p, Dict.get? name t.properties = some p ∧ (p.value = v ∧ p.channel.sent = sent) ∧
    p.onRead = onRead ∧ p.onWrite = onWrite

/-- A property that stands in some way holds its value. -/
theorem Stands.holds {t : LocalThing ω} {name : String} {v : Json} {sent : List Json}
    {onRead : Option (Handler ω Unit Json)} {onWrite : Option (Handler ω Json Json)}
    (h : t.Stands name v sent onRead onWrite) : t.Holds name v sent := by
  obtain ⟨p, hp, ⟨hv, hsent⟩, -⟩ := h
  exact ⟨p, hp, hv, hsent⟩

/-- A property that holds a value stands with the handlers that it has. -/
theorem Holds.exists_stands {t : LocalThing ω} {name : String} {v : Json} {sent : List Json}
    (h : t.Holds name v sent) : ∃ onRead onWrite, t.Stands name v sent onRead onWrite := by
  obtain ⟨p, hp, hv, hsent⟩ := h
  exact ⟨p.onRead, p.onWrite, p, hp, ⟨hv, hsent⟩, rfl, rfl⟩

/-- Setting a property leaves the others. -/
theorem get?_setProperty (t : LocalThing ω) (name other : String) (p : PropertyState ω) :
    Dict.get? other (t.setProperty name p).properties =
      if name = other then some p else Dict.get? other t.properties :=
  Dict.get?_insert t.properties name other p

/-- An access leaves other properties as they were. -/
theorem get?_access_of_ne {a : Access} {name : String} (h : a.name ≠ name) (t : LocalThing ω) (w : ω) :
    Dict.get? name (access a t w).1.properties = Dict.get? name t.properties := by
  cases a with
  | read n =>
    simp only [access, readProperty]
    cases Dict.get? n t.properties with
    | none => rfl
    | some p => exact (t.get?_setProperty n name _).trans (if_neg h)
  | write n v =>
    simp only [access, writeProperty]
    cases Dict.get? n t.properties with
    | none => rfl
    | some p => exact (t.get?_setProperty n name _).trans (if_neg h)

/-- After a read, the property is as the read leaves it. -/
theorem get?_access_read {t : LocalThing ω} {name : String} {p : PropertyState ω}
    (hp : Dict.get? name t.properties = some p) (w : ω) :
    Dict.get? name (access (.read name) t w).1.properties = some (p.read w).2.1 := by
  simp only [access, readProperty, hp]
  exact (t.get?_setProperty name name _).trans (if_pos rfl)

/-- After a write, the property is as the write leaves it. -/
theorem get?_access_write {t : LocalThing ω} {name : String} {p : PropertyState ω}
    (hp : Dict.get? name t.properties = some p) (v : Json) (w : ω) :
    Dict.get? name (access (.write name v) t w).1.properties = some (p.write v w).2.1 := by
  simp only [access, writeProperty, hp]
  exact (t.get?_setProperty name name _).trans (if_pos rfl)

section

variable {name : String} {v : Json} {sent : List Json} {onRead : Option (Handler ω Unit Json)}
  {onWrite : Option (Handler ω Json Json)}

/-- An access changes the stored value and sends values as its event says, and leaves the handlers in place. -/
theorem Stands.access {t : LocalThing ω} (h : t.Stands name v sent onRead onWrite) (a : Access) (w : ω) :
    (access a t w).1.Stands name (PropertyEvent.valueAfter v (eventOf name a t w))
      (sent ++ PropertyEvent.changes v (eventOf name a t w)) onRead onWrite := by
  obtain ⟨p, hp, ⟨hv, hsent⟩, hhandlers⟩ := h
  by_cases ha : a.name = name
  · -- An access of the property itself: its state changes as its handler says.
    subst ha
    cases a with
    | read n =>
      refine ⟨_, get?_access_read hp w, ?_⟩
      rw [p.state_of_read w, eventOf, show Dict.get? _ _ = some p from hp]
      simp only [if_true]
      cases p.served? w with
      | none => exact ⟨⟨hv, by simp [PropertyEvent.changes, hsent]⟩, hhandlers⟩
      | some u => exact ⟨⟨rfl, by simp [PropertyEvent.changes, hsent]⟩, hhandlers⟩
    | write n u =>
      refine ⟨_, get?_access_write hp u w, ?_⟩
      rw [p.state_of_write u w, eventOf, show Dict.get? _ _ = some p from hp]
      simp only [if_true]
      cases p.committed? u w with
      | none => exact ⟨⟨hv, by simp [PropertyEvent.changes, hsent]⟩, hhandlers⟩
      | some u' =>
        -- The value is compared with the one stored at this moment.
        by_cases heq : (v == u') = true
        · have hsame : p.commit u' = p := by rw [PropertyState.commit, hv, if_pos heq]
          simp [hsame, PropertyEvent.valueAfter, PropertyEvent.changes, heq, hv, hsent, hhandlers]
        · have hother : p.commit u' = { p with value := u', channel := p.channel.send u' } := by
            rw [PropertyState.commit, hv, if_neg heq]
          simp [hother, PropertyEvent.valueAfter, PropertyEvent.changes, heq, Channel.send, hsent, hhandlers]
  · refine ⟨p, ?_, ?_, hhandlers⟩
    · rw [get?_access_of_ne ha, hp]
    · simp [eventOf, hp, ha, PropertyEvent.valueAfter, PropertyEvent.changes, hv, hsent]

/-- Some accesses change the stored value and send values as their events say. -/
theorem Stands.accessAll (accesses : List Access) {t : LocalThing ω}
    (h : t.Stands name v sent onRead onWrite) (w : ω) :
    (accessAll accesses t w).1.Stands name (PropertyEvent.valueAfter v (eventsOf name accesses t w))
      (sent ++ PropertyEvent.changes v (eventsOf name accesses t w)) onRead onWrite := by
  induction accesses generalizing t v sent w with
  | nil => simpa [LocalThing.accessAll, eventsOf, PropertyEvent.valueAfter, PropertyEvent.changes] using h
  | cons a rest ih =>
    have hrest := ih (h.access a w) (LocalThing.access a t w).2
    rwa [← PropertyEvent.valueAfter_append, List.append_assoc, ← PropertyEvent.changes_append] at hrest

end

/-! ## Operations -/

end LocalThing

/-- The order in which the accesses of an operation come to their end. -/
structure Schedule where
  order : List Access → List Access
  perm : ∀ accesses, (order accesses).Perm accesses

/-- The order in which the accesses are listed. -/
def Schedule.listed : Schedule where
  order accesses := accesses
  perm _ := .refl _

@[simp] theorem Schedule.order_nil (s : Schedule) : s.order [] = [] :=
  List.perm_nil.1 (s.perm [])

/-- There is one order of a single access. -/
@[simp] theorem Schedule.order_singleton (s : Schedule) (a : Access) : s.order [a] = [a] :=
  List.perm_singleton.1 (s.perm [a])

/-- An operation on a thing. -/
inductive LocalOperation (ω : Type) where
  | onRead (name : String) (handler : Handler ω Unit Json)
  | onWrite (name : String) (handler : Handler ω Json Json)
  | onInvoke (name : String) (handler : ActionHandler ω)
  | readProperty (name : String)
  | writeProperty (name : String) (v : Json)
  | readProperties (names : List String)
  | readAllProperties
  | writeProperties (values : List (String × Json))
  | invokeAction (name : String) (input : Json) (options : InteractionOptions)
  | emitEvent (name : String) (data : Json)
  | subscribe (source : NotificationSource)
  | receive (source : NotificationSource) (id : Nat)
  | unsubscribe (source : NotificationSource) (id : Nat)

namespace LocalOperation

/-- The handler that an operation installs for reads of a property. -/
def readHandler? (name : String) : LocalOperation ω → Option (Handler ω Unit Json)
  | onRead n handler => if n = name then some handler else none
  | _ => none

/-- The handler that an operation installs for writes of a property. -/
def writeHandler? (name : String) : LocalOperation ω → Option (Handler ω Json Json)
  | onWrite n handler => if n = name then some handler else none
  | _ => none

/-- The handler that an operation installs for an action. -/
def invokeHandler? (name : String) : LocalOperation ω → Option (ActionHandler ω)
  | onInvoke n handler => if n = name then some handler else none
  | _ => none

end LocalOperation

namespace LocalThing

/-- The thing that an attempt results in: as it was if the attempt fails. -/
def orSame (t : LocalThing ω) : Except UnknownAffordance (LocalThing ω) → LocalThing ω
  | .ok t' => t'
  | .error _ => t

/-- The accesses that an operation consists of, as they are listed. -/
def accesses (op : LocalOperation ω) (t : LocalThing ω) : List Access :=
  match op with
  | .readProperty name => [.read name]
  | .writeProperty name v => [.write name v]
  | .readProperties names => names.map .read
  | .readAllProperties => (Dict.keys t.properties).map .read
  | .writeProperties values => values.map fun (name, v) => .write name v
  | _ => []

/-- The thing and the world after an operation. -/
def apply (s : Schedule) (op : LocalOperation ω) (t : LocalThing ω) (w : ω) : LocalThing ω × ω :=
  match op with
  | .onRead name handler => (t.orSame (t.onRead name handler), w)
  | .onWrite name handler => (t.orSame (t.onWrite name handler), w)
  | .onInvoke name handler => (t.orSame (t.onInvoke name handler), w)
  | .readProperty name => (t.readProperty name w).2
  | .writeProperty name v => (t.writeProperty name v w).2
  | .readProperties _ | .readAllProperties | .writeProperties _ =>
    accessAll (s.order (accesses op t)) t w
  | .invokeAction name input options => (t, (t.invokeAction name input options w).2)
  | .emitEvent name data => (t.orSame ((t.emitEvent name data).map Prod.snd), w)
  | .subscribe source => (t.orSame ((t.subscribe source).map Prod.snd), w)
  | .receive source id => ((t.receive source id).2, w)
  | .unsubscribe source id => (t.unsubscribe source id, w)

/-- The thing and the world after a run. -/
def run : List (LocalOperation ω × Schedule) → LocalThing ω → ω → LocalThing ω × ω
  | [], t, w => (t, w)
  | (op, s) :: rest, t, w => run rest (apply s op t w).1 (apply s op t w).2

/-- The events of a property along a run. -/
def history (name : String) :
    List (LocalOperation ω × Schedule) → LocalThing ω → ω → List PropertyEvent
  | [], _, _ => []
  | (op, s) :: rest, t, w =>
    eventsOf name (s.order (accesses op t)) t w ++
      history name rest (apply s op t w).1 (apply s op t w).2

/-! ### Many properties, one after the other -/

/-- Reading many properties does what the reads do, one after the other. -/
theorem readProperties_eq (names : List String) (t : LocalThing ω) (w : ω)
    (results : Dict (Except LocalError Json)) :
    (t.readProperties w names results).2 = accessAll (names.map .read) t w := by
  induction names generalizing t w results with
  | nil => rfl
  | cons name rest ih => exact ih _ _ _

/-- Writing many properties does what the writes do, one after the other. -/
theorem writeProperties_eq (values : List (String × Json)) (t : LocalThing ω) (w : ω)
    (results : Dict (Except LocalError Json)) :
    (t.writeProperties w values results).2 =
      accessAll (values.map fun (name, v) => .write name v) t w := by
  induction values generalizing t w results with
  | nil => rfl
  | cons e rest ih => exact ih _ _ _

theorem apply_readProperties (names : List String) (t : LocalThing ω) (w : ω) :
    apply .listed (.readProperties names) t w = (t.readProperties w names []).2 :=
  (readProperties_eq names t w []).symm

theorem apply_readAllProperties (t : LocalThing ω) (w : ω) :
    apply .listed .readAllProperties t w = (t.readAllProperties w).2 :=
  (readProperties_eq (Dict.keys t.properties) t w []).symm

theorem apply_writeProperties (values : List (String × Json)) (t : LocalThing ω) (w : ω) :
    apply .listed (.writeProperties values) t w = (t.writeProperties w values []).2 :=
  (writeProperties_eq values t w []).symm

/-! ### What an operation keeps -/

section

variable {name : String} {v : Json} {sent : List Json} {onRead : Option (Handler ω Unit Json)}
  {onWrite : Option (Handler ω Json Json)}

/-- A property stands as it did where the state of another one is replaced. -/
theorem Stands.setProperty_of_ne {t : LocalThing ω} (h : t.Stands name v sent onRead onWrite) {other : String}
    (hother : other ≠ name) (p' : PropertyState ω) :
    (t.setProperty other p').Stands name v sent onRead onWrite := by
  obtain ⟨p, hp, hstate⟩ := h
  exact ⟨p, by rw [get?_setProperty, if_neg hother, hp], hstate⟩

/-- A property stands as it did with another state of a channel, to which nothing was sent if it is its own. -/
theorem Stands.setChannel {t : LocalThing ω} {source : NotificationSource} {c c' : Channel Json}
    (h : t.Stands name v sent onRead onWrite) (hc : t.channel source = .ok c)
    (hsent : ∀ n, source = .property n → c'.sent = c.sent) :
    (t.setChannel source c').Stands name v sent onRead onWrite := by
  cases source with
  | property n =>
    simp only [LocalThing.channel] at hc
    simp only [LocalThing.setChannel]
    cases hp : Dict.get? n t.properties with
    | none => exact h
    | some p =>
      rw [hp] at hc
      cases hc
      by_cases hn : n = name
      · -- It is the property itself, which keeps its value and its handlers.
        subst hn
        obtain ⟨q, hq, ⟨hv, hs⟩, hhandlers⟩ := h
        obtain rfl : p = q := Option.some.inj (hp.symm.trans hq)
        exact ⟨_, (t.get?_setProperty n n _).trans (if_pos rfl), ⟨hv, (hsent n rfl).trans hs⟩, hhandlers⟩
      · exact h.setProperty_of_ne hn _
  | event n => exact h

/-- An operation changes the stored value and sends values as its events say, and the handlers that it installs
take the place of those before. -/
theorem Stands.apply {t : LocalThing ω} (h : t.Stands name v sent onRead onWrite) (s : Schedule)
    (op : LocalOperation ω) (w : ω) :
    (apply s op t w).1.Stands name
      (PropertyEvent.valueAfter v (eventsOf name (s.order (accesses op t)) t w))
      (sent ++ PropertyEvent.changes v (eventsOf name (s.order (accesses op t)) t w))
      ((op.readHandler? name).or onRead) ((op.writeHandler? name).or onWrite) := by
  -- Without accesses there are no events.
  have hquiet : ∀ {t' : LocalThing ω} {onRead' onWrite'}, t'.Stands name v sent onRead' onWrite' →
      t'.Stands name (PropertyEvent.valueAfter v (eventsOf name (s.order []) t w))
        (sent ++ PropertyEvent.changes v (eventsOf name (s.order []) t w)) onRead' onWrite' := by
    intro t' onRead' onWrite' h'
    simpa [eventsOf, PropertyEvent.valueAfter, PropertyEvent.changes] using h'
  cases op with
  | readProperty n =>
    rw [accesses, s.order_singleton]
    exact h.accessAll [.read n] w
  | writeProperty n u =>
    rw [accesses, s.order_singleton]
    exact h.accessAll [.write n u] w
  | readProperties names => exact h.accessAll _ w
  | readAllProperties => exact h.accessAll _ w
  | writeProperties values => exact h.accessAll _ w
  -- What follows accesses nothing.
  | onRead n handler =>
    refine hquiet ?_
    simp only [LocalThing.apply, LocalThing.onRead, LocalOperation.readHandler?]
    by_cases hn : n = name
    · subst hn
      obtain ⟨p, hp, hstate, -, hwrite⟩ := h
      rw [hp, if_pos rfl]
      exact ⟨_, (t.get?_setProperty n n _).trans (if_pos rfl), hstate, rfl, hwrite⟩
    · rw [if_neg hn]
      cases Dict.get? n t.properties with
      | none => exact h
      | some p => exact h.setProperty_of_ne hn _
  | onWrite n handler =>
    refine hquiet ?_
    simp only [LocalThing.apply, LocalThing.onWrite, LocalOperation.writeHandler?]
    by_cases hn : n = name
    · subst hn
      obtain ⟨p, hp, hstate, hread, -⟩ := h
      rw [hp, if_pos rfl]
      exact ⟨_, (t.get?_setProperty n n _).trans (if_pos rfl), hstate, hread, rfl⟩
    · rw [if_neg hn]
      cases Dict.get? n t.properties with
      | none => exact h
      | some p => exact h.setProperty_of_ne hn _
  | onInvoke n handler =>
    refine hquiet ?_
    simp only [LocalThing.apply, onInvoke]
    cases Dict.get? n t.actions with
    | none => exact h
    | some handler' => exact h
  | invokeAction n input options => exact hquiet h
  | emitEvent n data =>
    refine hquiet ?_
    simp only [LocalThing.apply, emitEvent]
    cases hc : t.channel (.event n) with
    | error e => exact h
    | ok c => exact h.setChannel hc nofun
  | subscribe source =>
    refine hquiet ?_
    simp only [LocalThing.apply, subscribe]
    cases hc : t.channel source with
    | error e => exact h
    | ok c => exact h.setChannel hc fun _ _ => rfl
  | receive source id =>
    refine hquiet ?_
    simp only [LocalThing.apply, receive]
    cases hc : t.channel source with
    | error e => exact h
    | ok c => exact h.setChannel hc fun _ _ => rfl
  | unsubscribe source id =>
    refine hquiet ?_
    simp only [LocalThing.apply, unsubscribe]
    cases hc : t.channel source with
    | error e => exact h
    | ok c => exact h.setChannel hc fun _ _ => rfl

end

/-- The last one of what the operations of a run install. -/
def lastInstalled? {α : Type} (installs? : LocalOperation ω → Option α)
    (ops : List (LocalOperation ω × Schedule)) : Option α :=
  (ops.filterMap fun step => installs? step.1).getLast?

/-- What comes later takes the place of what the first operation installs. -/
theorem lastInstalled?_cons {α : Type} (installs? : LocalOperation ω → Option α)
    (step : LocalOperation ω × Schedule) (ops : List (LocalOperation ω × Schedule)) :
    lastInstalled? installs? (step :: ops) = (lastInstalled? installs? ops).or (installs? step.1) := by
  rw [lastInstalled?, List.filterMap_cons]
  cases installs? step.1 with
  | none => exact Option.or_none.symm
  | some x =>
    simp only [List.getLast?_cons, lastInstalled?]
    cases List.getLast? _ <;> rfl

/-- Along a run, the events tell the stored value and what is sent, and the handlers installed last are in place. -/
theorem Stands.run {name : String} (ops : List (LocalOperation ω × Schedule)) {t : LocalThing ω} {v : Json}
    {sent : List Json} {onRead : Option (Handler ω Unit Json)} {onWrite : Option (Handler ω Json Json)}
    (h : t.Stands name v sent onRead onWrite) (w : ω) :
    (run ops t w).1.Stands name (PropertyEvent.valueAfter v (history name ops t w))
      (sent ++ PropertyEvent.changes v (history name ops t w))
      ((lastInstalled? (·.readHandler? name) ops).or onRead)
      ((lastInstalled? (·.writeHandler? name) ops).or onWrite) := by
  induction ops generalizing t v sent onRead onWrite w with
  | nil => simpa [LocalThing.run, history, PropertyEvent.valueAfter, PropertyEvent.changes, lastInstalled?] using h
  | cons op rest ih =>
    -- The rest starts from what the first operation leaves, and its events come after.
    obtain ⟨op, s⟩ := op
    have hrest := ih (h.apply s op w) (LocalThing.apply s op t w).2
    rw [← PropertyEvent.valueAfter_append, List.append_assoc, ← PropertyEvent.changes_append,
      ← Option.or_assoc, ← Option.or_assoc] at hrest
    rw [lastInstalled?_cons, lastInstalled?_cons]
    exact hrest

/-! ## Operations that leave a property alone -/

/-- An operation leaves a property alone: it accesses other properties only, or it is a read or a write of
the property whose handler fails. -/
def LeavesAlone (name : String) (op : LocalOperation ω) (t : LocalThing ω) (w : ω) : Prop :=
  (∀ a ∈ accesses op t, a.name ≠ name) ∨
  ∃ p, Dict.get? name t.properties = some p ∧
    ((op = .readProperty name ∧ ∃ handler, p.onRead = some handler ∧ ∀ u, (handler () w).1 ≠ .done u) ∨
      ∃ v handler, op = .writeProperty name v ∧ p.onWrite = some handler ∧ ∀ u, (handler v w).1 ≠ .done u)

/-- Accesses to other properties are no events. -/
theorem eventsOf_eq_nil {name : String} {accesses : List Access} (h : ∀ a ∈ accesses, a.name ≠ name)
    (t : LocalThing ω) (w : ω) : eventsOf name accesses t w = [] := by
  induction accesses generalizing t w with
  | nil => rfl
  | cons a rest ih =>
    obtain ⟨ha, hrest⟩ := List.forall_mem_cons.1 h
    rw [eventsOf, ih hrest, List.append_nil, eventOf]
    cases Dict.get? name t.properties with
    | none => rfl
    | some p => exact if_neg ha

/-- An operation that leaves a property alone is no event of it. -/
theorem eventsOf_eq_nil_of_leavesAlone {name : String} {op : LocalOperation ω} {t : LocalThing ω} {w : ω}
    (h : LeavesAlone name op t w) (s : Schedule) : eventsOf name (s.order (accesses op t)) t w = [] := by
  rcases h with h | ⟨p, hp, ⟨rfl, handler, hhandler, hfails⟩ | ⟨v, handler, rfl, hhandler, hfails⟩⟩
  · exact eventsOf_eq_nil (fun a ha => h a ((s.perm _).mem_iff.1 ha)) t w
  · have hnone := PropertyState.served?_eq_none hhandler hfails
    simp [accesses, eventsOf, eventOf, hp, Access.name, hnone]
  · have hnone := PropertyState.committed?_eq_none hhandler hfails
    simp [accesses, eventsOf, eventOf, hp, Access.name, hnone]

/-! ## Handlers that serve -/

/-- How accesses of a property are answered in any world. A read is answered by the handler for reads, or without
one with the stored value; a write by the handler for writes, or without one with the written value. Handlers act on
the world as they do by themselves. -/
structure AnsweredBy (t : LocalThing ω) (name : String) (v : Json) (onRead : Option (Handler ω Unit Json))
    (onWrite : Option (Handler ω Json Json)) : Prop where
  stored : onRead = none → ∀ w, (t.readProperty name w).1 = .ok v
  served : ∀ handler, onRead = some handler → ∀ w,
    (t.readProperty name w).1 = (handler () w).1.toExcept ∧ (t.readProperty name w).2.2 = (handler () w).2
  taken : onWrite = none → ∀ u w, (t.writeProperty name u w).1 = .ok u
  handled : ∀ handler, onWrite = some handler → ∀ u w,
    (t.writeProperty name u w).1 = (handler u w).1.toExcept ∧ (t.writeProperty name u w).2.2 = (handler u w).2

/-- The handlers in place answer. -/
theorem Stands.answeredBy {t : LocalThing ω} {name : String} {v : Json} {sent : List Json}
    {onRead : Option (Handler ω Unit Json)} {onWrite : Option (Handler ω Json Json)}
    (h : t.Stands name v sent onRead onWrite) : t.AnsweredBy name v onRead onWrite := by
  obtain ⟨p, hp, ⟨hv, -⟩, hread, hwrite⟩ := h
  refine ⟨fun hnone w => ?_, fun handler hsome w => ?_, fun hnone u w => ?_, fun handler hsome u w => ?_⟩
  · simp only [readProperty, hp, PropertyState.read, hread.trans hnone, hv]
  · simp only [readProperty, hp, PropertyState.read, hread.trans hsome]
    cases (handler () w).1.toExcept <;> exact ⟨rfl, rfl⟩
  · simp only [writeProperty, hp, PropertyState.write, hwrite.trans hnone]
  · simp only [writeProperty, hp, PropertyState.write, hwrite.trans hsome]
    cases (handler u w).1.toExcept <;> exact ⟨rfl, rfl⟩

/-- Along every run, the stored value of a property is the one that the events of the property leave, and
what is sent to its subscribers is what they change. An operation that leaves the property alone neither
changes its value nor sends anything, in whatever state it finds the thing. Afterwards the property is served by the
handlers that were installed last. -/
theorem run_property (t : LocalThing ω) (w : ω) (ops : List (LocalOperation ω × Schedule)) {name : String}
    {p : PropertyState ω} (hp : Dict.get? name t.properties = some p) :
    (run ops t w).1.Holds name (PropertyEvent.valueAfter p.value (history name ops t w))
        (p.channel.sent ++ PropertyEvent.changes p.value (history name ops t w)) ∧
      (∀ s op v sent, (run ops t w).1.Holds name v sent →
        LeavesAlone name op (run ops t w).1 (run ops t w).2 →
          (apply s op (run ops t w).1 (run ops t w).2).1.Holds name v sent) ∧
      (run ops t w).1.AnsweredBy name (PropertyEvent.valueAfter p.value (history name ops t w))
        ((lastInstalled? (·.readHandler? name) ops).or p.onRead)
        ((lastInstalled? (·.writeHandler? name) ops).or p.onWrite) := by
  have hrun := Stands.run ops ⟨p, hp, ⟨rfl, rfl⟩, rfl, rfl⟩ w
  refine ⟨hrun.holds, fun s op v sent h hop => ?_, hrun.answeredBy⟩
  obtain ⟨onRead, onWrite, h⟩ := h.exists_stands
  have hnext := (h.apply s op (run ops t w).2).holds
  rw [eventsOf_eq_nil_of_leavesAlone hop s] at hnext
  simpa [PropertyEvent.valueAfter, PropertyEvent.changes] using hnext

/-- A switch that is off. -/
def switch : LocalThing Nat := .create { id := "urn:switch", properties := [("on", {})] }

/-- A handler that counts the writes and fails at the third one. -/
def counting : Handler Nat Json Json := fun v count =>
  (if count = 2 then .failed "broken" else .done v, count + 1)

/-- Two writes of the same value. -/
def switchedOn : List (LocalOperation Nat × Schedule) :=
  [(.onWrite "on" counting, .listed), (.writeProperty "on" (.bool true), .listed),
   (.writeProperties [("on", .bool true), ("off", .null)], .listed)]

/-- The second write changes nothing, and a third one would fail. -/
theorem run_property_switch :
    Dict.get? "on" (switch : LocalThing Nat).properties =
        some { value := .null, channel := .create defaultCapacity } ∧
      (run switchedOn switch 0).1.Holds "on" (.bool true) [.bool true] ∧
      (apply .listed (.writeProperty "on" .null) (run switchedOn switch 0).1 (run switchedOn switch 0).2).1.Holds
        "on" (.bool true) [.bool true] ∧
      ((run switchedOn switch 0).1.writeProperty "on" .null 2).1 = .error (.handlerFailed "broken") := by
  have hp : Dict.get? "on" (switch : LocalThing Nat).properties =
      some { value := .null, channel := .create defaultCapacity } := rfl
  obtain ⟨hrun, hleaves, hanswers⟩ := run_property switch 0 switchedOn hp
  refine ⟨hp, hrun, hleaves .listed _ _ _ hrun (.inr ⟨_, rfl, .inr ⟨.null, counting, rfl, rfl, ?_⟩⟩),
    (hanswers.handled counting rfl .null 2).1⟩
  intro u hu
  cases hu

/-! ## Actions -/

/-- Reads and writes leave the actions as they are. -/
theorem actions_accessAll (accesses : List Access) (t : LocalThing ω) (w : ω) :
    (accessAll accesses t w).1.actions = t.actions := by
  induction accesses generalizing t w with
  | nil => rfl
  | cons a rest ih =>
    rw [accessAll, ih]
    cases a with
    | read n =>
      rw [access, readProperty]
      cases Dict.get? n t.properties <;> rfl
    | write n u =>
      rw [access, writeProperty]
      cases Dict.get? n t.properties <;> rfl

/-- So does what happens on a channel. -/
theorem actions_setChannel (t : LocalThing ω) (source : NotificationSource) (c : Channel Json) :
    (t.setChannel source c).actions = t.actions := by
  cases source with
  | property n =>
    rw [setChannel]
    cases Dict.get? n t.properties <;> rfl
  | event n => rfl

/-- The handler of an action stays in place unless an operation installs another one. -/
theorem get?_actions_apply {t : LocalThing ω} {name : String} {handler? : Option (ActionHandler ω)}
    (h : Dict.get? name t.actions = some handler?) (s : Schedule) (op : LocalOperation ω) (w : ω) :
    Dict.get? name (apply s op t w).1.actions = some ((op.invokeHandler? name).or handler?) := by
  cases op with
  | onInvoke n handler =>
    simp only [apply, onInvoke, LocalOperation.invokeHandler?]
    by_cases hn : n = name
    · subst hn
      rw [h, if_pos rfl]
      exact (Dict.get?_insert t.actions n n _).trans (if_pos rfl)
    · rw [if_neg hn]
      cases Dict.get? n t.actions with
      | none => exact h
      | some _ => exact ((Dict.get?_insert t.actions n name _).trans (if_neg hn)).trans h
  | readProperty n => exact (congrArg (Dict.get? name) (actions_accessAll [.read n] t w)).trans h
  | writeProperty n u => exact (congrArg (Dict.get? name) (actions_accessAll [.write n u] t w)).trans h
  | readProperties | readAllProperties | writeProperties =>
    exact (congrArg (Dict.get? name) (actions_accessAll _ t w)).trans h
  | invokeAction => exact h
  -- What follows is about properties and channels.
  | onRead n handler =>
    simp only [apply, onRead]
    cases Dict.get? n t.properties <;> exact h
  | onWrite n handler =>
    simp only [apply, onWrite]
    cases Dict.get? n t.properties <;> exact h
  | emitEvent n data =>
    simp only [apply, emitEvent]
    cases t.channel (.event n) <;> exact h
  | subscribe source =>
    simp only [apply, subscribe]
    cases t.channel source with
    | error e => exact h
    | ok c => exact (congrArg (Dict.get? name) (t.actions_setChannel source _)).trans h
  | receive source id =>
    simp only [apply, receive]
    cases t.channel source with
    | error e => exact h
    | ok c => exact (congrArg (Dict.get? name) (t.actions_setChannel source _)).trans h
  | unsubscribe source id =>
    simp only [apply, unsubscribe]
    cases t.channel source with
    | error e => exact h
    | ok c => exact (congrArg (Dict.get? name) (t.actions_setChannel source _)).trans h

/-- After every run, an action is carried out by the handler that was installed last. -/
theorem run_action (t : LocalThing ω) (w : ω) (ops : List (LocalOperation ω × Schedule)) {name : String}
    {handler? : Option (ActionHandler ω)} (h : Dict.get? name t.actions = some handler?) :
    Dict.get? name (run ops t w).1.actions =
      some ((lastInstalled? (·.invokeHandler? name) ops).or handler?) := by
  induction ops generalizing t w handler? with
  | nil => exact h
  | cons step rest ih =>
    obtain ⟨op, s⟩ := step
    rw [lastInstalled?_cons, Option.or_assoc]
    exact ih _ _ (get?_actions_apply h s op w)

end LocalThing
end WebOfThings
