import WebOfThings.Channel
import WebOfThings.Form.InForce
import WebOfThings.Text.Quoted

/-!
# Local things

A thing that is hosted here: its description with the live state of each affordance. This is `ExposedThing`.
A property has a value, which handlers may supply or change, and a channel for the values that are written
to it; an action has a handler; an event has a channel.

Handlers act on a world `ω` that belongs to the program around them, and every interaction gives the new
state of the thing and the new world beside its result. A handler may fail or crash, which never changes the
state of the thing but may change the world. Interactions on one property exclude each other in the program,
so one interaction is one step here, and runs are lists of steps.

- `PropertyState.read` stores what a read handler supplies and sends nothing; without a handler it gives
  the stored value.
- `PropertyState.write` commits what the write handler makes of the written value, or the value itself.
- `PropertyState.commit` stores a value and sends it to the subscribers, if it is another one than before.
- `readProperties` and `writeProperties` (`read_multiple_properties`, `write_properties`) take one
  property after the other; a failure concerns its own property only.

`set_property_read_handler`, `set_property_write_handler` and `set_action_handler` are `onRead`, `onWrite`
and `onInvoke`: they replace the handler and touch neither the value nor the channel.

Main statement: `write_of_failed` (a write that fails leaves the property as it was).
-/

namespace WebOfThings

/-- A thing that lacks an affordance. -/
structure UnknownAffordance where
  thing : String
  type : AffordanceType
  name : String
  deriving DecidableEq

/-- The wording of the error. -/
def UnknownAffordance.message (e : UnknownAffordance) : String :=
  "Thing \"" ++ e.thing ++ "\" has no " ++ e.type.word ++ " named \"" ++ e.name ++ "\""

/-- How a handler ends. -/
inductive Outcome (α : Type) where
  /-- With a result. -/
  | done (result : α)
  /-- With an error. -/
  | failed (message : String)
  /-- By crashing, with a message or with something else. -/
  | crashed (message : Option String)

/-- Why an interaction with a local thing fails. -/
inductive LocalError where
  | unknown (e : UnknownAffordance)
  | handlerFailed (message : String)
  | handlerCrashed (message : String)
  deriving DecidableEq

/-- The wording of the error. -/
def LocalError.message : LocalError → String
  | unknown e => e.message
  | handlerFailed message => "Handler failed: " ++ message
  | handlerCrashed message => "Handler panicked: " ++ message

/-- The result of a handler, or the error that stands for its failure. -/
def Outcome.toExcept {α : Type} : Outcome α → Except LocalError α
  | done result => .ok result
  | failed message => .error (.handlerFailed message)
  | crashed message => .error (.handlerCrashed (message.getD "unknown panic payload"))

/-- A handler of a request `α` with a result `β`, acting on a world `ω`. -/
abbrev Handler (ω α β : Type) := α → ω → Outcome β × ω

/-- The live state of a property. -/
structure PropertyState (ω : Type) where
  value : Json
  onRead : Option (Handler ω Unit Json) := none
  onWrite : Option (Handler ω Json Json) := none
  channel : Channel Json

namespace PropertyState

variable {ω : Type}

/-- Reading a property: its handler supplies the value, which is stored; without one the stored value is
read. -/
def read (p : PropertyState ω) (w : ω) : Except LocalError Json × PropertyState ω × ω :=
  match p.onRead with
  | none => (.ok p.value, p, w)
  | some handler =>
    match (handler () w).1.toExcept with
    | .ok v => (.ok v, { p with value := v }, (handler () w).2)
    | .error e => (.error e, p, (handler () w).2)

/-- The property with a value, which is sent to the subscribers if it is another one than before. -/
def commit (p : PropertyState ω) (v : Json) : PropertyState ω :=
  if p.value == v then p else { p with value := v, channel := p.channel.send v }

/-- Writing a property: its handler turns the written value into the one that is committed. -/
def write (p : PropertyState ω) (v : Json) (w : ω) :
    Except LocalError Json × PropertyState ω × ω :=
  match p.onWrite with
  | none => (.ok v, p.commit v, w)
  | some handler =>
    match (handler v w).1.toExcept with
    | .ok v' => (.ok v', p.commit v', (handler v w).2)
    | .error e => (.error e, p, (handler v w).2)

/-- A write that fails leaves the property as it was. -/
theorem write_of_failed {p : PropertyState ω} {v : Json} {w : ω} {e : LocalError}
    (h : (p.write v w).1 = .error e) : (p.write v w).2.1 = p := by
  unfold write at h ⊢
  split
  · next hp => simp [hp] at h
  · next handler hp =>
    simp only [hp] at h
    split at h
    · cases h
    · next e' he => simp

end PropertyState

/-- A handler of an action sees the input and the options of the caller, and may end without output. -/
abbrev ActionHandler (ω : Type) := Handler ω (Json × InteractionOptions) (Option Json)

/-- A thing with its live state. -/
structure LocalThing (ω : Type) where
  thing : Thing
  properties : Dict (PropertyState ω)
  actions : Dict (Option (ActionHandler ω))
  events : Dict (Channel Json)

/-- Where notifications come from. -/
inductive NotificationSource where
  | property (name : String)
  | event (name : String)
  deriving DecidableEq

namespace LocalThing

variable {ω : Type}

/-- How many notifications are kept for a subscriber unless something else is asked for. -/
def defaultCapacity : Nat := 64

/-- The state of a thing at first: properties have their initial values, nothing has a handler. -/
def create (thing : Thing) (capacity : Nat := defaultCapacity) : LocalThing ω where
  thing
  properties :=
    thing.properties.mapValues fun p =>
      { value := p.schema.initial, channel := .create capacity }
  actions := thing.actions.mapValues fun _ => none
  events := thing.events.mapValues fun _ => .create capacity

/-- The id of the thing. -/
def id (t : LocalThing ω) : String := t.thing.id

/-- The error for an affordance that the thing lacks. -/
def lacks (t : LocalThing ω) (type : AffordanceType) (name : String) : UnknownAffordance :=
  ⟨t.id, type, name⟩

/-- The thing for diagnostics. -/
def diagnostic (t : LocalThing ω) : String :=
  "ExposedThing \x7b id: " ++ Text.quote t.id ++
    ", properties: " ++ Text.quoteList (Dict.keys t.properties) ++
    ", actions: " ++ Text.quoteList (Dict.keys t.actions) ++
    ", events: " ++ Text.quoteList (Dict.keys t.events) ++ " \x7d"

/-! ## Handlers -/

/-- The thing with another state of a property. -/
def setProperty (t : LocalThing ω) (name : String) (p : PropertyState ω) : LocalThing ω :=
  { t with properties := t.properties.insert name p }

/-- The thing with a handler for reads of a property. -/
def onRead (t : LocalThing ω) (name : String) (handler : Handler ω Unit Json) :
    Except UnknownAffordance (LocalThing ω) :=
  match Dict.get? name t.properties with
  | some p => .ok (t.setProperty name { p with onRead := some handler })
  | none => .error (t.lacks .property name)

/-- The thing with a handler for writes of a property. -/
def onWrite (t : LocalThing ω) (name : String) (handler : Handler ω Json Json) :
    Except UnknownAffordance (LocalThing ω) :=
  match Dict.get? name t.properties with
  | some p => .ok (t.setProperty name { p with onWrite := some handler })
  | none => .error (t.lacks .property name)

/-- The thing with a handler for an action. -/
def onInvoke (t : LocalThing ω) (name : String) (handler : ActionHandler ω) :
    Except UnknownAffordance (LocalThing ω) :=
  match Dict.get? name t.actions with
  | some _ => .ok { t with actions := t.actions.insert name (some handler) }
  | none => .error (t.lacks .action name)

/-! ## Properties -/

/-- Reading a property by its name. -/
def readProperty (t : LocalThing ω) (name : String) (w : ω) :
    Except LocalError Json × LocalThing ω × ω :=
  match Dict.get? name t.properties with
  | none => (.error (.unknown (t.lacks .property name)), t, w)
  | some p =>
    let (result, p, w) := p.read w
    (result, t.setProperty name p, w)

/-- Writing a property by its name; the result is the value that was committed. -/
def writeProperty (t : LocalThing ω) (name : String) (v : Json) (w : ω) :
    Except LocalError Json × LocalThing ω × ω :=
  match Dict.get? name t.properties with
  | none => (.error (.unknown (t.lacks .property name)), t, w)
  | some p =>
    let (result, p, w) := p.write v w
    (result, t.setProperty name p, w)

/-- Reading properties one after the other; of a name that is repeated the last result is kept. -/
def readProperties (t : LocalThing ω) (w : ω) :
    List String → Dict (Except LocalError Json) → Dict (Except LocalError Json) × LocalThing ω × ω
  | [], results => (results, t, w)
  | name :: rest, results =>
    let (result, t, w) := t.readProperty name w
    t.readProperties w rest (results.insert name result)

/-- Reading all properties. -/
def readAllProperties (t : LocalThing ω) (w : ω) :
    Dict (Except LocalError Json) × LocalThing ω × ω :=
  t.readProperties w (Dict.keys t.properties) []

/-- Writing properties one after the other; a failure concerns its own property only. -/
def writeProperties (t : LocalThing ω) (w : ω) :
    List (String × Json) → Dict (Except LocalError Json) →
      Dict (Except LocalError Json) × LocalThing ω × ω
  | [], results => (results, t, w)
  | (name, v) :: rest, results =>
    let (result, t, w) := t.writeProperty name v w
    t.writeProperties w rest (results.insert name result)

/-! ## Actions -/

/-- Invoking an action. Without a handler, or when the handler has no output, the result is `null`. -/
def invokeAction (t : LocalThing ω) (name : String) (input : Json) (options : InteractionOptions)
    (w : ω) : Except LocalError Json × ω :=
  match Dict.get? name t.actions with
  | none => (.error (.unknown (t.lacks .action name)), w)
  | some none => (.ok .null, w)
  | some (some handler) =>
    let (outcome, w) := handler (input, options) w
    match outcome.toExcept with
    | .ok output => (.ok (output.getD .null), w)
    | .error e => (.error e, w)

/-! ## Notifications -/

/-- The channel of a source. -/
def channel (t : LocalThing ω) : NotificationSource → Except UnknownAffordance (Channel Json)
  | .property name =>
    match Dict.get? name t.properties with
    | some p => .ok p.channel
    | none => .error (t.lacks .property name)
  | .event name =>
    match Dict.get? name t.events with
    | some c => .ok c
    | none => .error (t.lacks .event name)

/-- The thing with another state of the channel of a source. -/
def setChannel (t : LocalThing ω) (source : NotificationSource) (c : Channel Json) : LocalThing ω :=
  match source with
  | .property name =>
    match Dict.get? name t.properties with
    | some p => t.setProperty name { p with channel := c }
    | none => t
  | .event name => { t with events := t.events.insert name c }

/-- Emitting an event; the result is the number of subscribers that it reaches. -/
def emitEvent (t : LocalThing ω) (name : String) (data : Json) :
    Except UnknownAffordance (Nat × LocalThing ω) :=
  match t.channel (.event name) with
  | .ok c => .ok (c.subscribers, t.setChannel (.event name) (c.send data))
  | .error e => .error e

/-- A new subscription to a source. -/
def subscribe (t : LocalThing ω) (source : NotificationSource) :
    Except UnknownAffordance (Nat × LocalThing ω) :=
  match t.channel source with
  | .ok c => .ok (c.subscribe.1, t.setChannel source c.subscribe.2)
  | .error e => .error e

/-- What a subscription delivers without waiting. -/
def receive (t : LocalThing ω) (source : NotificationSource) (id : Nat) : List Json × LocalThing ω :=
  match t.channel source with
  | .ok c => ((c.read id).1, t.setChannel source (c.read id).2)
  | .error _ => ([], t)

/-- What a subscription delivers next without waiting. -/
def receiveNext (t : LocalThing ω) (source : NotificationSource) (id : Nat) :
    Option Json × LocalThing ω :=
  match t.channel source with
  | .ok c => ((c.readNext id).1, t.setChannel source (c.readNext id).2)
  | .error _ => (none, t)

/-- The thing without a subscription. -/
def unsubscribe (t : LocalThing ω) (source : NotificationSource) (id : Nat) : LocalThing ω :=
  match t.channel source with
  | .ok c => t.setChannel source (c.unsubscribe id)
  | .error _ => t

end LocalThing
end WebOfThings
