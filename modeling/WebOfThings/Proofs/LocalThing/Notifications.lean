import WebOfThings.Proofs.Channel.Delivery
import WebOfThings.Proofs.LocalThing.Run

/-!
# Notifications of a local thing

Whatever is done with a thing, by whom and in which order, every channel of it goes through the steps that
belong to its source (`channel_actAll`): an event is sent when it is emitted, a value of a property when a
write changes it, and subscribers come, read and go. So its subscribers are served as those of any channel,
and emitting an event tells how many of them there are (`notifications`).

`channelSteps` is the whole of what an activity sends: reads send nothing, writes send what they change the
property to, and emitting an event sends its data. So the channels of a thing are independent of each other,
and each of them is a channel with some steps, to which what is known of channels applies. The count of
subscribers that an event reaches is taken before it is sent.
-/

namespace WebOfThings

variable {ω : Type}

/-- What is done with a thing: an operation, or a subscription delivers its next notification. -/
inductive Activity (ω : Type) where
  | operation (op : LocalOperation ω) (s : Schedule)
  | receiveNext (source : NotificationSource) (id : Nat)

/-- The values, as they are sent on a channel. -/
def ChannelStep.sends (values : List Json) : List (ChannelStep Json) := values.map .send

namespace LocalThing

/-- The thing and the world after an activity. -/
def act (a : Activity ω) (t : LocalThing ω) (w : ω) : LocalThing ω × ω :=
  match a with
  | .operation op s => apply s op t w
  | .receiveNext source id => ((t.receiveNext source id).2, w)

/-- The thing and the world after some activities. -/
def actAll : List (Activity ω) → LocalThing ω → ω → LocalThing ω × ω
  | [], t, w => (t, w)
  | a :: rest, t, w => actAll rest (act a t w).1 (act a t w).2

/-- What some accesses send on the channel of a source: the values that they change a property to. -/
def sentBy (source : NotificationSource) (accesses : List Access) (t : LocalThing ω) (w : ω) :
    List (ChannelStep Json) :=
  match source with
  | .property name =>
    match Dict.get? name t.properties with
    | some p => ChannelStep.sends (PropertyEvent.changes p.value (eventsOf name accesses t w))
    | none => []
  | .event _ => []

/-- The steps of an activity on the channel of a source. -/
def channelSteps (source : NotificationSource) (a : Activity ω) (t : LocalThing ω) (w : ω) :
    List (ChannelStep Json) :=
  match a with
  | .receiveNext s id => if s = source then [.readNext id] else []
  | .operation (.emitEvent name data) _ => if .event name = source then [.send data] else []
  | .operation (.subscribe s) _ => if s = source then [.subscribe] else []
  | .operation (.receive s id) _ =>
    if s = source then
      match t.channel source with
      | .ok c => c.readings id
      | .error _ => []
    else []
  | .operation (.unsubscribe s id) _ => if s = source then [.unsubscribe id] else []
  | .operation op s => sentBy source (s.order (accesses op t)) t w

/-- The steps of some activities on the channel of a source. -/
def channelStepsAll (source : NotificationSource) :
    List (Activity ω) → LocalThing ω → ω → List (ChannelStep Json)
  | [], _, _ => []
  | a :: rest, t, w =>
    channelSteps source a t w ++ channelStepsAll source rest (act a t w).1 (act a t w).2

/-! ## Channels after a change of the thing -/

section

variable {t : LocalThing ω} {source other : NotificationSource} {c c' : Channel Json}

/-- The channel of a property is the one in its state. -/
theorem channel_property_iff {name : String} :
    t.channel (.property name) = .ok c ↔
      ∃ p, Dict.get? name t.properties = some p ∧ p.channel = c := by
  rw [channel]
  cases Dict.get? name t.properties <;> simp

/-- The channel of an event is the one in its place. -/
theorem channel_event_iff {name : String} :
    t.channel (.event name) = .ok c ↔ Dict.get? name t.events = some c := by
  rw [channel]
  cases Dict.get? name t.events <;> simp

/-- A property that keeps its channel may change otherwise. -/
theorem channel_setProperty {name : String} {p p' : PropertyState ω}
    (hc : t.channel source = .ok c) (hp : Dict.get? name t.properties = some p)
    (hsame : p'.channel = p.channel) : (t.setProperty name p').channel source = .ok c := by
  cases source with
  | event n => exact hc
  | property n =>
    obtain ⟨q, hq, hqc⟩ := channel_property_iff.1 hc
    rw [channel_property_iff, get?_setProperty]
    by_cases hn : name = n
    · subst hn
      rw [hp] at hq
      cases hq
      exact ⟨p', if_pos rfl, hsame.trans hqc⟩
    · exact ⟨q, by rw [if_neg hn, hq], hqc⟩

theorem channel_setChannel (hc : t.channel source = .ok c) :
    (t.setChannel source c').channel source = .ok c' := by
  cases source with
  | property name =>
    obtain ⟨p, hp, -⟩ := channel_property_iff.1 hc
    rw [setChannel, hp, channel_property_iff, get?_setProperty]
    exact ⟨_, if_pos rfl, rfl⟩
  | event name =>
    rw [setChannel, channel_event_iff, Dict.get?_insert]
    exact if_pos rfl

/-- Setting one channel leaves the others. -/
theorem channel_setChannel_other (hne : other ≠ source) (hc : t.channel source = .ok c) :
    (t.setChannel other c').channel source = .ok c := by
  cases other with
  | property name =>
    rw [setChannel]
    cases hp : Dict.get? name t.properties with
    | none => exact hc
    | some p =>
      cases source with
      | event n => exact hc
      | property n =>
        have hn : name ≠ n := fun he => hne (by rw [he])
        obtain ⟨q, hq, hqc⟩ := channel_property_iff.1 hc
        rw [channel_property_iff, get?_setProperty]
        exact ⟨q, by rw [if_neg hn, hq], hqc⟩
  | event name =>
    cases source with
    | property n => exact hc
    | event n =>
      have hn : name ≠ n := fun he => hne (by rw [he])
      rw [channel_event_iff] at hc
      rw [setChannel, channel_event_iff, Dict.get?_insert, if_neg hn, hc]

end

/-! ## What accesses send -/

/-- A property holds a value and has a channel. -/
def Carries (t : LocalThing ω) (name : String) (v : Json) (c : Channel Json) : Prop :=
  ∃ p, Dict.get? name t.properties = some p ∧ p.value = v ∧ p.channel = c

/-- Values that are sent in two stretches are sent one after the other. -/
theorem run_sends_append (c : Channel Json) (us vs : List Json) :
    c.run (ChannelStep.sends (us ++ vs)) = (c.run (ChannelStep.sends us)).run (ChannelStep.sends vs) := by
  rw [ChannelStep.sends, List.map_append, Channel.run_append]
  rfl

/-- Committing a value sends it if it is another one than before. -/
theorem carries_commit {p : PropertyState ω} (v : Json) :
    (p.commit v).value = PropertyEvent.valueAfter p.value [.committed v] ∧
      (p.commit v).channel =
        p.channel.run (ChannelStep.sends (PropertyEvent.changes p.value [.committed v])) := by
  by_cases heq : (p.value == v) = true
  · simp [PropertyState.commit, PropertyEvent.valueAfter, PropertyEvent.changes, heq, ChannelStep.sends]
  · simp [PropertyState.commit, PropertyEvent.valueAfter, PropertyEvent.changes, heq, ChannelStep.sends,
      Channel.after]

/-- After an access a property has the value that its events leave, and its channel has been sent what they change. -/
theorem Carries.access {t : LocalThing ω} {name : String} {v : Json} {c : Channel Json}
    (h : t.Carries name v c) (a : Access) (w : ω) :
    (access a t w).1.Carries name (PropertyEvent.valueAfter v (eventOf name a t w))
      (c.run (ChannelStep.sends (PropertyEvent.changes v (eventOf name a t w)))) := by
  obtain ⟨p, hp, rfl, rfl⟩ := h
  by_cases ha : a.name = name
  · subst ha
    cases a with
    | read n =>
      -- Serving a read stores a value, and sends nothing.
      refine ⟨_, get?_access_read hp w, ?_⟩
      rw [p.state_of_read w, eventOf, show Dict.get? _ _ = some p from hp]
      simp only [if_true]
      cases p.served? w with
      | none => exact ⟨rfl, rfl⟩
      | some u => exact ⟨rfl, rfl⟩
    | write n u =>
      refine ⟨_, get?_access_write hp u w, ?_⟩
      rw [p.state_of_write u w, eventOf, show Dict.get? _ _ = some p from hp]
      simp only [if_true]
      cases p.committed? u w with
      | none => exact ⟨rfl, rfl⟩
      | some u' => exact carries_commit u'
  · refine ⟨p, ?_, ?_⟩
    · rw [get?_access_of_ne ha, hp]
    · simp [eventOf, hp, ha, PropertyEvent.valueAfter, PropertyEvent.changes, ChannelStep.sends]

/-- So do some accesses. -/
theorem Carries.accessAll {name : String} (accesses : List Access) {t : LocalThing ω} {v : Json}
    {c : Channel Json} (h : t.Carries name v c) (w : ω) :
    (accessAll accesses t w).1.Carries name (PropertyEvent.valueAfter v (eventsOf name accesses t w))
      (c.run (ChannelStep.sends (PropertyEvent.changes v (eventsOf name accesses t w)))) := by
  induction accesses generalizing t v c w with
  | nil => exact h
  | cons a rest ih =>
    have hrest := ih (h.access a w) (LocalThing.access a t w).2
    rwa [← PropertyEvent.valueAfter_append, ← run_sends_append, ← PropertyEvent.changes_append] at hrest

theorem events_access (a : Access) (t : LocalThing ω) (w : ω) : (access a t w).1.events = t.events := by
  cases a with
  | read n =>
    simp only [access, readProperty]
    cases Dict.get? n t.properties <;> rfl
  | write n v =>
    simp only [access, writeProperty]
    cases Dict.get? n t.properties <;> rfl

theorem events_accessAll (accesses : List Access) (t : LocalThing ω) (w : ω) :
    (accessAll accesses t w).1.events = t.events := by
  induction accesses generalizing t w with
  | nil => rfl
  | cons a rest ih => exact (ih _ _).trans (events_access a t w)

/-- Accesses send on a channel the values that they change its property to, and nothing else. -/
theorem channel_accessAll {source : NotificationSource} {t : LocalThing ω} {c : Channel Json}
    (hc : t.channel source = .ok c) (accesses : List Access) (w : ω) :
    (accessAll accesses t w).1.channel source = .ok (c.run (sentBy source accesses t w)) := by
  cases source with
  | event name =>
    rw [channel_event_iff] at hc
    rw [channel_event_iff, events_accessAll, hc]
    rfl
  | property name =>
    obtain ⟨p, hp, rfl⟩ := channel_property_iff.1 hc
    obtain ⟨p', hp', -, hchannel⟩ := Carries.accessAll accesses ⟨p, hp, rfl, rfl⟩ w
    rw [channel_property_iff]
    refine ⟨p', hp', ?_⟩
    rw [hchannel, sentBy, hp]

/-! ## Runs -/

/-- An operation on channels works on the one of its source and leaves the others. -/
theorem channel_of_operation {source s : NotificationSource} {t t' : LocalThing ω} {c : Channel Json}
    (hc : t.channel source = .ok c) {f : Channel Json → Channel Json} {steps : List (ChannelStep Json)}
    (hrun : s = source → f c = c.run steps) (hok : ∀ cs, t.channel s = .ok cs → t' = t.setChannel s (f cs))
    (herror : ∀ e, t.channel s = .error e → t' = t) :
    t'.channel source = .ok (c.run (if s = source then steps else [])) := by
  by_cases hs : s = source
  · subst hs
    rw [if_pos rfl, hok c hc, channel_setChannel hc, hrun rfl]
  · rw [if_neg hs]
    cases hcs : t.channel s with
    | ok cs =>
      rw [hok cs hcs]
      exact channel_setChannel_other hs hc
    | error e =>
      rw [herror e hcs]
      exact hc

/-- Without an access nothing is sent. -/
theorem run_sentBy_nil {source : NotificationSource} {t : LocalThing ω} {c : Channel Json}
    (hc : t.channel source = .ok c) (w : ω) : c.run (sentBy source [] t w) = c := by
  cases source with
  | event n => rfl
  | property n =>
    obtain ⟨p, hp, -⟩ := channel_property_iff.1 hc
    simp [sentBy, hp, eventsOf, PropertyEvent.changes, ChannelStep.sends]

/-- The channel of a source goes through the steps of an activity. -/
theorem channel_act {source : NotificationSource} {t : LocalThing ω} {c : Channel Json}
    (hc : t.channel source = .ok c) (a : Activity ω) (w : ω) :
    (act a t w).1.channel source = .ok (c.run (channelSteps source a t w)) := by
  cases a with
  | receiveNext s id =>
    refine channel_of_operation hc (f := fun c => (c.readNext id).2) (fun _ => rfl) (fun cs hcs => ?_)
      fun e he => ?_
    · simp only [act, receiveNext, hcs]
    · simp only [act, receiveNext, he]
  | operation op s =>
    cases op with
    -- Accesses send what they change, in the order in which they take place.
    | readProperty n =>
      show _ = Except.ok (c.run (sentBy source (s.order [.read n]) t w))
      rw [s.order_singleton]
      exact channel_accessAll hc [.read n] w
    | writeProperty n u =>
      show _ = Except.ok (c.run (sentBy source (s.order [.write n u]) t w))
      rw [s.order_singleton]
      exact channel_accessAll hc [.write n u] w
    | readProperties names => exact channel_accessAll hc _ w
    | readAllProperties => exact channel_accessAll hc _ w
    | writeProperties values => exact channel_accessAll hc _ w
    -- Handlers and actions have nothing to do with channels.
    | onRead n handler =>
      show _ = Except.ok (c.run (sentBy source (s.order []) t w))
      rw [s.order_nil, run_sentBy_nil hc]
      simp only [act, apply, onRead]
      cases hp : Dict.get? n t.properties with
      | none => exact hc
      | some p => exact channel_setProperty hc hp rfl
    | onWrite n handler =>
      show _ = Except.ok (c.run (sentBy source (s.order []) t w))
      rw [s.order_nil, run_sentBy_nil hc]
      simp only [act, apply, onWrite]
      cases hp : Dict.get? n t.properties with
      | none => exact hc
      | some p => exact channel_setProperty hc hp rfl
    | onInvoke n handler =>
      show _ = Except.ok (c.run (sentBy source (s.order []) t w))
      rw [s.order_nil, run_sentBy_nil hc]
      simp only [act, apply, onInvoke]
      cases Dict.get? n t.actions <;> cases source <;> exact hc
    | invokeAction n input options =>
      show _ = Except.ok (c.run (sentBy source (s.order []) t w))
      rw [s.order_nil, run_sentBy_nil hc]
      exact hc
    -- What is left is one step of the channel of its source.
    | emitEvent n data =>
      refine channel_of_operation hc (f := fun c => c.send data) (fun _ => rfl) (fun cs hcs => ?_)
        fun e he => ?_
      · simp only [act, apply, emitEvent, hcs]
        rfl
      · simp only [act, apply, emitEvent, he]
        rfl
    | subscribe source =>
      refine channel_of_operation hc (f := fun c => c.subscribe.2) (fun _ => rfl) (fun cs hcs => ?_)
        fun e he => ?_
      · simp only [act, apply, subscribe, hcs]
        rfl
      · simp only [act, apply, subscribe, he]
        rfl
    | receive other id =>
      refine channel_of_operation hc (f := fun c => (c.read id).2) (fun hs => ?_) (fun cs hcs => ?_)
        fun e he => ?_
      · subst hs
        simp only [hc, Channel.read_eq_readings]
      · simp only [act, apply, receive, hcs]
      · simp only [act, apply, receive, he]
    | unsubscribe source id =>
      refine channel_of_operation hc (f := fun c => c.unsubscribe id) (fun _ => rfl) (fun cs hcs => ?_)
        fun e he => ?_
      · simp only [act, apply, unsubscribe, hcs]
      · simp only [act, apply, unsubscribe, he]

/-- The channel of a source goes through the steps of some activities. -/
theorem channel_actAll {source : NotificationSource} {t : LocalThing ω} {c : Channel Json}
    (hc : t.channel source = .ok c) (activities : List (Activity ω)) (w : ω) :
    (actAll activities t w).1.channel source = .ok (c.run (channelStepsAll source activities t w)) := by
  induction activities generalizing t c w with
  | nil => exact hc
  | cons a rest ih =>
    rw [channelStepsAll, Channel.run_append]
    exact ih (channel_act hc a w) _

/-! ## What subscribers receive -/

/-- What an activity delivers to a subscriber. -/
def deliveredBy (source : NotificationSource) (id : Nat) (a : Activity ω) (t : LocalThing ω) : List Json :=
  match a with
  | .receiveNext s i => if s = source ∧ i = id then (t.receiveNext s i).1.toList else []
  | .operation (.receive s i) _ => if s = source ∧ i = id then (t.receive s i).1 else []
  | _ => []

/-- What a subscriber receives in the course of some activities. -/
def deliveries (source : NotificationSource) (id : Nat) :
    List (Activity ω) → LocalThing ω → ω → List Json
  | [], _, _ => []
  | a :: rest, t, w => deliveredBy source id a t ++ deliveries source id rest (act a t w).1 (act a t w).2

theorem received_sends (id : Nat) (c : Channel Json) (values : List Json) :
    c.received id (ChannelStep.sends values) = [] := by
  induction values generalizing c with
  | nil => rfl
  | cons v rest ih => exact ih (c.send v)

theorem received_sentBy (source : NotificationSource) (id : Nat) (accesses : List Access) (t : LocalThing ω)
    (w : ω) (c : Channel Json) : c.received id (sentBy source accesses t w) = [] := by
  cases source with
  | event n => rfl
  | property n =>
    rw [sentBy]
    cases Dict.get? n t.properties with
    | none => rfl
    | some p => exact received_sends id c _

/-- Nobody receives what another one reads. -/
theorem received_readings_other {i id : Nat} (h : i ≠ id) (c : Channel Json) (count : Nat) :
    c.received id (List.replicate count (.readNext i)) = [] := by
  induction count generalizing c with
  | zero => rfl
  | succ count ih =>
    rw [List.replicate_succ, Channel.received, Channel.delivered, if_neg h]
    exact ih _

/-- An activity delivers what its steps deliver. -/
theorem deliveredBy_eq {source : NotificationSource} {t : LocalThing ω} {c : Channel Json}
    (hc : t.channel source = .ok c) (id : Nat) (a : Activity ω) (w : ω) :
    deliveredBy source id a t = c.received id (channelSteps source a t w) := by
  have hnothing : ∀ (p : Prop) [Decidable p] (s : ChannelStep Json), c.delivered id s = none →
      [] = c.received id (if p then [s] else []) := by
    intro p _ s hs
    split
    · simp [Channel.received, hs]
    · rfl
  -- Only the two ways of reading deliver anything, and only to the subscriber that reads.
  cases a with
  | receiveNext s i =>
    by_cases hs : s = source
    · subst hs
      by_cases hi : i = id
      · simp [deliveredBy, channelSteps, receiveNext, hc, hi, Channel.received, Channel.delivered]
      · simp [deliveredBy, channelSteps, hi, Channel.received, Channel.delivered]
    · simp [deliveredBy, channelSteps, hs, Channel.received]
  | operation op s =>
    cases op with
    | receive s i =>
      by_cases hs : s = source
      · subst hs
        by_cases hi : i = id
        · simp [deliveredBy, channelSteps, receive, hc, hi, Channel.read_eq_readings]
        · simp [deliveredBy, channelSteps, hc, hi, Channel.readings, received_readings_other hi]
      · simp [deliveredBy, channelSteps, hs, Channel.received]
    | emitEvent n data => exact hnothing _ _ rfl
    | subscribe s => exact hnothing _ _ rfl
    | unsubscribe s i => exact hnothing _ _ rfl
    | _ => exact (received_sentBy source id _ t w c).symm

/-- What is delivered in the course of activities is what their steps deliver. -/
theorem deliveries_eq {source : NotificationSource} {t : LocalThing ω} {c : Channel Json}
    (hc : t.channel source = .ok c) (id : Nat) (activities : List (Activity ω)) (w : ω) :
    deliveries source id activities t w = c.received id (channelStepsAll source activities t w) := by
  induction activities generalizing t c w with
  | nil => rfl
  | cons a rest ih =>
    rw [deliveries, channelStepsAll, Channel.received_append, deliveredBy_eq hc id a w,
      ih (channel_act hc a w)]

/-! ## The service of a thing -/

/-- The channels of a thing are empty at first and have the capacity that is asked for. -/
theorem channel_create {thing : Thing} {capacity : Nat} {source : NotificationSource} {c : Channel Json}
    (hc : (create thing capacity : LocalThing ω).channel source = .ok c) : c = .create capacity := by
  cases source with
  | property name =>
    obtain ⟨p, hp, rfl⟩ := channel_property_iff.1 hc
    rw [create, Dict.get?_mapValues] at hp
    obtain ⟨q, -, rfl⟩ := Option.map_eq_some_iff.1 hp
    rfl
  | event name =>
    rw [channel_event_iff, create, Dict.get?_mapValues] at hc
    obtain ⟨e, -, rfl⟩ := Option.map_eq_some_iff.1 hc
    rfl

/-- Emitting an event sends its data and answers with the number of subscribers. -/
theorem emitEvent_eq {t : LocalThing ω} {name : String} {c : Channel Json}
    (hc : t.channel (.event name) = .ok c) (data : Json) :
    t.emitEvent name data = .ok (c.subscribers, t.setChannel (.event name) (c.send data)) := by
  rw [emitEvent, hc]

/-- Whatever is done with a new thing, in any order and by any number of subscribers, the subscribers of each
of its channels are served, from a buffer for the capacity rounded up to a power of two; emitting an event
never fails, and tells how many subscribers have come and not gone. -/
theorem notifications (thing : Thing) (capacity : Nat) (source : NotificationSource) {c : Channel Json}
    (hc : (create thing capacity : LocalThing ω).channel source = .ok c) (activities : List (Activity ω))
    (w : ω) :
    let t := (actAll activities (create thing capacity) w).1
    let steps := channelStepsAll source activities (create thing capacity) w
    t.channel source = .ok ((Channel.create capacity).run steps) ∧
      (∀ id, deliveries source id activities (create thing capacity) w =
        (Channel.create capacity).received id steps) ∧
      Channel.Served capacity steps ∧
      IsLeast {k | max 1 capacity ≤ k ∧ ∃ j, k = 2 ^ j} (roomFor capacity) ∧
      ∀ name data, source = .event name →
        ∃ t', t.emitEvent name data = .ok (Set.ncard {id | ChannelStep.Subscribed id steps}, t') := by
  obtain rfl := channel_create hc
  have hchannel := channel_actAll hc activities w
  refine ⟨hchannel, fun id => deliveries_eq hc id activities w, Channel.served capacity _,
    Channel.roomFor_isLeast capacity, ?_⟩
  rintro name data rfl
  exact ⟨_, (emitEvent_eq hchannel data).trans (by rw [Channel.subscribers_run])⟩

/-- An oven with an event. -/
def oven : Thing where
  id := "urn:oven"
  events := [("overheated", {})]

/-- Two subscribers, the second of which reads nothing for a while, and one of which goes. -/
def overheatings : List (Activity Unit) :=
  [.operation (.subscribe (.event "overheated")) .listed,
   .operation (.emitEvent "overheated" (.bool true)) .listed,
   .operation (.subscribe (.event "overheated")) .listed,
   .receiveNext (.event "overheated") 0,
   .operation (.emitEvent "overheated" .null) .listed,
   .operation (.emitEvent "overheated" (.bool false)) .listed,
   .operation (.receive (.event "overheated") 1) .listed,
   .operation (.unsubscribe (.event "overheated") 0) .listed]

/-- With room for one entry, the first of two is lost. -/
theorem notifications_oven :
    (create oven 1 : LocalThing Unit).channel (.event "overheated") = .ok (.create 1) ∧
      deliveries (.event "overheated") 0 overheatings (create oven 1) () = [.bool true] ∧
      deliveries (.event "overheated") 1 overheatings (create oven 1) () = [.bool false] ∧
      Channel.Served 1 (channelStepsAll (.event "overheated") overheatings (create oven 1) ()) := by
  have hc : (create oven 1 : LocalThing Unit).channel (.event "overheated") = .ok (.create 1) := rfl
  obtain ⟨-, hdelivered, hserved, -⟩ := notifications oven 1 (.event "overheated") hc overheatings ()
  exact ⟨hc, hdelivered 0, hdelivered 1, hserved⟩

end LocalThing
end WebOfThings
