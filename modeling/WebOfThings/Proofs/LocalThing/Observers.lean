import WebOfThings.Proofs.LocalThing.Notifications

/-!
# What observers know

An observer takes a property to have the value that it was told last, and the initial value as long as it
was told nothing (`believed`). A committed value is told, unless it equals the stored one; a value with
which a handler serves a read is stored as well, but told to nobody. So a property may come to hold a value
that its observers do not know of (`served_untold`), and what is committed then is compared with that value.

How much an observer knows is settled by the last value that was stored: it believes in the stored value
except after a read was served with another value than the one it believed in, up to the next commitment of
a new value (`believed_iff` for the events of a property, `observer_believes_iff` for every run of a thing).

The doc of `observe_property` promises the values that are stored into the property from now on, and the
sibling of reading, writing, sends what it stores. Reading stores without sending. The difference is
described by one predicate (`ServedLast`): the last thing that happened to the stored value is that a read
was served with it. `served_untold` is a run that ends there, with an observer who has read everything that
was sent.
-/

namespace WebOfThings

variable {ω : Type}

/-! ## Beliefs and events -/

namespace PropertyEvent

/-- The value that an observer takes a property to have that had an initial value: the last one it was told. -/
def believed (initial : Json) (told : List Json) : Json := told.getLast?.getD initial

/-- The last value to be stored is one that served a read, after some earlier events: nothing has been served
since, and nothing committed that differs from it. -/
def ServedLast (events before : List PropertyEvent) (u : Json) : Prop :=
  ∃ after, events = before ++ .served u :: after ∧ changes u after = [] ∧ ∀ x, .served x ∉ after

theorem believed_append_singleton (initial : Json) (told : List Json) (u : Json) :
    believed initial (told ++ [u]) = u := by
  rw [believed, List.getLast?_concat, Option.getD_some]

/-- Without a change and without a served read the value stays. -/
theorem valueAfter_of_changes_eq_nil {v : Json} {events : List PropertyEvent} (h : changes v events = [])
    (hserved : ∀ x, .served x ∉ events) : valueAfter v events = v := by
  induction events with
  | nil => rfl
  | cons e rest ih =>
    cases e with
    | served u => exact absurd (List.mem_cons_self ..) (hserved u)
    | committed u =>
      rw [changes] at h
      by_cases heq : (v == u) = true
      · rw [if_pos heq] at h
        rw [valueAfter, if_pos heq]
        exact ih h fun x hx => hserved x (List.mem_cons_of_mem _ hx)
      · rw [if_neg heq] at h
        cases h

section

variable {u : Json} {events before : List PropertyEvent}

theorem ServedLast.valueAfter_eq (h : ServedLast events before u) (v : Json) :
    valueAfter v events = u := by
  obtain ⟨after, rfl, hchanges, hserved⟩ := h
  rw [valueAfter_append]
  exact valueAfter_of_changes_eq_nil hchanges hserved

/-- Nothing has been told since. -/
theorem ServedLast.changes_eq (h : ServedLast events before u) (v : Json) :
    changes v events = changes v before := by
  obtain ⟨after, rfl, hchanges, -⟩ := h
  rw [changes_append, changes, hchanges, List.append_nil]

/-- A commitment of the stored value leaves open whether that was served. -/
theorem ServedLast.append_committed (h : ServedLast events before u) {x : Json} (hx : (u == x) = true) :
    ServedLast (events ++ [.committed x]) before u := by
  obtain ⟨after, rfl, hchanges, hserved⟩ := h
  refine ⟨after ++ [.committed x], by simp, ?_, ?_⟩
  · rw [changes_append, hchanges, valueAfter_of_changes_eq_nil hchanges hserved]
    simp [changes, hx]
  · intro y hy
    rcases List.mem_append.1 hy with hy | hy
    · exact hserved y hy
    · cases List.mem_singleton.1 hy

end

/-- The stored value is the one that was told last, or one that has served a read. -/
theorem valueAfter_eq_believed_or_servedLast (v : Json) (events : List PropertyEvent) :
    valueAfter v events = believed v (changes v events) ∨ ∃ before u, ServedLast events before u := by
  -- By the last event: a served read is the second case, a new value the first, and an old one changes neither.
  induction events using List.reverseRecOn with
  | nil => exact .inl rfl
  | append_singleton events e ih =>
    cases e with
    | served u => exact .inr ⟨events, u, [], rfl, rfl, fun _ => List.not_mem_nil⟩
    | committed x =>
      by_cases heq : (valueAfter v events == x) = true
      · rcases ih with ih | ⟨before, u, hlast⟩
        · left
          rw [valueAfter_append, changes_append]
          simpa [valueAfter, changes, heq] using ih
        · exact .inr ⟨before, u, hlast.append_committed (hlast.valueAfter_eq v ▸ heq)⟩
      · left
        rw [valueAfter_append, changes_append]
        simp only [valueAfter, changes, if_neg heq]
        exact (believed_append_singleton ..).symm

/-- Who is told all changes believes in the stored value, unless that served a read and differs from what was
believed before. -/
theorem believed_iff (v : Json) (events : List PropertyEvent) :
    (believed v (changes v events) == valueAfter v events) = true ↔
      ∀ before u, ServedLast events before u → (believed v (changes v before) == u) = true := by
  constructor
  · intro hbelieved before u hlast
    rwa [hlast.valueAfter_eq v, hlast.changes_eq v] at hbelieved
  · intro hserved
    rcases valueAfter_eq_believed_or_servedLast v events with hvalue | ⟨before, u, hlast⟩
    · rw [hvalue]
      exact Json.eqv_refl _
    · rw [hlast.valueAfter_eq v, hlast.changes_eq v]
      exact hserved before u hlast

end PropertyEvent

/-! ## Subscribers that keep up -/

namespace ChannelStep

variable {α : Type}

/-- The values that some steps send. -/
def values (steps : List (ChannelStep α)) : List α :=
  steps.filterMap fun
    | .send v => some v
    | _ => none

/-- Who does not go sees everything that is sent. -/
theorem entries_view {id : Nat} {steps : List (ChannelStep α)} (hstays : .unsubscribe id ∉ steps) :
    Notice.entries (view id steps) = values steps := by
  induction steps with
  | nil => rfl
  | cons s rest ih =>
    obtain ⟨hs, hrest⟩ := not_or.1 fun hor => hstays (List.mem_cons.2 hor)
    cases s with
    | send v => exact congrArg (v :: ·) (ih hrest)
    | subscribe => exact ih hrest
    | readNext i =>
      rw [view]
      split <;> exact ih hrest
    | unsubscribe i =>
      rw [view, if_neg fun hi => hs (by rw [hi])]
      exact ih hrest

end ChannelStep

namespace Channel

variable {α : Type}

/-- What has been sent after some steps is what was sent before and what they send. -/
theorem sent_run (c : Channel α) (steps : List (ChannelStep α)) :
    (c.run steps).sent = c.sent ++ ChannelStep.values steps := by
  induction steps generalizing c with
  | nil => exact (List.append_nil _).symm
  | cons s rest ih =>
    rw [run_cons, ih]
    cases s with
    | send v => simp [after, send, ChannelStep.values]
    | _ => rfl

/-- There has always been room for what a subscriber has not read. -/
def KeepsUp (capacity id : Nat) (steps : List (ChannelStep α)) : Prop :=
  ∀ seen u, seen <+: steps → ((create capacity).run seen).HasUnread id u → u.length ≤ roomFor capacity

/-- Who is sent no more than there is room for keeps up. -/
theorem keepsUp_of_length_le {capacity : Nat} {steps : List (ChannelStep α)}
    (h : (ChannelStep.values steps).length ≤ roomFor capacity) (id : Nat) : KeepsUp capacity id steps := by
  intro seen u hseen hu
  have hsent := sent_run (create capacity) seen
  have hends := hsent ▸ hu.ends
  exact (hends.length_le.trans (hseen.filterMap _).length_le).trans h

/-- Who subscribes first, keeps up and does not go has received or still has to read everything that is sent. -/
theorem KeepsUp.received_append_unread {capacity : Nat} {steps : List (ChannelStep α)}
    (h : KeepsUp capacity 0 (.subscribe :: steps)) (hstays : .unsubscribe 0 ∉ steps) :
    ∃ u, ((create capacity).run (.subscribe :: steps)).HasUnread 0 u ∧
      (create capacity).received 0 (.subscribe :: steps) ++ u = ChannelStep.values steps := by
  obtain ⟨-, hall⟩ := (served capacity (.subscribe :: steps)).complete [] steps rfl fun seen u hseen hu =>
    h (.subscribe :: seen) u ((List.prefix_cons_inj _).2 hseen) hu
  obtain ⟨u, hu, heq⟩ := hall hstays
  exact ⟨u, hu, heq.trans (ChannelStep.entries_view hstays)⟩

end Channel

/-! ## Observers of a thing -/

namespace LocalThing

/-- The events of a property in an activity. -/
def eventsBy (name : String) (a : Activity ω) (t : LocalThing ω) (w : ω) : List PropertyEvent :=
  match a with
  | .operation op s => eventsOf name (s.order (accesses op t)) t w
  | .receiveNext _ _ => []

/-- The events of a property along some activities. -/
def eventsAlong (name : String) : List (Activity ω) → LocalThing ω → ω → List PropertyEvent
  | [], _, _ => []
  | a :: rest, t, w => eventsBy name a t w ++ eventsAlong name rest (act a t w).1 (act a t w).2

/-- One activity changes the stored value and sends values as its events say. -/
theorem Holds.act {t : LocalThing ω} {name : String} {v : Json} {sent : List Json}
    (h : t.Holds name v sent) (a : Activity ω) (w : ω) :
    (act a t w).1.Holds name (PropertyEvent.valueAfter v (eventsBy name a t w))
      (sent ++ PropertyEvent.changes v (eventsBy name a t w)) := by
  obtain ⟨onRead, onWrite, hstands⟩ := h.exists_stands
  cases a with
  | operation op s => exact (hstands.apply s op w).holds
  | receiveNext source id =>
    rw [eventsBy, PropertyEvent.changes, List.append_nil]
    show (t.receiveNext source id).2.Holds name v sent
    rw [receiveNext]
    cases hc : t.channel source with
    | error e => exact h
    | ok c =>
      have hnext : (t.setChannel source (c.readNext id).2).Stands name v sent onRead onWrite :=
        hstands.setChannel hc fun _ _ => rfl
      exact hnext.holds

/-- So do some activities. -/
theorem Holds.actAll {name : String} (activities : List (Activity ω)) {t : LocalThing ω} {v : Json}
    {sent : List Json} (h : t.Holds name v sent) (w : ω) :
    (actAll activities t w).1.Holds name (PropertyEvent.valueAfter v (eventsAlong name activities t w))
      (sent ++ PropertyEvent.changes v (eventsAlong name activities t w)) := by
  induction activities generalizing t v sent w with
  | nil => simpa [LocalThing.actAll, eventsAlong, PropertyEvent.valueAfter, PropertyEvent.changes] using h
  | cons a rest ih =>
    have hrest := ih (h.act a w) (LocalThing.act a t w).2
    rwa [← PropertyEvent.valueAfter_append, List.append_assoc, ← PropertyEvent.changes_append] at hrest

/-- A property has its initial value at first, and nothing has been sent. -/
theorem holds_create {thing : Thing} {name : String} {p : PropertyAffordance}
    (hp : Dict.get? name thing.properties = some p) (capacity : Nat) :
    (create thing capacity : LocalThing ω).Holds name p.schema.initial [] := by
  refine ⟨{ value := p.schema.initial, channel := .create capacity }, ?_, rfl, rfl⟩
  rw [create, Dict.get?_mapValues, hp]
  rfl

/-- A subscriber goes by its own unsubscription only. -/
theorem exists_of_unsubscribe_mem {source : NotificationSource} {id : Nat} {a : Activity ω}
    {t : LocalThing ω} {w : ω} (h : .unsubscribe id ∈ channelSteps source a t w) :
    ∃ s, a = .operation (.unsubscribe source id) s := by
  -- Whatever accesses put on a channel, they only send.
  have hsends : ∀ accesses, .unsubscribe id ∉ sentBy source accesses t w := by
    intro accesses hmem
    cases source with
    | event n => cases hmem
    | property n =>
      rw [sentBy] at hmem
      cases hp : Dict.get? n t.properties with
      | none => simp [hp] at hmem
      | some p => simp [hp, ChannelStep.sends] at hmem
  cases a with
  | receiveNext s i =>
    rw [channelSteps] at h
    split at h <;> simp at h
  | operation op s =>
    cases op with
    | unsubscribe source' i =>
      rw [channelSteps] at h
      split at h
      · next hsource =>
        rw [List.mem_singleton, ChannelStep.unsubscribe.injEq] at h
        exact ⟨s, by rw [hsource, h]⟩
      · cases h
    | emitEvent n data =>
      rw [channelSteps] at h
      split at h <;> simp at h
    | subscribe source' =>
      rw [channelSteps] at h
      split at h <;> simp at h
    | receive source' i =>
      rw [channelSteps] at h
      split at h
      · cases hc : t.channel source with
        | error e => simp [hc] at h
        | ok c => simp [hc, Channel.readings] at h
      · cases h
    | _ => exact absurd h (hsends _)

/-- Who is not unsubscribed stays. -/
theorem unsubscribe_not_mem {source : NotificationSource} {id : Nat} {activities : List (Activity ω)}
    (h : ∀ s, .operation (.unsubscribe source id) s ∉ activities) (t : LocalThing ω) (w : ω) :
    .unsubscribe id ∉ channelStepsAll source activities t w := by
  induction activities generalizing t w with
  | nil => exact List.not_mem_nil
  | cons a rest ih =>
    intro hmem
    rcases List.mem_append.1 hmem with hmem | hmem
    · obtain ⟨s, rfl⟩ := exists_of_unsubscribe_mem hmem
      exact h s (List.mem_cons_self ..)
    · exact ih (fun s hs => h s (List.mem_cons_of_mem _ hs)) _ _ hmem

/-- A property that is described has a channel, on which nothing has been sent at first. -/
theorem channel_of_property {thing : Thing} {name : String} {p : PropertyAffordance}
    (hp : Dict.get? name thing.properties = some p) (capacity : Nat) :
    (create thing capacity : LocalThing ω).channel (.property name) = .ok (.create capacity) := by
  obtain ⟨q, hq, -⟩ := holds_create (ω := ω) hp capacity
  have hc := channel_property_iff.2 ⟨q, hq, rfl⟩
  rwa [channel_create hc] at hc

/-- A subscriber of a new channel that keeps up and does not go has received or still has to read everything
that is sent. -/
theorem deliveries_append_unread {t : LocalThing ω} {source : NotificationSource} {capacity : Nat}
    (hc : t.channel source = .ok (.create capacity)) (s : Schedule) (activities : List (Activity ω)) (w : ω)
    (hstays : ∀ s', .operation (.unsubscribe source 0) s' ∉ activities)
    (hkeeps : Channel.KeepsUp capacity 0
      (channelStepsAll source (.operation (.subscribe source) s :: activities) t w)) :
    let observed := .operation (.subscribe source) s :: activities
    ∃ c unread, (actAll observed t w).1.channel source = .ok c ∧ c.HasUnread 0 unread ∧
      deliveries source 0 observed t w ++ unread = c.sent := by
  intro observed
  have hsteps : channelStepsAll source observed t w = .subscribe ::
      channelStepsAll source activities (act (.operation (.subscribe source) s) t w).1
        (act (.operation (.subscribe source) s) t w).2 := by
    simp only [observed, channelStepsAll, channelSteps, if_pos, List.singleton_append]
  rw [hsteps] at hkeeps
  obtain ⟨unread, hunread, hreceived⟩ :=
    hkeeps.received_append_unread (unsubscribe_not_mem hstays _ _)
  refine ⟨_, unread, channel_actAll hc observed w, hsteps ▸ hunread, ?_⟩
  rw [deliveries_eq hc, hsteps, hreceived, Channel.sent_run]
  rfl

/-- Whatever is done with a thing, with whatever handlers, an observer of a property that is there from the
start and keeps up is told what the commitments change, and nothing else. It believes in the stored value at
the end if and only if that value is not one that has served a read and that differs from what the observer
was told before. -/
theorem observer_believes_iff (thing : Thing) (capacity : Nat) {name : String} {p : PropertyAffordance}
    (hp : Dict.get? name thing.properties = some p) (s : Schedule) (activities : List (Activity ω)) (w : ω)
    (hstays : ∀ s', .operation (.unsubscribe (.property name) 0) s' ∉ activities)
    (hkeeps : Channel.KeepsUp capacity 0
      (channelStepsAll (.property name) (.operation (.subscribe (.property name)) s :: activities)
        (create thing capacity) w)) :
    let observed := .operation (.subscribe (.property name)) s :: activities
    let told := deliveries (.property name) 0 observed (create thing capacity) w
    let events := eventsAlong name observed (create thing capacity) w
    ∃ stored c unread, (actAll observed (create thing capacity) w).1.Carries name stored c ∧
      c.HasUnread 0 unread ∧
      told ++ unread = PropertyEvent.changes p.schema.initial events ∧
      ((PropertyEvent.believed p.schema.initial (told ++ unread) == stored) = true ↔
        ∀ before u, PropertyEvent.ServedLast events before u →
          (PropertyEvent.believed p.schema.initial (PropertyEvent.changes p.schema.initial before) == u) =
            true) := by
  intro observed told events
  obtain ⟨state, hstate, hvalue, hsent⟩ :=
    Holds.actAll observed (holds_create (ω := ω) hp capacity) w
  obtain ⟨c, unread, hchannel, hunread, hall⟩ :=
    deliveries_append_unread (channel_of_property hp capacity) s activities w hstays hkeeps
  obtain ⟨q, hq, rfl⟩ := channel_property_iff.1 hchannel
  obtain rfl : q = state := Option.some_inj.1 (hq.symm.trans hstate)
  -- All that has been sent is what the commitments have changed.
  have htold : told ++ unread = PropertyEvent.changes p.schema.initial events := hall.trans hsent
  refine ⟨_, _, unread, ⟨q, hq, hvalue, rfl⟩, hunread, htold, ?_⟩
  rw [htold]
  exact PropertyEvent.believed_iff _ _

/-- A tank with a level. -/
def tank : Thing where
  id := "urn:tank"
  properties := [("level", {})]

/-- A level that is always the same. -/
def constantly (v : Json) : Handler Unit Unit Json := fun _ w => (.done v, w)

/-- The level is read with another value than the one that has been written, which then is written again. -/
def refilled : List (Activity Unit) :=
  [.operation (.writeProperty "level" (.bool true)) .listed,
   .operation (.onRead "level" (constantly (.bool false))) .listed,
   .operation (.readProperty "level") .listed,
   .operation (.receive (.property "level") 0) .listed,
   .operation (.writeProperty "level" (.bool true)) .listed]

/-- The observer is told the same value twice, and believes in it rightly in the end. -/
theorem observer_believes_iff_tank :
    let observed := .operation (.subscribe (.property "level")) .listed :: refilled
    Dict.get? "level" tank.properties = some {} ∧
      (∀ s, .operation (.unsubscribe (.property "level") 0) s ∉ refilled) ∧
      Channel.KeepsUp defaultCapacity 0
        (channelStepsAll (.property "level") observed (create tank) ()) ∧
      ∃ stored c unread, (actAll observed (create tank) ()).1.Carries "level" stored c ∧
        c.HasUnread 0 unread ∧
        deliveries (.property "level") 0 observed (create tank) () ++ unread = [.bool true, .bool true] ∧
        ((Json.bool true) == stored) = true := by
  intro observed
  have hp : Dict.get? "level" tank.properties = some {} := rfl
  have hstays : ∀ s, .operation (.unsubscribe (.property "level") 0) s ∉ refilled := by
    simp [refilled]
  have hkeeps : Channel.KeepsUp defaultCapacity 0
      (channelStepsAll (.property "level") observed (create tank) ()) :=
    Channel.keepsUp_of_length_le (by decide) 0
  obtain ⟨stored, c, unread, hcarries, hunread, htold, hbelieves⟩ :=
    observer_believes_iff tank defaultCapacity hp .listed refilled () hstays hkeeps
  refine ⟨hp, hstays, hkeeps, stored, c, unread, hcarries, hunread, htold, ?_⟩
  rw [htold] at hbelieves
  refine hbelieves.2 ?_
  -- The only value that is served is not the last one to be stored.
  rintro before u ⟨after, heq, hchanges, -⟩
  have hevents : [.committed (.bool true), .served (.bool false), .committed (.bool true)] =
      before ++ .served u :: after := heq
  rcases before with _ | ⟨_, _ | ⟨_, _ | ⟨_, _⟩⟩⟩ <;> simp at hevents
  obtain ⟨-, rfl, rfl⟩ := hevents
  cases hchanges

/-- An observer that keeps up is told nothing of a value that a handler supplies, though it is stored. -/
theorem served_untold :
    let observed : List (Activity Unit) :=
      [.operation (.subscribe (.property "level")) .listed,
       .operation (.onRead "level" (constantly (.bool true))) .listed,
       .operation (.readProperty "level") .listed,
       .operation (.receive (.property "level") 0) .listed]
    Channel.KeepsUp defaultCapacity 0
        (channelStepsAll (.property "level") observed (create tank) ()) ∧
      deliveries (.property "level") 0 observed (create tank) () = [] ∧
      ∃ p, Dict.get? "level" (actAll observed (create tank) ()).1.properties = some p ∧
        p.channel.HasUnread 0 [] ∧ p.value = .bool true ∧
        (Json.bool true == (PropertyAffordance.schema {}).initial) = false := by
  refine ⟨Channel.keepsUp_of_length_le (by decide) 0, rfl, _, rfl, ⟨List.nil_suffix, rfl⟩, rfl, rfl⟩

end LocalThing
end WebOfThings
