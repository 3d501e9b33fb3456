import Mathlib.Data.Set.Card
import WebOfThings.Channel

/-!
# Delivery on a channel

Steps of many subscribers may follow each other in any order. Of all these steps a subscriber notices only
what is sent after it has subscribed and its own readings (`view`), and what it receives is what it would
receive if it kept everything unread in a mailbox of its own, of which only the last entries can be read
(`Mailbox.received`): `received_eq`. So the others make no difference (`received_filter_concerns`), entries
arrive in order and at most once (`Mailbox.received_sublist`), and all of them arrive as long as the mailbox
does not overflow (`Mailbox.received_append_unread`).

The invariant behind this is `Channel.HasUnread`: the unread entries end what has been sent.

The live state of a property or of an event is such a channel, and a thing with many subscribers is many
views of one channel. The mailbox is the specification: a list that grows when something is sent and loses
its oldest entries where there is no room. It mentions neither the other subscribers nor the counts that the
channel keeps, and the step lemmas of `HasUnread`, one for each kind of step, are where the two are
compared. A run is an induction over its steps, from the moment at which the subscriber comes.

`served` collects what is said of a whole service: who is there, what each of them has received, in which
order, and what is lost. `roomFor_isLeast` is the assumption about the size of a buffer: a power of two that
is just large enough.
-/

namespace WebOfThings

variable {α : Type}

/-! ## Steps on a channel -/

/-- A step on a channel. -/
inductive ChannelStep (α : Type) where
  | send (v : α)
  | subscribe
  | readNext (id : Nat)
  | unsubscribe (id : Nat)

namespace ChannelStep

/-- Whether the step is a subscription. -/
def isSubscription : ChannelStep α → Bool
  | subscribe => true
  | _ => false

/-- How many subscriptions there are, which is the number of the next subscriber. -/
def subscriptions (steps : List (ChannelStep α)) : Nat := steps.countP isSubscription

/-- Whether a step does not belong to another subscriber. -/
def concerns (id : Nat) : ChannelStep α → Bool
  | readNext i | unsubscribe i => i = id
  | _ => true

/-- A subscriber that has been numbered and not gone since. -/
def Subscribed (id : Nat) (steps : List (ChannelStep α)) : Prop :=
  ∃ before after, steps = before ++ subscribe :: after ∧ subscriptions before = id ∧
    unsubscribe id ∉ after

end ChannelStep

open ChannelStep (subscriptions Subscribed)

namespace Channel

/-- The channel after a step. -/
def after (c : Channel α) : ChannelStep α → Channel α
  | .send v => c.send v
  | .subscribe => c.subscribe.2
  | .readNext id => (c.readNext id).2
  | .unsubscribe id => c.unsubscribe id

/-- The channel after some steps. -/
def run (c : Channel α) (steps : List (ChannelStep α)) : Channel α := steps.foldl after c

/-- What a step delivers to a subscriber. -/
def delivered (id : Nat) (c : Channel α) : ChannelStep α → Option α
  | .readNext i => if i = id then (c.readNext i).1 else none
  | _ => none

/-- What a subscriber receives in the course of some steps. -/
def received (id : Nat) (c : Channel α) : List (ChannelStep α) → List α
  | [] => []
  | s :: rest => (c.delivered id s).toList ++ received id (c.after s) rest

@[simp] theorem run_nil (c : Channel α) : c.run [] = c := rfl

@[simp] theorem run_cons (c : Channel α) (s : ChannelStep α) (steps : List (ChannelStep α)) :
    c.run (s :: steps) = (c.after s).run steps := rfl

theorem run_append (c : Channel α) (first second : List (ChannelStep α)) :
    c.run (first ++ second) = (c.run first).run second :=
  List.foldl_append ..

/-- A subscriber receives first what the first part of a run gives it. -/
theorem received_append (id : Nat) (c : Channel α) (first second : List (ChannelStep α)) :
    c.received id (first ++ second) = c.received id first ++ (c.run first).received id second := by
  induction first generalizing c with
  | nil => rfl
  | cons s rest ih => rw [List.cons_append, received, received, ih, run_cons, List.append_assoc]

/-- A step leaves the room of a channel as it is. -/
theorem room_after (c : Channel α) (s : ChannelStep α) : (c.after s).room = c.room := by
  cases s <;> rfl

/-- So does a run. -/
theorem room_run (c : Channel α) (steps : List (ChannelStep α)) : (c.run steps).room = c.room := by
  induction steps generalizing c with
  | nil => rfl
  | cons s rest ih => rw [run_cons, ih, room_after]

theorem next_after (c : Channel α) (s : ChannelStep α) :
    (c.after s).next = c.next + subscriptions [s] := by
  cases s <;> rfl

/-- The subscriptions of some steps are those of the first and those of the rest. -/
theorem subscriptions_cons (s : ChannelStep α) (rest : List (ChannelStep α)) :
    subscriptions (s :: rest) = subscriptions [s] + subscriptions rest :=
  @List.countP_append _ _ [s] rest

/-- As many numbers are taken as there are subscriptions. -/
theorem next_run (c : Channel α) (steps : List (ChannelStep α)) :
    (c.run steps).next = c.next + subscriptions steps := by
  induction steps generalizing c with
  | nil => rfl
  | cons s rest ih =>
    have hcount := subscriptions_cons s rest
    rw [run_cons, ih, next_after, hcount, Nat.add_assoc]

end Channel

/-! ## A subscriber with its mailbox -/

/-- What a subscriber notices: an entry is sent, or it reads itself. -/
inductive Notice (α : Type) where
  | sent (v : α)
  | reading

/-- What a subscriber notices of some steps, as long as it is there. -/
def ChannelStep.view (id : Nat) : List (ChannelStep α) → List (Notice α)
  | [] => []
  | .send v :: rest => .sent v :: view id rest
  | .subscribe :: rest => view id rest
  | .readNext i :: rest => if i = id then .reading :: view id rest else view id rest
  | .unsubscribe i :: rest => if i = id then [] else view id rest

/-- The entries that are sent before the eyes of a subscriber. -/
def Notice.entries (notices : List (Notice α)) : List α :=
  notices.filterMap fun
    | .sent v => some v
    | .reading => none

open ChannelStep (view)
open Notice (entries)
open Channel (keep)

namespace Mailbox

/-- What a subscriber receives that has some entries unread: every reading loses the entries for which there
is no room, and delivers the oldest of the others. -/
def received (room : Nat) : List α → List (Notice α) → List α
  | _, [] => []
  | unread, .sent v :: rest => received room (unread ++ [v]) rest
  | unread, .reading :: rest =>
    (keep room unread).head?.toList ++ received room (keep room unread).tail rest

/-- The entries that are unread in the end. -/
def unread (room : Nat) : List α → List (Notice α) → List α
  | u, [] => u
  | u, .sent v :: rest => unread room (u ++ [v]) rest
  | u, .reading :: rest => unread room (keep room u).tail rest

theorem head?_append_tail (l : List α) : l.head?.toList ++ l.tail = l := by
  cases l <;> rfl

/-- What is received and what is unread in the end comes in the order in which it was sent, nothing of it
twice. -/
theorem received_append_unread_sublist (room : Nat) (u : List α) (notices : List (Notice α)) :
    (received room u notices ++ unread room u notices).Sublist (u ++ entries notices) := by
  induction notices generalizing u with
  | nil => simp [received, unread, entries]
  | cons n rest ih =>
    cases n with
    | sent v => simpa [received, unread, entries] using ih (u ++ [v])
    | reading =>
      -- A reading moves the oldest entry for which there is room from what is unread to what is received.
      have hrest := (ih (keep room u).tail).append_left (keep room u).head?.toList
      rw [← List.append_assoc, ← List.append_assoc, head?_append_tail] at hrest
      refine hrest.trans ?_
      exact (Channel.keep_suffix room u).sublist.append_right (entries rest)

theorem received_sublist (room : Nat) (u : List α) (notices : List (Notice α)) :
    (received room u notices).Sublist (u ++ entries notices) :=
  (List.sublist_append_left _ _).trans (received_append_unread_sublist room u notices)

/-- Nothing is lost as long as there is room for what is unread. -/
theorem received_append_unread {room : Nat} {u : List α} {notices : List (Notice α)}
    (h : ∀ seen, seen <+: notices → (unread room u seen).length ≤ room) :
    received room u notices ++ unread room u notices = u ++ entries notices := by
  induction notices generalizing u with
  | nil => simp [received, unread, entries]
  | cons n rest ih =>
    have hrest : ∀ seen, seen <+: rest → (unread room u (n :: seen)).length ≤ room := fun seen hseen =>
      h (n :: seen) ((List.prefix_cons_inj n).2 hseen)
    cases n with
    | sent v => simpa [received, unread, entries] using ih (u := u ++ [v]) hrest
    | reading =>
      have hkeep : keep room u = u := Channel.keep_of_length_le (h [] (List.nil_prefix ..))
      have hih := ih (u := (keep room u).tail) hrest
      rw [received, unread, List.append_assoc, hih, ← List.append_assoc, head?_append_tail, hkeep]
      rfl

end Mailbox

/-! ## What a channel keeps of a subscriber -/

namespace Channel

/-- A subscriber is there, and these entries, with which the sent ones end, are unread. -/
structure HasUnread (c : Channel α) (id : Nat) (u : List α) : Prop where
  ends : u <:+ c.sent
  count : c.unread.find? (fun e => e.1 = id) = some (id, u.length)

/-- Subscribers are numbered in the order in which they come. -/
def Numbered (c : Channel α) : Prop :=
  (c.unread.map Prod.fst).Nodup ∧ ∀ id ∈ c.unread.map Prod.fst, id < c.next

section

variable {c : Channel α} {id : Nat} {u : List α}

theorem HasUnread.queue? (h : c.HasUnread id u) : c.queue? id = some (keep c.room u) := by
  rw [Channel.queue?, h.count, Option.map_some, keep_length_of_suffix h.ends]

/-- What is sent is unread at first. -/
theorem HasUnread.send (h : c.HasUnread id u) (v : α) : (c.send v).HasUnread id (u ++ [v]) where
  ends := by
    obtain ⟨front, hfront⟩ := h.ends
    exact ⟨front, by rw [Channel.send, ← hfront, List.append_assoc]⟩
  count := by
    have hfind := find?_map_snd (· + 1) id c.unread
    simp only [Channel.send, hfind, h.count, Option.map_some, List.length_append, List.length_singleton]

theorem HasUnread.subscribe (h : c.HasUnread id u) : c.subscribe.2.HasUnread id u where
  ends := h.ends
  count := by simp only [Channel.subscribe, List.find?_append, h.count, Option.some_or]

/-- A new subscriber has nothing unread. -/
theorem hasUnread_subscribe (h : c.Numbered) : c.subscribe.2.HasUnread c.next [] where
  ends := List.nil_suffix
  count := by
    have hnone : c.unread.find? (fun e => decide (e.1 = c.next)) = none := by
      rw [List.find?_eq_none]
      intro e he
      have := h.2 e.1 (List.mem_map_of_mem he)
      simp only [decide_eq_true_eq]
      omega
    simp [Channel.subscribe, List.find?_append, hnone]

/-- Who reads gets the oldest entry that is kept, and the others are left. -/
theorem HasUnread.readNext (h : c.HasUnread id u) :
    (c.readNext id).1 = (keep c.room u).head? ∧
      (c.readNext id).2.HasUnread id (keep c.room u).tail := by
  have hfind := find?_setUnread c id (keep c.room u).tail.length id
  simp only [Channel.readNext, h.queue?, Option.getD_some, true_and]
  refine ⟨(List.tail_suffix _).trans ((keep_suffix _ _).trans h.ends), ?_⟩
  rw [hfind, h.count, Option.map_some, if_pos rfl]

/-- Another subscriber that reads leaves what is unread. -/
theorem HasUnread.readNext_other (h : c.HasUnread id u) {i : Nat} (hi : i ≠ id) :
    (c.readNext i).2.HasUnread id u where
  ends := h.ends
  count := by
    have hfind := find?_setUnread c i ((c.queue? i).getD []).tail.length id
    rw [Channel.readNext, hfind, h.count, Option.map_some, if_neg hi.symm]

/-- Another subscriber that goes leaves what is unread. -/
theorem HasUnread.unsubscribe_other (h : c.HasUnread id u) {i : Nat} (hi : i ≠ id) :
    (c.unsubscribe i).HasUnread id u where
  ends := h.ends
  count := by
    rw [Channel.unsubscribe, List.find?_filter, ← h.count]
    congr 1
    funext e
    by_cases he : e.1 = id
    · simp [he, hi.symm]
    · simp [he]

end

/-- Setting a count leaves the subscribers as they are. -/
theorem ids_setUnread (c : Channel α) (id count : Nat) :
    (c.setUnread id count).unread.map Prod.fst = c.unread.map Prod.fst := by
  rw [setUnread, List.map_map]
  apply List.map_congr_left
  intro e _
  by_cases he : e.1 = id <;> simp [he]

/-- The numbers of the subscribers after a step. -/
theorem ids_after (c : Channel α) (s : ChannelStep α) :
    (c.after s).unread.map Prod.fst =
      match s with
      | .subscribe => c.unread.map Prod.fst ++ [c.next]
      | .unsubscribe i => (c.unread.map Prod.fst).filter (· ≠ i)
      | _ => c.unread.map Prod.fst := by
  cases s with
  | send v => simp [after, send]
  | subscribe => simp [after, subscribe]
  | readNext i => exact ids_setUnread ..
  | unsubscribe i => simp only [after, unsubscribe, List.filter_map]; rfl

theorem numbered_create (capacity : Nat) : (create capacity : Channel α).Numbered :=
  ⟨List.nodup_nil, List.forall_mem_nil _⟩

/-- A step keeps the numbers of subscribers apart. -/
theorem Numbered.after {c : Channel α} (h : c.Numbered) (s : ChannelStep α) : (c.after s).Numbered := by
  obtain ⟨hnodup, hlt⟩ := h
  rw [Numbered, ids_after, next_after]
  cases s with
  | send v => exact ⟨hnodup, hlt⟩
  | readNext i => exact ⟨hnodup, hlt⟩
  | subscribe =>
    refine ⟨List.nodup_append.2 ⟨hnodup, List.nodup_singleton _, ?_⟩, ?_⟩
    · intro a ha b hb
      have := hlt a ha
      rw [List.mem_singleton.1 hb]
      omega
    · intro id hid
      show id < c.next + 1
      rcases List.mem_append.1 hid with hid | hid
      · exact Nat.lt_succ_of_lt (hlt id hid)
      · rw [List.mem_singleton.1 hid]
        exact Nat.lt_succ_self _
  | unsubscribe i => exact ⟨hnodup.filter _, fun id hid => hlt id (List.mem_of_mem_filter hid)⟩

/-- So does a run. -/
theorem Numbered.run {c : Channel α} (h : c.Numbered) (steps : List (ChannelStep α)) :
    (c.run steps).Numbered := by
  induction steps generalizing c with
  | nil => exact h
  | cons s rest ih => exact ih (h.after s)

/-! ## What a subscriber receives -/

/-- Nobody receives anything who is not there. -/
theorem delivered_eq_none {c : Channel α} {id : Nat} (h : id ∉ c.unread.map Prod.fst) (s : ChannelStep α) :
    c.delivered id s = none := by
  cases s with
  | readNext i =>
    by_cases hi : i = id
    · have hnone : c.queue? i = none := by
        rw [queue?, Option.map_eq_none_iff, List.find?_eq_none]
        intro e he heq
        exact h (List.mem_map.2 ⟨e, he, (of_decide_eq_true heq).trans hi⟩)
      simp [delivered, readNext, hnone]
    · exact if_neg hi
  | _ => rfl

/-- Nothing is received before the subscription. -/
theorem received_before {c : Channel α} (hc : c.Numbered) {id : Nat} {steps : List (ChannelStep α)}
    (h : c.next + subscriptions steps ≤ id) : c.received id steps = [] := by
  induction steps generalizing c with
  | nil => rfl
  | cons s rest ih =>
    have hcount := subscriptions_cons s rest
    have habsent : id ∉ c.unread.map Prod.fst := fun hid => by
      have := hc.2 id hid
      omega
    have hnext := next_after c s
    rw [received, delivered_eq_none habsent, ih (hc.after s) (by omega)]
    rfl

/-- Nothing is received after a subscriber has gone: its number is not given again. -/
theorem received_gone {c : Channel α} {id : Nat} (habsent : id ∉ c.unread.map Prod.fst)
    (hid : id < c.next) (steps : List (ChannelStep α)) : c.received id steps = [] := by
  induction steps generalizing c with
  | nil => rfl
  | cons s rest ih =>
    have hstill : id ∉ (c.after s).unread.map Prod.fst := by
      rw [ids_after]
      cases s with
      | subscribe =>
        simp only [List.mem_append, List.mem_singleton, not_or]
        exact ⟨habsent, by omega⟩
      | unsubscribe i => exact fun hmem => habsent (List.mem_of_mem_filter hmem)
      | _ => exact habsent
    have hnext := next_after c s
    rw [received, delivered_eq_none habsent, ih hstill (by omega)]
    rfl

/-- From its subscription on, a subscriber receives what it would receive from a mailbox of its own. -/
theorem HasUnread.received {c : Channel α} {id : Nat} {u : List α} (h : c.HasUnread id u)
    (hid : id < c.next) (steps : List (ChannelStep α)) :
    c.received id steps = Mailbox.received c.room u (view id steps) := by
  induction steps generalizing c u with
  | nil => rfl
  | cons s rest ih =>
    rw [Channel.received]
    cases s with
    | send v => exact ih (h.send v) hid
    | subscribe => exact ih h.subscribe (Nat.lt_succ_of_lt hid)
    | readNext i =>
      by_cases hi : i = id
      · subst hi
        obtain ⟨hhead, htail⟩ := h.readNext
        simp only [delivered, view, if_pos, hhead, Mailbox.received]
        exact congrArg _ (ih htail hid)
      · simp only [delivered, view, if_neg hi]
        exact ih (h.readNext_other hi) hid
    | unsubscribe i =>
      by_cases hi : i = id
      · subst hi
        have hgone : i ∉ (c.after (.unsubscribe i)).unread.map Prod.fst := by
          rw [ids_after]
          simp
        rw [view, if_pos rfl, received_gone hgone hid]
        rfl
      · simp only [delivered, view, if_neg hi]
        exact ih (h.unsubscribe_other hi) hid

/-- A subscriber that does not go has unread what would be unread in its mailbox. -/
theorem HasUnread.run {c : Channel α} {id : Nat} {u : List α} (h : c.HasUnread id u)
    {steps : List (ChannelStep α)} (hstays : .unsubscribe id ∉ steps) :
    (c.run steps).HasUnread id (Mailbox.unread c.room u (view id steps)) := by
  induction steps generalizing c u with
  | nil => exact h
  | cons s rest ih =>
    obtain ⟨hs, hrest⟩ := not_or.1 fun hor => hstays (List.mem_cons.2 hor)
    rw [run_cons]
    cases s with
    | send v => exact ih (h.send v) hrest
    | subscribe => exact ih h.subscribe hrest
    | readNext i =>
      by_cases hi : i = id
      · subst hi
        rw [view, if_pos rfl]
        exact ih h.readNext.2 hrest
      · rw [view, if_neg hi]
        exact ih (h.readNext_other hi) hrest
    | unsubscribe i =>
      have hi : i ≠ id := fun he => hs (by rw [he])
      rw [view, if_neg hi]
      exact ih (h.unsubscribe_other hi) hrest

section

variable (capacity : Nat) (before afterwards : List (ChannelStep α))

/-- A subscriber receives what it would receive from a mailbox of its own that is empty when it subscribes. -/
theorem received_eq :
    (create capacity).received (subscriptions before) (before ++ .subscribe :: afterwards) =
      Mailbox.received (roomFor capacity) [] (view (subscriptions before) afterwards) := by
  have hnumbered := (numbered_create (α := α) capacity).run before
  have hnext : ((create capacity : Channel α).run before).next = subscriptions before := by
    rw [next_run]
    exact Nat.zero_add _
  have hunread := hasUnread_subscribe hnumbered
  rw [hnext] at hunread
  have hrest := hunread.received (hnext ▸ Nat.lt_succ_self _) afterwards
  rw [show ((create capacity).run before).subscribe.2.room = roomFor capacity from room_run _ before] at hrest
  rw [received_append, received_before (numbered_create capacity) (Nat.le_of_eq (Nat.zero_add _)),
    List.nil_append]
  exact hrest

/-- What is unread in the end is what would be unread in the mailbox. -/
theorem hasUnread_run (hstays : .unsubscribe (subscriptions before) ∉ afterwards) :
    ((create capacity).run (before ++ .subscribe :: afterwards)).HasUnread (subscriptions before)
      (Mailbox.unread (roomFor capacity) [] (view (subscriptions before) afterwards)) := by
  have hnumbered := (numbered_create (α := α) capacity).run before
  have hnext : ((create capacity : Channel α).run before).next = subscriptions before := by
    rw [next_run]
    exact Nat.zero_add _
  have hunread := hasUnread_subscribe hnumbered
  rw [hnext] at hunread
  have hrest := hunread.run hstays
  rw [show ((create capacity).run before).subscribe.2.room = roomFor capacity from room_run _ before] at hrest
  rwa [run_append, run_cons]

end

/-! ## Who is there -/

/-- Who is subscribed after one more step subscribed with it, or was subscribed and stays. -/
theorem subscribed_append_singleton {id : Nat} {steps : List (ChannelStep α)} {s : ChannelStep α} :
    Subscribed id (steps ++ [s]) ↔
      (s = .subscribe ∧ subscriptions steps = id) ∨ (Subscribed id steps ∧ s ≠ .unsubscribe id) := by
  constructor
  · rintro ⟨before, afterwards, heq, hid, hstays⟩
    rcases List.eq_nil_or_concat afterwards with rfl | ⟨rest, last, rfl⟩
    · obtain ⟨rfl, hs⟩ := List.append_inj' heq rfl
      exact .inl ⟨List.singleton_inj.1 hs, hid⟩
    · rw [List.concat_eq_append, ← List.cons_append, ← List.append_assoc] at heq
      obtain ⟨rfl, hs⟩ := List.append_inj' heq rfl
      simp only [List.concat_eq_append, List.mem_append, List.mem_singleton, not_or] at hstays
      refine .inr ⟨⟨before, rest, rfl, hid, hstays.1⟩, ?_⟩
      rw [List.singleton_inj.1 hs]
      exact Ne.symm hstays.2
  · rintro (⟨rfl, hid⟩ | ⟨⟨before, afterwards, rfl, hid, hstays⟩, hs⟩)
    · exact ⟨steps, [], rfl, hid, List.not_mem_nil⟩
    · refine ⟨before, afterwards ++ [s], by simp, hid, ?_⟩
      simp only [List.mem_append, List.mem_singleton, not_or]
      exact ⟨hstays, hs.symm⟩

/-- The subscribers of a channel are those that have come and not gone. -/
theorem mem_ids_run {capacity : Nat} {id : Nat} {steps : List (ChannelStep α)} :
    id ∈ ((create capacity).run steps).unread.map Prod.fst ↔ Subscribed id steps := by
  induction steps using List.reverseRecOn with
  | nil =>
    have hnone : ¬ Subscribed id ([] : List (ChannelStep α)) := by
      rintro ⟨before, afterwards, heq, -⟩
      simp at heq
    simp [hnone, create]
  | append_singleton steps s ih =>
    have hnext : ((create capacity : Channel α).run steps).next = subscriptions steps := by
      rw [next_run]
      exact Nat.zero_add _
    rw [run_append, run_cons, run_nil, ids_after, subscribed_append_singleton, ← ih]
    cases s with
    | send v => simp
    | readNext i => simp
    | subscribe =>
      simp only [List.mem_append, List.mem_singleton, hnext, true_and, ne_eq, reduceCtorEq,
        not_false_eq_true, and_true]
      rw [or_comm, eq_comm]
    | unsubscribe i =>
      by_cases hi : i = id
      · simp [hi]
      · simp [hi, Ne.symm hi]

/-- How many subscribers there are: those that have come and not gone. -/
theorem subscribers_run (capacity : Nat) (steps : List (ChannelStep α)) :
    ((create capacity).run steps).subscribers = Set.ncard {id | Subscribed id steps} := by
  have hnodup := ((numbered_create (α := α) capacity).run steps).1
  have hset : {id | Subscribed id steps} =
      ((((create capacity).run steps).unread.map Prod.fst).toFinset : Set Nat) := by
    ext id
    simp only [Set.mem_ofPred_eq, List.coe_toFinset, mem_ids_run]
  rw [hset, Set.ncard_coe_finset, List.toFinset_card_of_nodup hnodup, List.length_map, subscribers]

/-! ## The other subscribers -/

/-- Dropping what does not concern a subscriber drops no subscription. -/
theorem subscriptions_filter (id : Nat) (steps : List (ChannelStep α)) :
    subscriptions (steps.filter (ChannelStep.concerns id)) = subscriptions steps := by
  rw [subscriptions, List.countP_filter]
  congr 1
  funext s
  cases s <;> rfl

/-- A subscriber sees no more than what concerns it. -/
theorem view_filter (id : Nat) (steps : List (ChannelStep α)) :
    view id (steps.filter (ChannelStep.concerns id)) = view id steps := by
  induction steps with
  | nil => rfl
  | cons s rest ih =>
    cases s with
    | send v => simp [List.filter_cons, ChannelStep.concerns, view, ih]
    | subscribe => simp [List.filter_cons, ChannelStep.concerns, view, ih]
    | readNext i => by_cases hi : i = id <;> simp [ChannelStep.concerns, view, ih, hi]
    | unsubscribe i => by_cases hi : i = id <;> simp [ChannelStep.concerns, view, ih, hi]

/-- A number that is given belongs to a subscription. -/
theorem exists_subscription {id : Nat} {steps : List (ChannelStep α)} (h : id < subscriptions steps) :
    ∃ before afterwards, steps = before ++ .subscribe :: afterwards ∧ subscriptions before = id := by
  induction steps using List.reverseRecOn with
  | nil => cases h
  | append_singleton steps s ih =>
    have hcount : subscriptions (steps ++ [s]) = subscriptions steps + subscriptions [s] :=
      List.countP_append
    by_cases hid : id < subscriptions steps
    · obtain ⟨before, afterwards, rfl, hbefore⟩ := ih hid
      exact ⟨before, afterwards ++ [s], by simp, hbefore⟩
    · cases s with
      | subscribe =>
        have hone : subscriptions [(.subscribe : ChannelStep α)] = 1 := rfl
        exact ⟨steps, [], rfl, by omega⟩
      | _ => exact absurd h (by rw [hcount]; exact hid)

/-- What a subscriber receives does not depend on what the other subscribers do. -/
theorem received_filter_concerns (capacity id : Nat) (steps : List (ChannelStep α)) :
    (create capacity).received id (steps.filter (ChannelStep.concerns id)) =
      (create capacity).received id steps := by
  have hbefore : ∀ steps : List (ChannelStep α), subscriptions steps ≤ id →
      (create capacity).received id steps = [] := by
    intro steps h
    have hnext : (create capacity : Channel α).next = 0 := rfl
    exact received_before (numbered_create capacity) (by omega)
  by_cases hid : id < subscriptions steps
  · obtain ⟨before, afterwards, rfl, rfl⟩ := exists_subscription hid
    have hfilter := received_eq capacity (before.filter (ChannelStep.concerns (subscriptions before)))
      (afterwards.filter (ChannelStep.concerns (subscriptions before)))
    rw [subscriptions_filter, view_filter] at hfilter
    rw [List.filter_append, List.filter_cons_of_pos rfl, hfilter, received_eq]
  · rw [hbefore _ (by rw [subscriptions_filter]; omega), hbefore _ (by omega)]

/-! ## Reading everything -/

/-- Reading everything that is there, as steps: one reading for every entry, and a last one that finds
nothing. -/
def readings (c : Channel α) (id : Nat) : List (ChannelStep α) :=
  List.replicate (((c.queue? id).getD []).length + 1) (.readNext id)

/-- Reading everything is reading one entry after the other. -/
theorem read_eq_readings (c : Channel α) (id : Nat) :
    c.read id = (c.received id (c.readings id), c.run (c.readings id)) := by
  generalize hqueue : (c.queue? id).getD [] = queue
  induction queue generalizing c with
  | nil =>
    rw [read_eq_readNext, readings, hqueue]
    simp [received, delivered, after, readNext, hqueue]
  | cons v rest ih =>
    have hsome : c.queue? id = some (v :: rest) := by
      cases hq : c.queue? id with
      | none => simp [hq] at hqueue
      | some q => simpa [hq] using hqueue
    obtain ⟨c', hset⟩ : ∃ c', c.setUnread id rest.length = c' := ⟨_, rfl⟩
    have hc' : c.readNext id = (some v, c') := by
      rw [readNext, hqueue, ← hset]
      rfl
    have hnext : c'.queue? id = some rest := hset ▸ queue?_setUnread hsome (List.suffix_cons v rest)
    have hreadings : c.readings id = .readNext id :: c'.readings id := by
      simp [readings, hqueue, hnext, List.replicate_succ]
    rw [hreadings, received, delivered, if_pos rfl, run_cons, after, read_eq_readNext, hc']
    simp only [ih c' (by rw [hnext]; rfl)]
    rfl

end Channel

/-! ## The service as a whole -/

/-- What is unread ends what has been sent to the subscriber. -/
theorem Mailbox.unread_suffix (room : Nat) (u : List α) (notices : List (Notice α)) :
    unread room u notices <:+ u ++ entries notices := by
  induction notices generalizing u with
  | nil => simp [unread, entries]
  | cons n rest ih =>
    cases n with
    | sent v => simpa [unread, entries] using ih (u ++ [v])
    | reading =>
      obtain ⟨front, hfront⟩ := (List.tail_suffix (keep room u)).trans (Channel.keep_suffix room u)
      refine (ih (keep room u).tail).trans ⟨front, ?_⟩
      rw [← List.append_assoc, hfront]
      rfl

/-- What a subscriber has noticed up to some moment, it notices of the steps up to some moment at which it is
still there. -/
theorem ChannelStep.exists_prefix_of_view {id : Nat} {notices : List (Notice α)}
    {steps : List (ChannelStep α)} (h : notices <+: view id steps) :
    ∃ seen, seen <+: steps ∧ view id seen = notices ∧ unsubscribe id ∉ seen := by
  induction steps generalizing notices with
  | nil => exact ⟨[], List.nil_prefix, (List.prefix_nil.1 h).symm, List.not_mem_nil⟩
  | cons s rest ih =>
    -- A step that is not noticed is passed by, one that is noticed is the first of the notices.
    have hunnoticed : notices <+: view id rest → s ≠ unsubscribe id →
        (∀ seen, view id (s :: seen) = view id seen) →
        ∃ seen, seen <+: s :: rest ∧ view id seen = notices ∧ unsubscribe id ∉ seen := by
      intro hrest hs hview
      obtain ⟨seen, hprefix, hnotices, hstays⟩ := ih hrest
      refine ⟨s :: seen, (List.prefix_cons_inj s).2 hprefix, (hview seen).trans hnotices, ?_⟩
      simp only [List.mem_cons, not_or]
      exact ⟨hs.symm, hstays⟩
    have hnoticed : ∀ n, notices <+: n :: view id rest → s ≠ unsubscribe id →
        (∀ seen, view id (s :: seen) = n :: view id seen) →
        ∃ seen, seen <+: s :: rest ∧ view id seen = notices ∧ unsubscribe id ∉ seen := by
      intro n hrest hs hview
      cases notices with
      | nil => exact ⟨[], List.nil_prefix, rfl, List.not_mem_nil⟩
      | cons m more =>
        obtain ⟨rfl, hmore⟩ := List.cons_prefix_cons.1 hrest
        obtain ⟨seen, hprefix, hnotices, hstays⟩ := ih hmore
        refine ⟨s :: seen, (List.prefix_cons_inj s).2 hprefix, by rw [hview, hnotices], ?_⟩
        simp only [List.mem_cons, not_or]
        exact ⟨hs.symm, hstays⟩
    cases s with
    | send v => exact hnoticed (.sent v) h nofun fun _ => rfl
    | subscribe => exact hunnoticed h nofun fun _ => rfl
    | readNext i =>
      by_cases hi : i = id
      · rw [view, if_pos hi] at h
        exact hnoticed .reading h nofun fun seen => by rw [view, if_pos hi]
      · rw [view, if_neg hi] at h
        exact hunnoticed h nofun fun seen => by rw [view, if_neg hi]
    | unsubscribe i =>
      by_cases hi : i = id
      · rw [view, if_pos hi] at h
        exact ⟨[], List.nil_prefix, (List.prefix_nil.1 h).symm, List.not_mem_nil⟩
      · rw [view, if_neg hi] at h
        refine hunnoticed h ?_ fun seen => by rw [view, if_neg hi]
        exact fun he => hi (ChannelStep.unsubscribe.inj he)

namespace Channel

/-- There is room for the capacity, at least one, rounded up to a power of two. -/
theorem roomFor_isLeast (capacity : Nat) :
    IsLeast {k | max 1 capacity ≤ k ∧ ∃ j, k = 2 ^ j} (roomFor capacity) := by
  unfold roomFor
  split
  · next h =>
    refine ⟨⟨by omega, 0, rfl⟩, ?_⟩
    rintro k ⟨hk, -⟩
    omega
  · next h =>
    have hlt : capacity - 1 < 2 ^ (Nat.log2 (capacity - 1) + 1) := Nat.lt_log2_self
    refine ⟨⟨?_, _, rfl⟩, ?_⟩
    · show max 1 capacity ≤ 2 ^ (Nat.log2 (capacity - 1) + 1)
      omega
    · rintro k ⟨hk, j, rfl⟩
      have hlog : Nat.log2 (capacity - 1) < j := (Nat.log2_lt (by omega)).2 (by omega)
      exact Nat.pow_le_pow_right (by decide) hlog

/-- How the subscribers of a channel are served in the course of some steps. -/
structure Served (capacity : Nat) (steps : List (ChannelStep α)) : Prop where
  /-- A subscriber receives of what is sent while it is there, in that order and nothing twice. -/
  inOrder : ∀ before afterwards, steps = before ++ .subscribe :: afterwards →
    ((create capacity).received (subscriptions before) steps).Sublist
      (entries (view (subscriptions before) afterwards))
  /-- It receives all of that but what it has not read, if there has always been room for the unread. -/
  complete : ∀ before afterwards, steps = before ++ .subscribe :: afterwards →
    (∀ seen u, seen <+: afterwards →
      ((create capacity).run (before ++ .subscribe :: seen)).HasUnread (subscriptions before) u →
        u.length ≤ roomFor capacity) →
    (create capacity).received (subscriptions before) steps <+:
        entries (view (subscriptions before) afterwards) ∧
      (.unsubscribe (subscriptions before) ∉ afterwards →
        ∃ u, ((create capacity).run steps).HasUnread (subscriptions before) u ∧
          (create capacity).received (subscriptions before) steps ++ u =
            entries (view (subscriptions before) afterwards))
  /-- While it is there, something is unread, if only an empty list: the end of what has been sent to it. -/
  waiting : ∀ before afterwards, steps = before ++ .subscribe :: afterwards →
    .unsubscribe (subscriptions before) ∉ afterwards →
      ∃ u, u <:+ entries (view (subscriptions before) afterwards) ∧
        ((create capacity).run steps).HasUnread (subscriptions before) u
  /-- Reading loses the oldest entries for which there is no room, and goes on with the others. -/
  reading : ∀ id u, ((create capacity).run steps).HasUnread id u →
    (((create capacity).run steps).readNext id).1 = (u.drop (u.length - roomFor capacity)).head? ∧
      (((create capacity).run steps).readNext id).2.HasUnread id
        (u.drop (u.length - roomFor capacity)).tail
  /-- What the other subscribers do makes no difference. -/
  independent : ∀ id, (create capacity).received id (steps.filter (ChannelStep.concerns id)) =
    (create capacity).received id steps

/-- Subscribers are served in every interleaving of their steps. -/
theorem served (capacity : Nat) (steps : List (ChannelStep α)) : Served capacity steps where
  inOrder := by
    rintro before afterwards rfl
    rw [received_eq]
    exact Mailbox.received_sublist _ [] _
  complete := by
    rintro before afterwards rfl hroom
    have hall : Mailbox.received (roomFor capacity) [] (view (subscriptions before) afterwards) ++
        Mailbox.unread (roomFor capacity) [] (view (subscriptions before) afterwards) =
          [] ++ entries (view (subscriptions before) afterwards) := by
      refine Mailbox.received_append_unread fun notices hnotices => ?_
      obtain ⟨seen, hseen, rfl, hstays⟩ := ChannelStep.exists_prefix_of_view hnotices
      exact hroom seen _ hseen (hasUnread_run capacity before seen hstays)
    rw [List.nil_append] at hall
    rw [received_eq]
    exact ⟨⟨_, hall⟩, fun hstays => ⟨_, hasUnread_run capacity before afterwards hstays, hall⟩⟩
  waiting := by
    rintro before afterwards rfl hstays
    exact ⟨_, Mailbox.unread_suffix _ [] _, hasUnread_run capacity before afterwards hstays⟩
  reading := by
    intro id u hu
    have hread := hu.readNext
    rw [room_run] at hread
    exact hread
  independent := fun id => received_filter_concerns capacity id steps

end Channel
end WebOfThings
