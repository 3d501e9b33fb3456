/-!
# Notification channels

What is sent on a channel goes to everyone who is subscribed at that moment. The channel holds what has been
sent, and of each subscriber how much of it is unread. Only the last entries can still be read: a subscriber
that has fallen behind further loses the oldest ones and goes on with the oldest that is left.

The live state of a property or an event holds one such channel, and `ExposedThing` sends on it when a value
is committed or an event is emitted. A channel is made for a capacity and has room for the next power of two
(`roomFor`), so it may keep more than was asked for, never less.

Two readings are told apart. `readNext` is one poll of a subscriber: the oldest entry that it can still
read. `read` takes everything that is there, which is polling until nothing is ready (`read_eq_readNext`).

Main statements: `queue?_suffix` (what a subscriber can read ends what has been sent), `queue?_setUnread` (a
subscriber that is left with the end of its queue can read just that) and `read_eq_readNext`.
-/

namespace WebOfThings

/-- How many entries there is room for: the capacity rounded up to a power of two, at least one. -/
def roomFor (capacity : Nat) : Nat :=
  if capacity ≤ 1 then 1 else Nat.pow 2 (Nat.log2 (capacity - 1) + 1)

/-- A channel with its subscribers. -/
structure Channel (α : Type) where
  /-- How many entries can still be read. -/
  room : Nat
  /-- What has been sent, oldest entry first. -/
  sent : List α := []
  /-- The subscribers, each with the number of entries that it has neither read nor lost. -/
  unread : List (Nat × Nat) := []
  /-- The number of the next subscriber. -/
  next : Nat := 0

namespace Channel

variable {α : Type}

/-- A channel without subscribers. -/
def create (capacity : Nat) : Channel α := { room := roomFor capacity }

/-- The last entries of a list. -/
def keep (count : Nat) (entries : List α) : List α := entries.drop (entries.length - count)

/-- What a subscriber can read. -/
def queue? (c : Channel α) (id : Nat) : Option (List α) :=
  (c.unread.find? fun u => u.1 = id).map fun u => keep c.room (keep u.2 c.sent)

/-- The channel with one more subscriber, and the number of that subscriber. -/
def subscribe (c : Channel α) : Nat × Channel α :=
  (c.next, { c with unread := c.unread ++ [(c.next, 0)], next := c.next + 1 })

/-- The channel without a subscriber. -/
def unsubscribe (c : Channel α) (id : Nat) : Channel α :=
  { c with unread := c.unread.filter fun u => u.1 ≠ id }

/-- How many subscribers there are. -/
def subscribers (c : Channel α) : Nat := c.unread.length

/-- The channel after a value has been sent to all subscribers. -/
def send (c : Channel α) (v : α) : Channel α :=
  { c with sent := c.sent ++ [v], unread := c.unread.map fun (id, count) => (id, count + 1) }

/-- What a subscriber reads, and the channel after that. -/
def read (c : Channel α) (id : Nat) : List α × Channel α :=
  ((c.queue? id).getD [],
    { c with unread := c.unread.map fun u => if u.1 = id then (id, 0) else u })

/-- The channel with another number of unread entries of a subscriber. -/
def setUnread (c : Channel α) (id count : Nat) : Channel α :=
  { c with unread := c.unread.map fun u => if u.1 = id then (id, count) else u }

/-- What a subscriber reads next, the oldest entry that it can still read, and the channel after that. What
is older is lost to the subscriber. -/
def readNext (c : Channel α) (id : Nat) : Option α × Channel α :=
  (((c.queue? id).getD []).head?, c.setUnread id ((c.queue? id).getD []).tail.length)

/-! ## The last entries of a list -/

/-- A list that is not too long keeps everything. -/
theorem keep_of_length_le {count : Nat} {entries : List α} (h : entries.length ≤ count) :
    keep count entries = entries := by
  simp [keep, Nat.sub_eq_zero_of_le h]

/-- What is kept are the latest entries. -/
theorem keep_suffix (n : Nat) (entries : List α) : keep n entries <:+ entries :=
  List.drop_suffix _ _

/-- As many entries are kept as there are, and no more than there is room for. -/
theorem length_keep (n : Nat) (entries : List α) : (keep n entries).length = min n entries.length := by
  rw [keep, List.length_drop]
  omega

/-- What a list ends with is kept if as many entries are kept. -/
theorem keep_length_of_suffix {u entries : List α} (h : u <:+ entries) : keep u.length entries = u :=
  (List.suffix_iff_eq_drop.1 h).symm

/-! ## Sending and subscribing -/

/-- Changing the counts of all subscribers changes the one that is found. -/
theorem find?_map_snd (f : Nat → Nat) (id : Nat) (unread : List (Nat × Nat)) :
    (unread.map fun (i, count) => (i, f count)).find? (fun u => u.1 = id) =
      (unread.find? fun u => u.1 = id).map fun u => (u.1, f u.2) := by
  rw [List.find?_map]
  rfl

/-! ## Reading -/

/-- Setting the count of one subscriber leaves those of the others. -/
theorem find?_setUnread (c : Channel α) (id count other : Nat) :
    (c.setUnread id count).unread.find? (fun u => u.1 = other) =
      (c.unread.find? fun u => u.1 = other).map fun u => if u.1 = id then (id, count) else u := by
  rw [setUnread, List.find?_map]
  congr 1
  apply congrArg (fun p => List.find? p c.unread)
  funext u
  by_cases hu : u.1 = id <;> simp [hu]

/-- Of two counts that are set for a subscriber the second one stays. -/
theorem setUnread_setUnread (c : Channel α) (id m n : Nat) :
    (c.setUnread id m).setUnread id n = c.setUnread id n := by
  simp only [setUnread, List.map_map]
  congr 1
  apply List.map_congr_left
  intro u _
  by_cases hu : u.1 = id <;> simp [hu]

/-- What a subscriber can read ends what has been sent. -/
theorem queue?_suffix {c : Channel α} {id : Nat} {queue : List α} (h : c.queue? id = some queue) :
    queue <:+ c.sent := by
  obtain ⟨u, -, rfl⟩ := Option.map_eq_some_iff.1 h
  exact (keep_suffix _ _).trans (keep_suffix _ _)

/-- A subscriber that is left with the end of its queue can read just that. -/
theorem queue?_setUnread {c : Channel α} {id : Nat} {queue rest : List α} (h : c.queue? id = some queue)
    (hrest : rest <:+ queue) : (c.setUnread id rest.length).queue? id = some rest := by
  obtain ⟨u, hu, hqueue⟩ := Option.map_eq_some_iff.1 h
  have hid : u.1 = id := by simpa using List.find?_some hu
  have hlength : rest.length ≤ c.room := by
    refine Nat.le_trans hrest.length_le ?_
    rw [← hqueue, length_keep]
    exact Nat.min_le_left _ _
  rw [queue?, find?_setUnread, hu, Option.map_some, if_pos hid, Option.map_some, Option.some_inj]
  show keep c.room (keep rest.length c.sent) = rest
  rw [keep_length_of_suffix (hrest.trans (queue?_suffix h)), keep_of_length_le hlength]

/-- Reading everything is reading one entry after the other until there is none. -/
theorem read_eq_readNext (c : Channel α) (id : Nat) :
    c.read id =
      match c.readNext id with
      | (none, c') => ([], c')
      | (some v, c') => (v :: (c'.read id).1, (c'.read id).2) := by
  have hread : ∀ c' : Channel α, c'.read id = ((c'.queue? id).getD [], c'.setUnread id 0) := fun _ => rfl
  rw [readNext, hread]
  cases hqueue : c.queue? id with
  | none => rfl
  | some queue =>
    cases queue with
    | nil => rfl
    | cons v rest =>
      have hrest := queue?_setUnread hqueue (List.suffix_cons v rest)
      simp only [Option.getD_some, List.head?_cons, List.tail_cons, hread, hrest, setUnread_setUnread]

end Channel
end WebOfThings
