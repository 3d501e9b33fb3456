import WebOfThings.Cbor.Head
import WebOfThings.Json.Basic

/-!
# Reading CBOR

The bytes drive a machine with a stack, one head after the other: one frame for every array or map that is
still open. The machine stops when its first item is complete, whatever follows it.

Lengths may be open and arguments longer than needed. What JSON does not know is refused: byte strings, tags
other than those of big integers, integers beyond 64 bits, simple values without a counterpart and keys that
are no text. `undefined` and the floating point values that are not finite are `null`. A map that repeats a
key keeps the last of its members.

The first key of a map has a limit that the others do not have: it must be of definite length and at most
`maxFirstKey` bytes, since it is read like a name, into a buffer of that size. The limit is the reader's
alone; a map with a longer key is written like any other.

`run?` is fuelled by the bytes: each step consumes a head, so the recursion is on the length of what is
left.

Main statement: `step?_lt` (every step takes at least one byte), which bounds the reading.
-/

namespace WebOfThings.Cbor

/-- How deep arrays and maps may be nested. -/
def maxDepth : Nat := 256

/-- The longest first key of a map, in bytes. It also has to be of definite length; the keys after
it are free. -/
def maxFirstKey : Nat := 4096

/-- An array or map that is still open: how many items or members are missing, the one being read
included, if its length is known, and what it has so far, the last one first. -/
inductive Frame where
  | array (missing : Option Nat) (items : List Json)
  | map (missing : Option Nat) (members : List (String × Json)) (key : String)

/-- What the machine waits for, under the frames that are open. -/
inductive Reading where
  /-- An item. -/
  | item (stack : List Frame)
  /-- A key, or the end of a map of open length; after a tag, only a key. -/
  | nextKey (tagged : Bool) (missing : Option Nat) (members : List (String × Json))
      (stack : List Frame)
  /-- Nothing more. -/
  | done (v : Json)

namespace Reading

/-- The machine after a complete value: it closes every array and map that has all it needs. -/
def close (v : Json) : List Frame → Reading
  | [] => .done v
  | .array missing items :: stack =>
    match missing with
    | none => .item (.array none (v :: items) :: stack)
    | some n =>
      if n ≤ 1 then close (.arr (v :: items).reverse) stack
      else .item (.array (some (n - 1)) (v :: items) :: stack)
  | .map missing members key :: stack =>
    match missing with
    | none => .nextKey false none ((key, v) :: members) stack
    | some n =>
      if n ≤ 1 then close (.object ((key, v) :: members).reverse) stack
      else .nextKey false (some (n - 1)) ((key, v) :: members) stack

/-- The machine after the head of an array. -/
def openArray? (length : Option Nat) (stack : List Frame) : Option Reading :=
  if stack.length < maxDepth then
    if length = some 0 then some (close (.arr []) stack)
    else some (.item (.array length [] :: stack))
  else none

/-- The machine after the head of a map. -/
def openMap? (length : Option Nat) (stack : List Frame) : Option Reading :=
  if stack.length < maxDepth then
    if length = some 0 then some (close (.obj []) stack)
    else some (.nextKey false length [] stack)
  else none

/-- The value of a simple item. -/
def simple? (n : Nat) : Option Json :=
  if n = 20 then some (.bool false)
  else if n = 21 then some (.bool true)
  else if n = 22 ∨ n = 23 then some .null
  else none

/-- The longest big integer, in bytes, leading zeros included. -/
def maxBigInteger : Nat := 16

/-- The big integer after its tag, and what follows it: a byte string of definite length. -/
def bigInteger? (negative : Bool) (bytes : List UInt8) : Option (Json × List UInt8) :=
  match head? bytes with
  | some (.bytes (some length), rest) =>
    if length ≤ maxBigInteger then do
      let (n, rest) ← number? length rest
      let number ← Number.ofInt? (if negative then -1 - (n : Int) else n)
      return (.num number, rest)
    else none
  | _ => none

/-- The text after its head, every segment of it well-formed, and what follows it. -/
def text? (length : Option Nat) (bytes : List UInt8) : Option (String × List UInt8) := do
  let (segments, rest) ← content? length bytes
  let texts ← segments.mapM Text.ofUtf8?
  return (String.join texts, rest)

/-- The machine after the head of an item. -/
def stepItem? (stack : List Frame) (hd : Head) (rest : List UInt8) :
    Option (Reading × List UInt8) :=
  match hd with
  | .unsigned n => (Number.ofInt? n).map fun n => (close (.num n) stack, rest)
  | .negative n => (Number.ofInt? (-1 - n)).map fun n => (close (.num n) stack, rest)
  | .bytes _ => none
  | .text length => (text? length rest).map fun (s, rest) => (close (.str s) stack, rest)
  | .array length => (openArray? length stack).map (·, rest)
  | .map length => (openMap? length stack).map (·, rest)
  | .tag n =>
    if n = 2 ∨ n = 3 then
      (bigInteger? (n = 3) rest).map fun (v, rest) => (close v stack, rest)
    else none
  | .simple n => (simple? n).map fun v => (close v stack, rest)
  | .float x => some (close (.ofBinary64 x) stack, rest)
  | .stop =>
    match stack with
    | .array none items :: stack => some (close (.arr items.reverse) stack, rest)
    | _ => none

/-- The machine after the head of a key. Tags before a key are skipped. -/
def stepKey? (tagged : Bool) (missing : Option Nat) (members : List (String × Json))
    (stack : List Frame) (hd : Head) (rest : List UInt8) : Option (Reading × List UInt8) :=
  match hd with
  | .tag _ => some (.nextKey true missing members stack, rest)
  | .text length =>
    if members.isEmpty && !(length.any fun n => n ≤ maxFirstKey) then none
    else (text? length rest).map fun (s, rest) => (.item (.map missing members s :: stack), rest)
  | .stop =>
    if tagged || missing.isSome then none
    else some (close (.object members.reverse) stack, rest)
  | _ => none

/-- The machine after the next head and what belongs to it. -/
def step? (m : Reading) (bytes : List UInt8) : Option (Reading × List UInt8) := do
  let (hd, rest) ← head? bytes
  match m with
  | .item stack => stepItem? stack hd rest
  | .nextKey tagged missing members stack => stepKey? tagged missing members stack hd rest
  | .done _ => none

/-! ## Every step takes at least one byte -/

/-- Reading a text takes no bytes back. -/
theorem text?_le {length : Option Nat} {bytes rest : List UInt8} {s : String}
    (h : text? length bytes = some (s, rest)) : rest.length ≤ bytes.length := by
  simp only [text?, Option.bind_eq_bind, Option.bind_eq_some_iff, Option.pure_def,
    Option.some.injEq] at h
  obtain ⟨⟨segments, r⟩, hc, texts, -, he⟩ := h
  cases he
  exact content?_le hc

/-- Reading a large integer takes no bytes back. -/
theorem bigInteger?_le {negative : Bool} {bytes rest : List UInt8} {v : Json}
    (h : bigInteger? negative bytes = some (v, rest)) : rest.length ≤ bytes.length := by
  unfold bigInteger? at h
  split at h
  · next length r hh =>
    split at h
    · simp only [Option.bind_eq_bind, Option.bind_eq_some_iff, Option.pure_def,
        Option.some.injEq] at h
      obtain ⟨⟨n, r'⟩, hn, number, -, he⟩ := h
      cases he
      exact Nat.le_trans (number?_le hn) (Nat.le_of_lt (head?_lt hh))
    · cases h
  · cases h

/-- A step at an item takes no bytes back. -/
theorem stepItem?_le {stack : List Frame} {hd : Head} {bytes rest : List UInt8} {m : Reading}
    (h : stepItem? stack hd bytes = some (m, rest)) : rest.length ≤ bytes.length := by
  unfold stepItem? at h
  split at h
  case h_4 =>
    obtain ⟨⟨s, r⟩, ht, he⟩ := Option.map_eq_some_iff.1 h
    cases he
    exact text?_le ht
  case h_7 =>
    split at h
    · obtain ⟨⟨s, r⟩, ht, he⟩ := Option.map_eq_some_iff.1 h
      cases he
      exact bigInteger?_le ht
    · cases h
  case h_9 =>
    cases h
    exact Nat.le_refl _
  case h_10 =>
    split at h
    · cases h
      exact Nat.le_refl _
    · cases h
  case h_3 => cases h
  all_goals
    obtain ⟨x, -, he⟩ := Option.map_eq_some_iff.1 h
    cases he
    exact Nat.le_refl _

/-- A step at a key takes no bytes back. -/
theorem stepKey?_le {tagged : Bool} {missing : Option Nat} {members : List (String × Json)}
    {stack : List Frame} {hd : Head} {bytes rest : List UInt8} {m : Reading}
    (h : stepKey? tagged missing members stack hd bytes = some (m, rest)) :
    rest.length ≤ bytes.length := by
  unfold stepKey? at h
  split at h
  · cases h
    exact Nat.le_refl _
  · split at h
    · cases h
    · obtain ⟨⟨s, r⟩, ht, he⟩ := Option.map_eq_some_iff.1 h
      cases he
      exact text?_le ht
  · split at h
    · cases h
    · cases h
      exact Nat.le_refl _
  · cases h

/-- Every step takes at least one byte, so reading comes to an end. -/
theorem step?_lt {m m' : Reading} {bytes rest : List UInt8}
    (h : m.step? bytes = some (m', rest)) : rest.length < bytes.length := by
  simp only [step?, Option.bind_eq_bind, Option.bind_eq_some_iff] at h
  obtain ⟨⟨hd, r⟩, hh, h⟩ := h
  have hlt := head?_lt hh
  split at h
  · exact Nat.lt_of_le_of_lt (stepItem?_le h) hlt
  · exact Nat.lt_of_le_of_lt (stepKey?_le h) hlt
  · cases h

/-- The value that the machine completes on the bytes; `none` if they are ill-formed or end too
early. -/
def run? (m : Reading) (bytes : List UInt8) : Option Json :=
  match m with
  | .done v => some v
  | m =>
    match _h : m.step? bytes with
    | none => none
    | some (m, rest) => run? m rest
termination_by bytes.length
decreasing_by exact step?_lt _h

end Reading

/-- The value of the first item. -/
def read? (bytes : List UInt8) : Option Json := (Reading.item []).run? bytes

end WebOfThings.Cbor
