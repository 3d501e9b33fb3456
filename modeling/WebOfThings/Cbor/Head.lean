import WebOfThings.Binary64.Narrow
import WebOfThings.Text.Utf8

/-!
# Heads of CBOR items

The first bytes of an item tell its type and give a number, a length or a floating point value. What follows
the head of a string are its bytes, in one piece or in segments up to a stop code.

The first byte has a major type in its upper three bits and, in the lower five, a small argument or the
number of bytes that hold a larger one. `argument?` reads it in whatever length it has; the fewest bytes are
what writers use and nothing that readers ask for. Only strings, arrays and maps may leave their length
open. The floating point values are recognised here as well, by the length of the argument of major type
seven.

A string of open length is a row of segments. Segments may be of open length themselves, so `segments?`
counts how many are still to be closed.

Main statements: `head?_lt` (a head takes at least one byte) and `content?_le` (reading what follows gives
no bytes back), from which every reading of items terminates.
-/

namespace WebOfThings.Cbor

/-- The head of an item. The length of a string, an array or a map may be left open. -/
inductive Head where
  | unsigned (n : Nat)
  | negative (n : Nat)
  | bytes (length : Option Nat)
  | text (length : Option Nat)
  | array (length : Option Nat)
  | map (length : Option Nat)
  | tag (n : Nat)
  | simple (n : Nat)
  | float (x : Binary64)
  | stop

/-- The number that bytes denote, the highest first. -/
def ofBigEndian (bytes : List UInt8) : Nat :=
  bytes.foldl (fun n b => 256 * n + b.toNat) 0

/-- The first `n` bytes as a number, and what follows them. -/
def number? (n : Nat) (bytes : List UInt8) : Option (Nat × List UInt8) :=
  if n ≤ bytes.length then some (ofBigEndian (bytes.take n), bytes.drop n) else none

/-- The argument that goes with the low five bits of the first byte; `none` inside for an open
length. -/
def argument? (info : Nat) (bytes : List UInt8) : Option (Option Nat × List UInt8) :=
  if info < 24 then some (some info, bytes)
  else if info = 24 then (number? 1 bytes).map fun (n, rest) => (some n, rest)
  else if info = 25 then (number? 2 bytes).map fun (n, rest) => (some n, rest)
  else if info = 26 then (number? 4 bytes).map fun (n, rest) => (some n, rest)
  else if info = 27 then (number? 8 bytes).map fun (n, rest) => (some n, rest)
  else if info = 31 then some (none, bytes)
  else none

/-- The head that a major type and an argument make; numbers and tags have no open argument. -/
def Head.ofArgument? (major info : Nat) (argument : Option Nat) : Option Head :=
  match major with
  | 0 => argument.map .unsigned
  | 1 => argument.map .negative
  | 2 => some (.bytes argument)
  | 3 => some (.text argument)
  | 4 => some (.array argument)
  | 5 => some (.map argument)
  | 6 => argument.map .tag
  | _ =>
    match argument with
    | none => some .stop
    | some n =>
      if info = 25 then some (.float (BinaryFormat.half.widen n))
      else if info = 26 then some (.float (BinaryFormat.single.widen n))
      else if info = 27 then some (.float (.ofBits n))
      else some (.simple n)

/-- The head at the start of the bytes, and what follows it. -/
def head? : List UInt8 → Option (Head × List UInt8)
  | [] => none
  | b :: rest => do
    let (argument, rest) ← argument? (b.toNat % 32) rest
    let head ← Head.ofArgument? (b.toNat / 32) (b.toNat % 32) argument
    return (head, rest)

/-- Reading a number takes no bytes back. -/
theorem number?_le {n m : Nat} {bytes rest : List UInt8} (h : number? n bytes = some (m, rest)) :
    rest.length ≤ bytes.length := by
  unfold number? at h
  split at h
  · cases h
    simp
  · cases h

/-- Reading the argument of a head takes no bytes back. -/
theorem argument?_le {info : Nat} {bytes rest : List UInt8} {a : Option Nat}
    (h : argument? info bytes = some (a, rest)) : rest.length ≤ bytes.length := by
  have of_number : ∀ n, (number? n bytes).map (fun (m, rest) => (some m, rest)) = some (a, rest) →
      rest.length ≤ bytes.length := by
    intro n hn
    obtain ⟨⟨m, r⟩, hm, he⟩ := Option.map_eq_some_iff.1 hn
    cases he
    exact number?_le hm
  unfold argument? at h
  split at h
  · cases h
    exact Nat.le_refl _
  split at h
  · exact of_number 1 h
  split at h
  · exact of_number 2 h
  split at h
  · exact of_number 4 h
  split at h
  · exact of_number 8 h
  split at h
  · cases h
    exact Nat.le_refl _
  · cases h

/-- A head takes at least one byte. -/
theorem head?_lt {bytes rest : List UInt8} {hd : Head} (h : head? bytes = some (hd, rest)) :
    rest.length < bytes.length := by
  cases bytes with
  | nil => cases h
  | cons b r =>
    simp only [head?, Option.bind_eq_bind, Option.bind_eq_some_iff, Option.pure_def,
      Option.some.injEq] at h
    obtain ⟨⟨a, r'⟩, ha, hd', -, he⟩ := h
    cases he
    exact Nat.lt_succ_of_le (argument?_le ha)

/-! ## The bytes of a text -/

/-- The segments of a text of open length, up to the stop code that closes it, and what follows.
Texts of open length may stand in each other; `level` counts those that are still open. -/
def segments? (level : Nat) (bytes : List UInt8) :
    Option (List (List UInt8) × List UInt8) :=
  match _h : head? bytes with
  | none => none
  | some (.stop, rest) => if level = 0 then some ([], rest) else segments? (level - 1) rest
  | some (.text none, rest) => segments? (level + 1) rest
  | some (.text (some n), rest) =>
    if n ≤ rest.length then
      (segments? level (rest.drop n)).map fun (more, after) => (rest.take n :: more, after)
    else none
  | some _ => none
termination_by bytes.length
decreasing_by
  all_goals
    have := head?_lt _h
    try simp only [List.length_drop]
    omega

/-- The segments of a text after its head, and what follows them. -/
def content? (length : Option Nat) (bytes : List UInt8) :
    Option (List (List UInt8) × List UInt8) :=
  match length with
  | some n => if n ≤ bytes.length then some ([bytes.take n], bytes.drop n) else none
  | none => segments? 0 bytes

/-- Reading segments takes no bytes back. -/
theorem segments?_le {level : Nat} {bytes rest : List UInt8}
    {s : List (List UInt8)} (h : segments? level bytes = some (s, rest)) :
    rest.length ≤ bytes.length := by
  fun_induction segments? level bytes generalizing s rest with
  | case1 => cases h
  | case2 bytes r hh =>
    cases h
    exact Nat.le_of_lt (head?_lt hh)
  | case3 level bytes r hh _ ih => exact Nat.le_trans (ih h) (Nat.le_of_lt (head?_lt hh))
  | case4 level bytes r hh ih => exact Nat.le_trans (ih h) (Nat.le_of_lt (head?_lt hh))
  | case5 level bytes n r hh hn ih =>
    obtain ⟨⟨more, after⟩, hm, he⟩ := Option.map_eq_some_iff.1 h
    cases he
    have := ih hm
    have := head?_lt hh
    simp only [List.length_drop] at *
    omega
  | case6 => cases h
  | case7 => cases h

/-- Reading the content of a string takes no bytes back. -/
theorem content?_le {length : Option Nat} {bytes rest : List UInt8}
    {s : List (List UInt8)} (h : content? length bytes = some (s, rest)) :
    rest.length ≤ bytes.length := by
  unfold content? at h
  split at h
  · split at h
    · cases h
      simp
    · cases h
  · exact segments?_le h

end WebOfThings.Cbor
