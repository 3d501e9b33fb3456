import WebOfThings.Binary64.Narrow
import WebOfThings.Json.Basic
import WebOfThings.Text.Utf8

/-!
# Writing CBOR

A value is written with heads of the least length, floating point numbers in the shortest of the three
formats that holds them exactly, and definite lengths throughout. Integers are major type zero or one by
their sign, and the members of an object stand in the order in which it has them. There is no value that
cannot be written: writing is a total function, and the codec that uses it never fails to encode.

`length_bigEndian`: a number is written in as many bytes as were asked for.
-/

namespace WebOfThings.Cbor

/-- The lowest `k` bytes of a number, the highest of them first. -/
def bigEndian : Nat → Nat → List UInt8
  | 0, _ => []
  | k + 1, n => bigEndian k (n / 256) ++ [UInt8.ofNat (n % 256)]

/-- A number is written with as many bytes as were asked for. -/
theorem length_bigEndian (k n : Nat) : (bigEndian k n).length = k := by
  induction k generalizing n with
  | zero => rfl
  | succ k ih => simp [bigEndian, ih]

/-- The head of an item: its major type and its argument, in the fewest bytes. -/
def head (major n : Nat) : List UInt8 :=
  if n < 24 then [UInt8.ofNat (major * 32 + n)]
  else if n < 256 then UInt8.ofNat (major * 32 + 24) :: bigEndian 1 n
  else if n < 65536 then UInt8.ofNat (major * 32 + 25) :: bigEndian 2 n
  else if n < 4294967296 then UInt8.ofNat (major * 32 + 26) :: bigEndian 4 n
  else UInt8.ofNat (major * 32 + 27) :: bigEndian 8 n

/-- A number as an item. -/
def writeNumber : Number → List UInt8
  | .integer n _ => if 0 ≤ n then head 0 n.toNat else head 1 (-1 - n).toNat
  | .float x _ =>
    match BinaryFormat.half.narrow? x with
    | some bits => 0xF9 :: bigEndian 2 bits
    | none =>
      match BinaryFormat.single.narrow? x with
      | some bits => 0xFA :: bigEndian 4 bits
      | none => 0xFB :: bigEndian 8 x.toBits

/-- A text as an item. -/
def writeText (s : String) : List UInt8 :=
  head 3 (Text.utf8 s).length ++ Text.utf8 s

mutual

/-- A value as an item. -/
def write : Json → List UInt8
  | .null => [0xF6]
  | .bool false => [0xF4]
  | .bool true => [0xF5]
  | .num n => writeNumber n
  | .str s => writeText s
  | .arr items => head 4 items.length ++ writeItems items
  | .obj members => head 5 members.length ++ writeMembers members

/-- Values one after the other. -/
def writeItems : List Json → List UInt8
  | [] => []
  | v :: rest => write v ++ writeItems rest

/-- Keys and values in turn. -/
def writeMembers : List (String × Json) → List UInt8
  | [] => []
  | (k, v) :: rest => writeText k ++ write v ++ writeMembers rest

end

end WebOfThings.Cbor
