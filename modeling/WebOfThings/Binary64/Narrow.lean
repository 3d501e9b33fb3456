import WebOfThings.Binary64.Basic

/-!
# Shorter binary formats

A binary format has a width for its exponent and one for its fraction. `widen` gives the double that a
pattern of a shorter format denotes, `narrow?` the pattern of a finite double in a shorter format if that
format holds the number exactly. CBOR writes every double in the shortest of three formats that does so, and
reads all three.

Narrowing has two cases besides zero. A number whose exponent the format reaches keeps it, with another
bias, and its fraction must end in zeros where the format has no digits. A number below that is subnormal
there: the digits that fall away are more, and they must be zeros too. Subnormal doubles are too small for
either format. Widening turns a subnormal pattern into a normal double by the place of its highest digit.

Main statement: `ofBits_toBits` (every double is the double of its 64 bits).
-/

namespace WebOfThings

/-- The widths of a binary interchange format. -/
structure BinaryFormat where
  exponentBits : Nat
  fractionBits : Nat

namespace BinaryFormat

/-- The format of 16 bits. -/
def half : BinaryFormat := ⟨5, 10⟩

/-- The format of 32 bits. -/
def single : BinaryFormat := ⟨8, 23⟩

/-- The exponent that stands for the power zero. -/
def bias (f : BinaryFormat) : Nat := Nat.pow 2 (f.exponentBits - 1) - 1

/-- The pattern of the sign bit. -/
def signBit (f : BinaryFormat) : Nat := Nat.pow 2 (f.exponentBits + f.fractionBits)

/-- The pattern of a finite double in a shorter format, without its sign; `none` if the format does
not hold the number. -/
def narrowMagnitude? (f : BinaryFormat) (x : Binary64) : Option Nat :=
  let power : Int := (x.exponent : Int) - 1023
  let lowest : Int := 1 - (f.bias : Int)
  if x.isZero then some 0
  else if x.exponent = 0 ∨ (f.bias : Int) < power then none
  else if lowest ≤ power then
    let dropped := 52 - f.fractionBits
    if x.fraction % Nat.pow 2 dropped = 0 then
      some ((power + f.bias).toNat * Nat.pow 2 f.fractionBits + x.fraction / Nat.pow 2 dropped)
    else none
  else
    let dropped := 52 - f.fractionBits + (lowest - power).toNat
    let unit := Nat.pow 2 dropped
    if dropped ≤ 52 ∧ x.significand % unit = 0 then some (x.significand / unit) else none

/-- The pattern of a finite double in a shorter format, if that format holds the number exactly. -/
def narrow? (f : BinaryFormat) (x : Binary64) : Option Nat :=
  (f.narrowMagnitude? x).map fun m => if x.negative then f.signBit + m else m

/-- The double that a pattern denotes. -/
def widen (f : BinaryFormat) (pattern : Nat) : Binary64 :=
  let negative := decide (pattern / f.signBit % 2 = 1)
  let exponent := pattern / Nat.pow 2 f.fractionBits % Nat.pow 2 f.exponentBits
  let fraction := pattern % Nat.pow 2 f.fractionBits
  if exponent = Nat.pow 2 f.exponentBits - 1 then
    if fraction = 0 then .infinity negative else .nan
  else if exponent = 0 then
    if fraction = 0 then .zero negative
    else
      let top := fraction.log2
      .ofMagnitude negative
        ((top + 1023 + 1 - f.bias - f.fractionBits) * Binary64.fractionCount
          + (fraction - Nat.pow 2 top) * Nat.pow 2 (52 - top))
  else
    .ofMagnitude negative
      ((exponent + 1023 - f.bias) * Binary64.fractionCount
        + fraction * Nat.pow 2 (52 - f.fractionBits))

end BinaryFormat

namespace Binary64

/-- The 64 bits of a double. -/
def toBits (x : Binary64) : Nat :=
  (if x.negative then exponentCount * fractionCount else 0) + x.magnitude

/-- The double of 64 bits. -/
def ofBits (bits : Nat) : Binary64 :=
  ⟨decide (bits / (exponentCount * fractionCount) % 2 = 1),
    bits / fractionCount % exponentCount, bits % fractionCount,
    mod_exponentCount_lt _, mod_fractionCount_lt _⟩

/-- Every double is the double of its bits. -/
theorem ofBits_toBits (x : Binary64) : ofBits x.toBits = x := by
  obtain ⟨negative, exponent, fraction, he, hf⟩ := x
  have hexponent : exponent < 2048 := he
  have hfraction : fraction < 4503599627370496 := hf
  cases negative
  · simp only [toBits, magnitude, ofBits, mk.injEq, Bool.false_eq_true, if_false,
      decide_eq_false_iff_not]
    simp only [exponentCount, fractionCount]
    omega
  · simp only [toBits, magnitude, ofBits, mk.injEq, if_true, decide_eq_true_eq]
    simp only [exponentCount, fractionCount]
    omega

end Binary64
end WebOfThings
