import WebOfThings.Binary64.Decimal

/-!
# Decimals read by scaling

A decimal may be read without arithmetic on long integers: its digits are rounded to a double, and that
double is multiplied or divided by a power of ten, which is a rounded double too. The result is next to the
decimal but not always the nearest double: `1.5e-300` is read one double too low. Where digits and power are
both exact there is one rounding only, so short decimals are read as the nearest double.

This is how a numeral of a JSON text becomes a number. The digits are those that 64 bits hold, and exponents
below the finite powers of ten are divided by in two steps. Plain text goes the other way, through the
nearest double, so the same digits can be two numbers in two media types.

Products and quotients are rounded once, from the exact quotient of the two numbers.
-/

namespace WebOfThings.Binary64

/-- The double nearest to the product of two finite numbers. -/
def mul (x y : Binary64) : Binary64 :=
  ofRatio (x.negative != y.negative) (x.ratio.1 * y.ratio.1) (x.ratio.2 * y.ratio.2)

/-- The double nearest to the quotient of two finite numbers, the second not zero. -/
def div (x y : Binary64) : Binary64 :=
  ofRatio (x.negative != y.negative) (x.ratio.1 * y.ratio.2) (x.ratio.2 * y.ratio.1)

/-- The exponent of the largest power of ten that is finite. -/
def largestTen : Nat := 308

/-- The double nearest to a power of ten. -/
def powerOfTen (k : Nat) : Binary64 := ofRatio false (Nat.pow 10 k) 1

/-- A number times a power of ten. A power below the finite ones is divided by in two steps; of a
number below `2 ^ 64` nothing is left after two divisions by the largest power. -/
def scaleByTen (x : Binary64) (k : Int) : Binary64 :=
  if (largestTen : Int) < k then infinity x.negative
  else if 0 ≤ k then x.mul (powerOfTen k.toNat)
  else if (-k).toNat ≤ largestTen then x.div (powerOfTen (-k).toNat)
  else if (-k).toNat ≤ 2 * largestTen then
    (x.div (powerOfTen largestTen)).div (powerOfTen ((-k).toNat - largestTen))
  else zero x.negative

/-- The double read from a decimal by scaling its digits, which are below `2 ^ 64`. -/
def ofScaled (negative : Bool) (d : Decimal) : Binary64 :=
  if d.digits = 0 then zero negative else (ofRatio negative d.digits 1).scaleByTen d.exponent

end WebOfThings.Binary64
