import WebOfThings.Binary64.Basic

/-!
# Decimal text of doubles

From a decimal to the nearest double, ties to the even one, and from a finite double to the shortest decimal
that reads back as that double. Both are computed in exact integer arithmetic.

A decimal is a quotient of integers, and `nearestMagnitude` finds its double: the power of two below the
quotient gives the scale, the quotient in units of that scale is rounded to an integer, and scale and
integer together are a magnitude. Subnormal numbers are the same computation with the scale held at its
lowest value. Decimals far outside of the range are decided by the number of their digits, so that no power
of ten is ever expanded in vain.

The digits of a double are found by trying 1, 2, … 17 digits: of every length only the two decimals next to
the number can read back as it, the first length with a hit wins, and of two hits the nearer. This is the
shortest text that the printer of numbers promises. If no length had a hit, the number would be written out
in full.

Main statement: `ofDecimal_candidate?` (what is chosen reads back).
-/

namespace WebOfThings

/-- The number `digits * 10 ^ exponent`. -/
structure Decimal where
  digits : Nat
  exponent : Int
  deriving DecidableEq, Repr

/-- The number that a sequence of decimal digits denotes. -/
def Decimal.ofDigits (s : List Char) : Nat :=
  s.foldl (fun n c => 10 * n + (c.toNat - 48)) 0

/-- How many decimal digits a number has, none for zero. -/
def Decimal.digitCount (n : Nat) : Nat :=
  if n = 0 then 0 else (Nat.toDigits 10 n).length

namespace Binary64

/-- The integer nearest to `num / den`, the even one of two. -/
def roundQuotient (num den : Nat) : Nat :=
  let low := num / den
  let rest := num % den
  if 2 * rest < den then low
  else if den < 2 * rest then low + 1
  else if low % 2 = 0 then low
  else low + 1

/-- Whether `den * 2 ^ e ≤ num`. -/
def reaches (num den : Nat) (e : Int) : Bool :=
  if 0 ≤ e then den * Nat.pow 2 e.toNat ≤ num else den ≤ num * Nat.pow 2 (-e).toNat

/-- The exponent `e` of the power of two at or below the positive quotient `num / den`. -/
def binaryExponent (num den : Nat) : Int :=
  let e : Int := (num.log2 : Int) - den.log2
  if reaches num den e then e else e - 1

/-- The magnitude of the double nearest to the positive quotient `num / den`, ties to the even
significand; it counts on past the finite ones. -/
def nearestMagnitude (num den : Nat) : Nat :=
  let scale : Int := max (binaryExponent num den - 52) (-1074)
  let significand :=
    if 0 ≤ scale then roundQuotient num (den * Nat.pow 2 scale.toNat)
    else roundQuotient (num * Nat.pow 2 (-scale).toNat) den
  (scale + 1074).toNat * fractionCount + significand

/-- The double nearest to the quotient `num / den`, infinity past the finite range. -/
def ofRatio (negative : Bool) (num den : Nat) : Binary64 :=
  if num = 0 then zero negative else ofMagnitude negative (nearestMagnitude num den)

/-- The double nearest to a decimal. Decimals far outside of the range are not expanded. -/
def ofDecimal (negative : Bool) (d : Decimal) : Binary64 :=
  let size : Int := Decimal.digitCount d.digits + d.exponent
  if d.digits = 0 then zero negative
  else if size < -400 then zero negative
  else if 400 < size then infinity negative
  else if 0 ≤ d.exponent then ofRatio negative (d.digits * Nat.pow 10 d.exponent.toNat) 1
  else ofRatio negative d.digits (Nat.pow 10 (-d.exponent).toNat)

/-- The double nearest to an integer. -/
def ofInt (n : Int) : Binary64 :=
  ofRatio (n < 0) n.natAbs 1

/-- The absolute value of a finite number as a quotient. -/
def ratio (x : Binary64) : Nat × Nat :=
  if 0 ≤ x.scale then (x.significand * Nat.pow 2 x.scale.toNat, 1)
  else (x.significand, Nat.pow 2 (-x.scale).toNat)

/-- The exponent `e` of the power of ten at or below the positive quotient `num / den`. -/
def decimalExponent (num den : Nat) : Int :=
  if den ≤ num then (Decimal.digitCount (num / den) : Int) - 1
  else
    let places := Decimal.digitCount (den / num)
    if den ≤ num * Nat.pow 10 (places - 1) then 1 - (places : Int) else -(places : Int)

/-- The quotient `num / den` divided by `10 ^ k`. -/
def scaleBy (num den : Nat) (k : Int) : Nat × Nat :=
  if 0 ≤ k then (num, den * Nat.pow 10 k.toNat) else (num * Nat.pow 10 (-k).toNat, den)

/-- Whether a decimal reads back as the absolute value of `x`. -/
def readsBack (x : Binary64) (d : Decimal) : Bool :=
  decide ((ofDecimal x.negative d) = x)

/-- The decimal of `n` digits next to `x` that reads back as it, the nearer one if both
neighbours do, and of two equally near ones the even one. -/
def candidate? (x : Binary64) (n : Nat) : Option Decimal :=
  let (num, den) := x.ratio
  let k := decimalExponent num den - (n - 1 : Nat)
  let (num, den) := scaleBy num den k
  let low : Decimal := ⟨num / den, k⟩
  let high : Decimal := ⟨num / den + 1, k⟩
  if x.readsBack low then
    if x.readsBack high && decide (roundQuotient num den = high.digits) then some high
    else some low
  else if x.readsBack high then some high
  else none

/-- A finite number written out in full. -/
def exactDecimal (x : Binary64) : Decimal :=
  if 0 ≤ x.scale then ⟨x.significand * Nat.pow 2 x.scale.toNat, 0⟩
  else ⟨x.significand * Nat.pow 5 (-x.scale).toNat, x.scale⟩

/-- The shortest decimal that reads back as a finite number. -/
def shortest (x : Binary64) : Decimal :=
  ((List.range 17).findSome? fun n => x.candidate? (n + 1)).getD x.exactDecimal

/-- What is chosen reads back. -/
theorem ofDecimal_candidate? {x : Binary64} {n : Nat} {d : Decimal}
    (h : x.candidate? n = some d) : ofDecimal x.negative d = x := by
  unfold candidate? at h
  generalize x.ratio = r at h
  obtain ⟨num, den⟩ := r
  simp only at h
  split at h
  · next hlow =>
    split at h
    · next hhigh =>
      simp only [Bool.and_eq_true] at hhigh
      cases h
      exact of_decide_eq_true hhigh.1
    · cases h
      exact of_decide_eq_true hlow
  · split at h
    · next hhigh =>
      cases h
      exact of_decide_eq_true hhigh
    · cases h

end Binary64
end WebOfThings
