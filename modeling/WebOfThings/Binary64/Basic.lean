/-!
# Double precision numbers

A double is its sign, its biased exponent and its fraction. Everything that has to be exact about doubles
(their decimal text, their order, their shorter encodings) is computed from these three numbers in integer
arithmetic, so that it can be reasoned about. The bounds of exponent and fraction are part of the type:
there is no double that is not one.

The view that the proofs use is `magnitude`: the finite doubles without their signs, counted from zero
upwards. The numbers from one magnitude to the next have no gap, rounding up carries from the fraction into
the exponent by itself, and infinity is simply where the count ends. `significand` and `scale` give the same
number as `m * 2 ^ q` for arithmetic.

Comparison is that of numbers: both zeros are equal, and NaN is neither equal to nor less than anything.
Values of the JSON kind hold finite doubles only; the others occur while a text or an item is read and in
bounds that a draft is given.

Main statements: `ofMagnitude_magnitude` (a finite double is determined by its sign and its position among
all doubles) and `isFinite_ofMagnitude`.
-/

namespace WebOfThings

/-- How many biased exponents there are, `2 ^ 11`. -/
def Binary64.exponentCount : Nat := 2048

/-- How many fractions there are to each exponent, `2 ^ 52`. -/
def Binary64.fractionCount : Nat := 4503599627370496

theorem Binary64.mod_exponentCount_lt (n : Nat) : n % exponentCount < exponentCount :=
  Nat.mod_lt n (by decide)

theorem Binary64.mod_fractionCount_lt (n : Nat) : n % fractionCount < fractionCount :=
  Nat.mod_lt n (by decide)

/-- A number in the binary interchange format of 64 bits. -/
structure Binary64 where
  /-- The sign bit. -/
  negative : Bool
  /-- The biased exponent; 0 holds zero and the subnormal numbers, 2047 infinity and NaN. -/
  exponent : Nat
  /-- The fraction, without the leading bit of the significand. -/
  fraction : Nat
  exponent_lt : exponent < Binary64.exponentCount
  fraction_lt : fraction < Binary64.fractionCount
  deriving DecidableEq

namespace Binary64

/-- Zero with a sign. -/
def zero (negative : Bool) : Binary64 := ⟨negative, 0, 0, by decide, by decide⟩

/-- Infinity with a sign. -/
def infinity (negative : Bool) : Binary64 := ⟨negative, 2047, 0, by decide, by decide⟩

/-- The quiet NaN without payload. -/
def nan : Binary64 := ⟨false, 2047, fractionCount / 2, by decide, by decide⟩

instance : Inhabited Binary64 := ⟨zero false⟩

/-- Whether the number is neither infinite nor NaN. -/
def isFinite (x : Binary64) : Bool := x.exponent < 2047

/-- Whether the number is NaN. -/
def isNaN (x : Binary64) : Bool := x.exponent = 2047 && x.fraction ≠ 0

/-- Whether the number is zero, of either sign. -/
def isZero (x : Binary64) : Bool := x.exponent = 0 && x.fraction = 0

/-- The position of the absolute value among all non-negative doubles, zero first. It is also the
number whose binary digits are the double without its sign. -/
def magnitude (x : Binary64) : Nat := x.exponent * fractionCount + x.fraction

/-- The first magnitude that is not finite. -/
def infiniteMagnitude : Nat := 2047 * fractionCount

/-- The double at a position, infinity where the finite doubles end. -/
def ofMagnitude (negative : Bool) (magnitude : Nat) : Binary64 :=
  if h : magnitude < infiniteMagnitude then
    ⟨negative, magnitude / fractionCount, magnitude % fractionCount, by
      simp only [infiniteMagnitude, fractionCount] at h
      simp only [exponentCount, fractionCount]
      omega, mod_fractionCount_lt magnitude⟩
  else infinity negative

/-- The integer `m` of a finite number `m * 2 ^ q`. -/
def significand (x : Binary64) : Nat :=
  if x.exponent = 0 then x.fraction else fractionCount + x.fraction

/-- The integer `q` of a finite number `m * 2 ^ q`. -/
def scale (x : Binary64) : Int := max 1 (x.exponent : Int) - 1075

/-- The place of a number in the order of the finite doubles and the infinities; both zeros share
theirs. -/
def order (x : Binary64) : Int :=
  if x.negative then -(x.magnitude : Int) else x.magnitude

/-- Strict comparison of numbers; NaN is less than nothing and nothing is less than NaN. -/
def lt (x y : Binary64) : Bool :=
  !x.isNaN && !y.isNaN && decide (x.order < y.order)

/-- Equality of numbers: the zeros are equal, NaN is not equal to itself. -/
def eqv (x y : Binary64) : Bool :=
  !x.isNaN && !y.isNaN && decide (x.order = y.order)

/-- The magnitude of a finite double is below that of infinity. -/
theorem magnitude_lt_of_isFinite {x : Binary64} (h : x.isFinite = true) :
    x.magnitude < infiniteMagnitude := by
  have hf := x.fraction_lt
  simp only [isFinite, decide_eq_true_eq] at h
  simp only [fractionCount] at hf
  simp only [magnitude, infiniteMagnitude, fractionCount]
  omega

/-- A finite double is determined by its sign and its position. -/
theorem ofMagnitude_magnitude {x : Binary64} (h : x.isFinite = true) :
    ofMagnitude x.negative x.magnitude = x := by
  have hlt := magnitude_lt_of_isFinite h
  rw [ofMagnitude, dif_pos hlt]
  obtain ⟨negative, exponent, fraction, he, hf⟩ := x
  have hfraction : fraction < 4503599627370496 := hf
  simp only [magnitude, mk.injEq, true_and]
  simp only [fractionCount]
  omega

/-- Every double with a finite position is finite. -/
theorem isFinite_ofMagnitude {negative : Bool} {m : Nat} (h : m < infiniteMagnitude) :
    (ofMagnitude negative m).isFinite = true := by
  simp only [ofMagnitude, h, dif_pos, isFinite, decide_eq_true_eq]
  simp only [infiniteMagnitude, fractionCount] at h
  simp only [fractionCount]
  omega

end Binary64
end WebOfThings
