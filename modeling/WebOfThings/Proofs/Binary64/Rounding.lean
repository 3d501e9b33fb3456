import Mathlib.Data.Int.Log
import Mathlib.Data.Rat.Floor
import Mathlib.Tactic.Positivity
import WebOfThings.Binary64.Decimal

/-!
# Decimals that read back as their double

The double nearest to a quotient depends on the quotient only: not on a common factor of its two sides
(`ofRatio_mul_right`), nor on whether zeros stand among the digits of a decimal or are counted by its
exponent (`ofDecimal_mul_pow`). A double is the double nearest to itself (`ofRatio_ratio`). So the digits
that are chosen for the text of a double read back as that double (`ofDecimal_shortest`), even where none of
the short candidates does and the number is written out in full.

The argument for the last statement has two branches, since the search for digits may fail. A candidate is
only taken if it reads back, so nothing is left to show for it. Written out in full, a double is an integer
or a fraction with a power of five, and its decimal is the quotient that the double stands for, up to a
common factor: integers and fractions are the two cases (`ofDecimal_integer`, `ofDecimal_fraction`). The
bounds that this needs, on the significand and on the scale, follow from the format.
-/

namespace WebOfThings.Binary64

/-! ## The exponent of a quotient -/

section

variable {num den : Nat} (hnum : num ≠ 0) (hden : den ≠ 0)

include hden

/-- A quotient reaches a power of two if it is not below it. -/
theorem reaches_iff {e : Int} : reaches num den e = true ↔ (2 : ℚ) ^ e ≤ num / den := by
  have hden' : (0 : ℚ) < den := Nat.cast_pos.2 (Nat.pos_of_ne_zero hden)
  unfold reaches
  split
  · next he =>
    obtain ⟨k, rfl⟩ := Int.eq_ofNat_of_zero_le he
    rw [decide_eq_true_eq, Int.toNat_natCast, zpow_natCast, le_div_iff₀ hden', mul_comm,
      Nat.pow_eq]
    exact_mod_cast Iff.rfl
  · next he =>
    obtain ⟨k, rfl⟩ : ∃ k : Nat, e = -k := ⟨(-e).toNat, by omega⟩
    rw [decide_eq_true_eq, neg_neg, Int.toNat_natCast, zpow_neg, zpow_natCast, Nat.pow_eq,
      inv_le_iff_one_le_mul₀ (by positivity), div_mul_eq_mul_div, le_div_iff₀ hden', one_mul]
    exact_mod_cast Iff.rfl

include hnum

/-- The exponent is that of the power of two at or below the quotient. -/
theorem binaryExponent_eq_log : binaryExponent num den = Int.log 2 ((num : ℚ) / den) := by
  have hpos : (0 : ℚ) < num / den :=
    div_pos (Nat.cast_pos.2 (Nat.pos_of_ne_zero hnum)) (Nat.cast_pos.2 (Nat.pos_of_ne_zero hden))
  have hle : ∀ e : Int, (2 : ℚ) ^ e ≤ num / den ↔ e ≤ Int.log 2 ((num : ℚ) / den) := fun e => by
    exact_mod_cast Int.zpow_le_iff_le_log (b := 2) (by decide) hpos
  have hlow : (2 : ℚ) ^ ((num.log2 : Int) - den.log2 - 1) ≤ num / den := by
    have hnumLow : (2 : ℚ) ^ num.log2 ≤ num := by exact_mod_cast Nat.log2_self_le hnum
    have hdenHigh : (den : ℚ) ≤ 2 ^ (den.log2 + 1) := by exact_mod_cast Nat.lt_log2_self.le
    rw [sub_sub, zpow_sub₀ two_ne_zero, zpow_natCast]
    exact div_le_div₀ (Nat.cast_nonneg _) hnumLow (Nat.cast_pos.2 (Nat.pos_of_ne_zero hden))
      (by exact_mod_cast hdenHigh)
  have hhigh : (num : ℚ) / den < 2 ^ ((num.log2 : Int) - den.log2 + 1) := by
    have hnumHigh : (num : ℚ) < 2 ^ (num.log2 + 1) := by exact_mod_cast Nat.lt_log2_self
    have hdenLow : (2 : ℚ) ^ den.log2 ≤ den := by exact_mod_cast Nat.log2_self_le hden
    rw [sub_add_eq_add_sub, zpow_sub₀ two_ne_zero, zpow_natCast]
    exact div_lt_div₀ (by exact_mod_cast hnumHigh) hdenLow (zpow_pos two_pos _).le (by positivity)
  have hlow' := (hle _).1 hlow
  have hhigh' := not_le.2 hhigh
  rw [hle] at hhigh'
  simp only [binaryExponent]
  split
  · next h =>
    have h' := (hle _).1 ((reaches_iff hden).1 h)
    omega
  · next h =>
    have h' := mt (reaches_iff hden).2 h
    rw [hle] at h'
    omega

/-- The binary exponent is the one of the power of two below the quotient. -/
theorem binaryExponent_eq {e : Int} (hlow : (2 : ℚ) ^ e ≤ num / den)
    (hhigh : (num : ℚ) / den < 2 ^ (e + 1)) : binaryExponent num den = e := by
  have hpos : (0 : ℚ) < num / den := lt_of_lt_of_le (zpow_pos two_pos _) hlow
  rw [binaryExponent_eq_log hnum hden]
  have h1 : e ≤ Int.log 2 ((num : ℚ) / den) :=
    (Int.zpow_le_iff_le_log (by decide) hpos).1 (by exact_mod_cast hlow)
  have h2 : Int.log 2 ((num : ℚ) / den) < e + 1 :=
    (Int.lt_zpow_iff_log_lt (by decide) hpos).1 (by exact_mod_cast hhigh)
  omega

end

/-! ## Common factors -/

/-- A quotient is rounded the same after it is expanded. -/
theorem roundQuotient_mul_right {num den c : Nat} (hc : 0 < c) :
    roundQuotient (num * c) (den * c) = roundQuotient num den := by
  have hrest : 2 * (num % den * c) = 2 * (num % den) * c := (Nat.mul_assoc ..).symm
  simp only [roundQuotient, Nat.mul_div_mul_right _ _ hc, Nat.mul_mod_mul_right, hrest,
    Nat.mul_lt_mul_right hc]

/-- What is divisible is divided exactly. -/
theorem roundQuotient_mul_self {n den : Nat} (hden : 0 < den) : roundQuotient (n * den) den = n := by
  simp [roundQuotient, Nat.mul_div_cancel _ hden, hden]

/-- A quotient has the same binary exponent after it is expanded. -/
theorem binaryExponent_mul_right {num den c : Nat} (hnum : num ≠ 0) (hden : den ≠ 0) (hc : c ≠ 0) :
    binaryExponent (num * c) (den * c) = binaryExponent num den := by
  rw [binaryExponent_eq_log (Nat.mul_ne_zero hnum hc) (Nat.mul_ne_zero hden hc),
    binaryExponent_eq_log hnum hden, Nat.cast_mul, Nat.cast_mul,
    mul_div_mul_right _ _ (Nat.cast_ne_zero.2 hc)]

/-- The nearest magnitude depends on the value of the quotient only. -/
theorem nearestMagnitude_mul_right {num den c : Nat} (hnum : num ≠ 0) (hden : den ≠ 0) (hc : c ≠ 0) :
    nearestMagnitude (num * c) (den * c) = nearestMagnitude num den := by
  have hpos := Nat.pos_of_ne_zero hc
  simp only [nearestMagnitude, binaryExponent_mul_right hnum hden hc]
  congr 1
  split
  · rw [Nat.mul_right_comm, roundQuotient_mul_right hpos]
  · rw [Nat.mul_right_comm, roundQuotient_mul_right hpos]

/-- A common factor of the quotient plays no part. -/
theorem ofRatio_mul_right {negative : Bool} {num den c : Nat} (hden : den ≠ 0) (hc : c ≠ 0) :
    ofRatio negative (num * c) (den * c) = ofRatio negative num den := by
  by_cases hnum : num = 0
  · simp [ofRatio, hnum]
  · rw [ofRatio, ofRatio, if_neg (Nat.mul_ne_zero hnum hc), if_neg hnum,
      nearestMagnitude_mul_right hnum hden hc]

/-! ## Decimals -/

/-- A zero at the end is one more digit. -/
theorem digitCount_mul_ten {n : Nat} (hn : n ≠ 0) :
    Decimal.digitCount (n * 10) = Decimal.digitCount n + 1 := by
  rw [Decimal.digitCount, if_neg (by omega), Nat.toDigits_of_base_le (by decide) (by omega),
    Nat.mul_div_cancel _ (by decide), List.length_append, Decimal.digitCount, if_neg hn]
  rfl

/-- Whether a zero stands among the digits or is counted by the exponent plays no part. -/
theorem ofDecimal_mul_ten (negative : Bool) (n : Nat) (e : Int) :
    ofDecimal negative ⟨n * 10, e⟩ = ofDecimal negative ⟨n, e + 1⟩ := by
  by_cases hn : n = 0
  · simp [ofDecimal, hn]
  have hsize : ((Decimal.digitCount (n * 10) : Nat) : Int) + e = Decimal.digitCount n + (e + 1) := by
    rw [digitCount_mul_ten hn]
    omega
  have hvalue : (if 0 ≤ e then ofRatio negative (n * 10 * Nat.pow 10 e.toNat) 1
      else ofRatio negative (n * 10) (Nat.pow 10 (-e).toNat)) =
      if 0 ≤ e + 1 then ofRatio negative (n * Nat.pow 10 (e + 1).toNat) 1
      else ofRatio negative n (Nat.pow 10 (-(e + 1)).toNat) := by
    rcases lt_trichotomy e (-1) with he | rfl | he
    · rw [if_neg (by omega), if_neg (by omega), show (-e).toNat = (-(e + 1)).toNat + 1 by omega]
      exact ofRatio_mul_right (c := 10) (pow_ne_zero _ (by decide)) (by decide)
    · rw [if_neg (by decide), if_pos (by decide)]
      show ofRatio negative (n * 10) (1 * 10) = ofRatio negative (n * 1) 1
      rw [mul_one]
      exact ofRatio_mul_right (by decide) (by decide)
    · rw [if_pos (by omega), if_pos (by omega), show (e + 1).toNat = e.toNat + 1 by omega]
      congr 1
      exact (mul_assoc n 10 _).trans (congrArg (n * ·) (pow_succ' 10 e.toNat).symm)
  have hn' : n * 10 ≠ 0 := by omega
  simp only [ofDecimal, hsize, hvalue, hn, hn', if_false]

/-- Zeros at the end of the digits may be moved to the exponent. -/
theorem ofDecimal_mul_pow (negative : Bool) (n k : Nat) (e : Int) :
    ofDecimal negative ⟨n * 10 ^ k, e⟩ = ofDecimal negative ⟨n, e + k⟩ := by
  induction k generalizing e with
  | zero => simp
  | succ k ih =>
    rw [pow_succ, ← mul_assoc, ofDecimal_mul_ten, ih]
    congr 2
    omega

/-! ## Doubles are the nearest to themselves -/

/-- The quotient that a double stands for has a denominator. -/
theorem ratio_snd_ne_zero (x : Binary64) : x.ratio.2 ≠ 0 := by
  unfold ratio
  split
  · exact Nat.one_ne_zero
  · exact pow_ne_zero _ (by decide)

/-- A double stands for zero if its significand is zero. -/
theorem ratio_fst_eq_zero_iff {x : Binary64} : x.ratio.1 = 0 ↔ x.significand = 0 := by
  unfold ratio
  split
  · rw [Nat.mul_eq_zero]
    exact or_iff_left (pow_ne_zero _ (by decide))
  · rfl

/-- The quotient of a double is its significand times a power of two. -/
theorem ratio_eq (x : Binary64) : (x.ratio.1 : ℚ) / x.ratio.2 = x.significand * 2 ^ x.scale := by
  unfold ratio
  split
  · next h =>
    obtain ⟨k, hk⟩ := Int.eq_ofNat_of_zero_le h
    simp [hk]
  · next h =>
    obtain ⟨k, hk⟩ : ∃ k : Nat, x.scale = -k := ⟨(-x.scale).toNat, by omega⟩
    simp [hk, div_eq_mul_inv]

/-- The significand of a normal double has 53 bits, that of a subnormal one fewer; there is no scale below
that of the subnormal ones. -/
theorem significand_scale {x : Binary64} (hx : x.significand ≠ 0) :
    max ((x.significand.log2 : Int) + x.scale - 52) (-1074) = x.scale := by
  have hfraction := x.fraction_lt
  unfold scale
  by_cases he : x.exponent = 0
  · have hsignificand : x.significand = x.fraction := if_pos he
    have hlog : x.significand.log2 < 52 := (Nat.log2_lt hx).2 (by rw [hsignificand]; exact hfraction)
    omega
  · have hsignificand : x.significand = fractionCount + x.fraction := if_neg he
    have hlog : x.significand.log2 = 52 := by
      refine (Nat.log2_eq_iff hx).2 ?_
      rw [hsignificand]
      simp only [fractionCount] at hfraction ⊢
      omega
    omega

/-- The binary exponent of a double is told by its significand and its scale. -/
theorem binaryExponent_ratio {x : Binary64} (hx : x.significand ≠ 0) :
    binaryExponent x.ratio.1 x.ratio.2 = x.significand.log2 + x.scale := by
  have hnum : x.ratio.1 ≠ 0 := mt ratio_fst_eq_zero_iff.1 hx
  have hlow : (2 : ℚ) ^ x.significand.log2 ≤ x.significand := by exact_mod_cast Nat.log2_self_le hx
  have hhigh : (x.significand : ℚ) < 2 ^ (x.significand.log2 + 1) := by exact_mod_cast Nat.lt_log2_self
  have hscale : (0 : ℚ) < 2 ^ x.scale := zpow_pos two_pos _
  refine binaryExponent_eq hnum x.ratio_snd_ne_zero ?_ ?_
  · rw [ratio_eq, zpow_add₀ two_ne_zero, zpow_natCast]
    exact mul_le_mul_of_nonneg_right hlow hscale.le
  · rw [ratio_eq, add_right_comm, zpow_add₀ two_ne_zero]
    exact mul_lt_mul_of_pos_right (by exact_mod_cast hhigh) hscale

/-- A finite double is the double nearest to it. -/
theorem ofRatio_ratio {x : Binary64} (h : x.isFinite = true) :
    ofRatio x.negative x.ratio.1 x.ratio.2 = x := by
  by_cases hx : x.significand = 0
  · have hnum : x.ratio.1 = 0 := ratio_fst_eq_zero_iff.2 hx
    obtain ⟨negative, exponent, fraction, hexponent, hfraction⟩ := x
    have hzero : exponent = 0 ∧ fraction = 0 := by
      simp only [significand] at hx
      split at hx
      · next he => exact ⟨he, hx⟩
      · simp [fractionCount] at hx
    obtain ⟨rfl, rfl⟩ := hzero
    rw [ofRatio, if_pos hnum]
    rfl
  · have hnum : x.ratio.1 ≠ 0 := mt ratio_fst_eq_zero_iff.1 hx
    -- Rounding at the scale of `x` drops nothing, and that is the scale at which a double is rounded.
    have hsignificand : (if 0 ≤ x.scale then roundQuotient x.ratio.1 (x.ratio.2 * Nat.pow 2 x.scale.toNat)
        else roundQuotient (x.ratio.1 * Nat.pow 2 (-x.scale).toNat) x.ratio.2) = x.significand := by
      have hpow : ∀ k, 0 < Nat.pow 2 k := Nat.two_pow_pos
      unfold ratio
      split
      · rw [Nat.one_mul, roundQuotient_mul_self (hpow _)]
      · rw [roundQuotient_mul_self (hpow _)]
    have hmagnitude : (x.scale + 1074).toNat * fractionCount + x.significand = x.magnitude := by
      unfold scale significand magnitude
      split
      · next he => simp [he]
      · next he =>
        have hexponent : (max 1 (x.exponent : Int) - 1075 + 1074).toNat + 1 = x.exponent := by omega
        rw [← add_assoc, ← Nat.succ_mul, Nat.succ_eq_add_one, hexponent]
    rw [ofRatio, if_neg hnum, nearestMagnitude, binaryExponent_ratio hx]
    simp only [significand_scale hx, hsignificand, hmagnitude]
    exact ofMagnitude_magnitude h

/-! ## Decimals that read back -/

/-- A number below a power of ten has no more digits than it. -/
theorem digitCount_le {n k : Nat} (hk : 0 < k) (h : n < 10 ^ k) : Decimal.digitCount n ≤ k := by
  unfold Decimal.digitCount
  split
  · exact Nat.zero_le k
  · exact (Nat.length_toDigits_le_iff (by decide) hk).2 h

/-- A number is below the power of ten with as many zeros as it has digits. -/
theorem lt_pow_digitCount {n : Nat} (hn : n ≠ 0) : n < 10 ^ Decimal.digitCount n := by
  rw [Decimal.digitCount, if_neg hn]
  exact (Nat.length_toDigits_le_iff (by decide) Nat.length_toDigits_pos).1 (Nat.le_refl _)

/-- A significand has 53 bits. -/
theorem significand_lt (x : Binary64) : x.significand < 2 ^ 53 := by
  have hfraction := x.fraction_lt
  unfold significand
  simp only [fractionCount] at hfraction ⊢
  split <;> omega

/-- The scale of a finite double is in the range of its format. -/
theorem scale_le {x : Binary64} (h : x.isFinite = true) : -1074 ≤ x.scale ∧ x.scale ≤ 971 := by
  simp only [isFinite, decide_eq_true_eq] at h
  unfold scale
  omega

/-- Decimals of moderate size are expanded. -/
theorem ofDecimal_of_size {negative : Bool} {n : Nat} {e : Int} (hn : n ≠ 0)
    (hlow : -400 ≤ (Decimal.digitCount n : Int) + e) (hhigh : (Decimal.digitCount n : Int) + e ≤ 400) :
    ofDecimal negative ⟨n, e⟩ =
      if 0 ≤ e then ofRatio negative (n * 10 ^ e.toNat) 1 else ofRatio negative n (10 ^ (-e).toNat) := by
  simp only [ofDecimal]
  rw [if_neg hn, if_neg (Int.not_lt.2 hlow), if_neg (Int.not_lt.2 hhigh)]
  rfl

section

variable {x : Binary64} {k : Nat} (h : x.isFinite = true) (hx : x.significand ≠ 0)

include h hx

/-- A double that is an integer is the nearest one to its exact decimal. -/
theorem ofDecimal_integer (hk : x.scale = k) : ofDecimal x.negative ⟨x.significand * 2 ^ k, 0⟩ = x := by
  have hround := ofRatio_ratio h
  have hle := (scale_le h).2
  have hcount : Decimal.digitCount (x.significand * 2 ^ k) ≤ 400 := by
    refine digitCount_le (by decide) ?_
    calc x.significand * 2 ^ k < 2 ^ 53 * 2 ^ 971 :=
          Nat.mul_lt_mul_of_lt_of_le x.significand_lt (Nat.pow_le_pow_right (by decide) (by omega))
            (Nat.two_pow_pos _)
      _ ≤ 10 ^ 400 := by decide +kernel
  have hratio : x.ratio = (x.significand * 2 ^ k, 1) := by
    rw [ratio, if_pos (by omega), hk]
    rfl
  rw [hratio] at hround
  rw [ofDecimal_of_size (Nat.mul_ne_zero hx (pow_ne_zero _ (by decide))) (by omega) (by omega),
    if_pos (Int.le_refl 0)]
  simpa using hround

/-- So is a double with a fraction. -/
theorem ofDecimal_fraction (hk : x.scale = -k) (hpos : 0 < k) :
    ofDecimal x.negative ⟨x.significand * 5 ^ k, -k⟩ = x := by
  have hround := ofRatio_ratio h
  have hle := (scale_le h).1
  have hne : x.significand * 5 ^ k ≠ 0 := Nat.mul_ne_zero hx (pow_ne_zero _ (by decide))
  have hhigh : Decimal.digitCount (x.significand * 5 ^ k) ≤ 16 + k := by
    refine digitCount_le (by omega) ?_
    calc x.significand * 5 ^ k < 10 ^ 16 * 10 ^ k :=
          Nat.mul_lt_mul_of_lt_of_le (x.significand_lt.trans (by decide))
            (Nat.pow_le_pow_left (by decide) k) (pow_pos (by decide) _)
      _ = 10 ^ (16 + k) := (pow_add 10 16 k).symm
  -- The significand times `5 ^ k` may be much smaller than `10 ^ k`, but by 400 digits at most.
  have hlow : k ≤ Decimal.digitCount (x.significand * 5 ^ k) + 400 := by
    refine (Nat.pow_le_pow_iff_right (a := 10) (by decide)).1 ?_
    calc 10 ^ k = 5 ^ k * 2 ^ k := mul_pow 5 2 k
      _ ≤ x.significand * 5 ^ k * 10 ^ 400 :=
          Nat.mul_le_mul (Nat.le_mul_of_pos_left _ (Nat.pos_of_ne_zero hx))
            ((Nat.pow_le_pow_right (by decide) (by omega : k ≤ 1074)).trans (by decide +kernel))
      _ ≤ 10 ^ (Decimal.digitCount (x.significand * 5 ^ k) + 400) := by
          rw [pow_add]
          exact Nat.mul_le_mul_right _ (lt_pow_digitCount hne).le
  have hratio : x.ratio = (x.significand, 2 ^ k) := by
    rw [ratio, if_neg (by omega), hk, neg_neg]
    rfl
  -- As `10 ^ k` is `2 ^ k * 5 ^ k`, the factor `5 ^ k` is on both sides of the quotient.
  rw [hratio] at hround
  rw [ofDecimal_of_size hne (by omega) (by omega), if_neg (by omega), neg_neg, Int.toNat_natCast,
    show (10 : Nat) = 2 * 5 from rfl, mul_pow,
    ofRatio_mul_right (pow_ne_zero _ (by decide)) (pow_ne_zero _ (by decide))]
  exact hround

end

/-- A double written out in full reads back as that double. -/
theorem ofDecimal_exactDecimal {x : Binary64} (h : x.isFinite = true) :
    ofDecimal x.negative x.exactDecimal = x := by
  by_cases hx : x.significand = 0
  · have hround := ofRatio_ratio h
    have hdigits : x.exactDecimal.digits = 0 := by
      unfold exactDecimal
      split <;> simp [hx]
    rw [ofRatio, if_pos (ratio_fst_eq_zero_iff.2 hx)] at hround
    rw [ofDecimal, if_pos hdigits]
    exact hround
  unfold exactDecimal
  split
  · next hscale => exact ofDecimal_integer h hx (Int.toNat_of_nonneg hscale).symm
  · next hscale =>
    have hk : x.scale = -((-x.scale).toNat : Int) := by omega
    have hread := ofDecimal_fraction h hx hk (by omega)
    rwa [← hk] at hread

/-- The shortest decimal of a double reads back as that double. -/
theorem ofDecimal_shortest {x : Binary64} (h : x.isFinite = true) :
    ofDecimal x.negative x.shortest = x := by
  unfold shortest
  cases hfind : (List.range 17).findSome? fun n => x.candidate? (n + 1) with
  | none => exact ofDecimal_exactDecimal h
  | some d =>
    -- A candidate is a decimal that has been read back.
    obtain ⟨n, -, hd⟩ := List.exists_of_findSome?_eq_some hfind
    exact ofDecimal_candidate? hd

/-- A double is zero if its significand is. -/
theorem isZero_iff {x : Binary64} : x.isZero = true ↔ x.significand = 0 := by
  unfold isZero significand
  by_cases he : x.exponent = 0
  · simp [he]
  · simp [he, fractionCount]

/-- The shortest decimal of a double other than zero is not zero. -/
theorem shortest_digits_ne_zero {x : Binary64} (h : x.isFinite = true) (hx : x.significand ≠ 0) :
    x.shortest.digits ≠ 0 := by
  intro hdigits
  have hread := ofDecimal_shortest h
  rw [ofDecimal, if_pos hdigits] at hread
  exact hx (by rw [← hread]; rfl)

end WebOfThings.Binary64
