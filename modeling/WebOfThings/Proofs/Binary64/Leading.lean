import Mathlib.Algebra.Order.Floor.Semifield
import WebOfThings.Proofs.Binary64.Rounding

/-!
# The leading digit of a double

The decimals that are tried for the text of a double have their first digit where the double has it, but for
one that is rounded up to the next power of ten (`leading_candidate?`). So the place of the first digit that
is written tells how large the double is, and for a power of ten that is itself a double it tells so exactly
(`leading_shortest_iff`).

`Decimal` and the search for digits work with natural numbers and integers. The proofs go through the
integer logarithm of a quotient of rationals (`log_eq`, `decimalExponent_eq_log`), which turns both sides of
a comparison with a power of ten into the same number. The one number for which rounding up could make a
difference is `10 ^ 16`, where the printer of numbers goes over to exponents; since it is a double, its own
text is exact.
-/

namespace WebOfThings

/-! ## Powers of ten -/

/-- The logarithm of a number between two powers of ten. -/
theorem log_eq {q : ℚ} {e : Int} (hlow : (10 : ℚ) ^ e ≤ q) (hhigh : q < 10 ^ (e + 1)) : Int.log 10 q = e := by
  have hpos : 0 < q := lt_of_lt_of_le (zpow_pos (by norm_num) _) hlow
  have h1 : e ≤ Int.log 10 q := (Int.zpow_le_iff_le_log (by decide) hpos).1 (by exact_mod_cast hlow)
  have h2 : Int.log 10 q < e + 1 := (Int.lt_zpow_iff_log_lt (by decide) hpos).1 (by exact_mod_cast hhigh)
  omega

/-- Scaling by a power of ten moves the logarithm. -/
theorem log_mul_zpow {q : ℚ} (hq : 0 < q) (k : Int) : Int.log 10 (q * 10 ^ k) = Int.log 10 q + k := by
  have hten : (0 : ℚ) < 10 ^ k := zpow_pos (by norm_num) _
  have hlow := Int.zpow_log_le_self (b := 10) (by decide) hq
  have hhigh := Int.lt_zpow_succ_log_self (b := 10) (by decide) q
  push_cast at hlow hhigh
  refine log_eq ?_ ?_
  · rw [zpow_add₀ (by norm_num)]
    exact mul_le_mul_of_nonneg_right hlow hten.le
  · rw [add_right_comm, zpow_add₀ (by norm_num)]
    exact mul_lt_mul_of_pos_right hhigh hten

/-- A quotient is compared with a power of ten by comparing natural numbers. -/
theorem zpow_neg_le_div_iff {num den : Nat} (hden : den ≠ 0) (k : Nat) :
    (10 : ℚ) ^ (-(k : Int)) ≤ num / den ↔ den ≤ num * 10 ^ k := by
  have hden' : (0 : ℚ) < den := Nat.cast_pos.2 (Nat.pos_of_ne_zero hden)
  rw [zpow_neg, zpow_natCast, inv_le_iff_one_le_mul₀ (by positivity), div_mul_eq_mul_div, le_div_iff₀ hden',
    one_mul]
  exact_mod_cast Iff.rfl

namespace Decimal

/-- The number of digits of a number is told by its logarithm. -/
theorem digitCount_eq_log {n : Nat} (hn : n ≠ 0) : digitCount n = Nat.log 10 n + 1 := by
  have hlength : digitCount n = (Nat.toDigits 10 n).length := if_neg hn
  have hpos : 0 < (Nat.toDigits 10 n).length := Nat.length_toDigits_pos
  refine le_antisymm ?_ ?_
  · rw [hlength, Nat.length_toDigits_le_iff (by decide) (Nat.succ_pos _)]
    exact Nat.lt_pow_succ_log_self (by decide) n
  · rw [hlength, Nat.succ_le_iff]
    exact Nat.log_lt_of_lt_pow hn ((Nat.length_toDigits_le_iff (by decide) hpos).1 (Nat.le_refl _))

/-- The place of the first digit: the exponent of its power of ten. -/
def leading (d : Decimal) : Int := digitCount d.digits + d.exponent - 1

/-- The number that a decimal stands for. -/
def value (d : Decimal) : ℚ := d.digits * 10 ^ d.exponent

/-- The exponent of the first digit of a decimal is its logarithm. -/
theorem leading_eq_log {d : Decimal} (hd : d.digits ≠ 0) : d.leading = Int.log 10 d.value := by
  rw [value, log_mul_zpow (Nat.cast_pos.2 (Nat.pos_of_ne_zero hd)), Int.log_natCast, leading,
    digitCount_eq_log hd]
  omega

end Decimal

namespace Binary64

/-! ## The exponent of a quotient -/

/-- The exponent is that of the power of ten at or below the quotient. -/
theorem decimalExponent_eq_log {num den : Nat} (hnum : num ≠ 0) (hden : den ≠ 0) :
    decimalExponent num den = Int.log 10 ((num : ℚ) / den) := by
  have hden' : (0 : ℚ) < den := Nat.cast_pos.2 (Nat.pos_of_ne_zero hden)
  unfold decimalExponent
  split
  · next hle =>
    have hone : (1 : ℚ) ≤ num / den := (one_le_div hden').2 (by exact_mod_cast hle)
    rw [Int.log_of_one_le_right _ hone, Nat.floor_div_eq_div,
      Decimal.digitCount_eq_log (Nat.div_pos hle (Nat.pos_of_ne_zero hden)).ne']
    omega
  · next hlt =>
    -- Below one, the places are counted on the inverse.
    have hnumPos := Nat.pos_of_ne_zero hnum
    have hinverse : den / num ≠ 0 := (Nat.div_pos (by omega) hnumPos).ne'
    have hplaces := Decimal.digitCount_eq_log hinverse
    have hlow : num * 10 ^ Nat.log 10 (den / num) ≤ den :=
      Nat.mul_comm num _ ▸ (Nat.le_div_iff_mul_le hnumPos).1 (Nat.pow_log_le_self 10 hinverse)
    have hhigh : den < num * 10 ^ (Nat.log 10 (den / num) + 1) :=
      Nat.mul_comm num _ ▸ (Nat.div_lt_iff_lt_mul hnumPos).1 (Nat.lt_pow_succ_log_self (by decide) _)
    generalize Nat.log 10 (den / num) = p at hplaces hlow hhigh
    simp only [hplaces, Nat.add_sub_cancel, Nat.pow_eq]
    split
    · next hexact =>
      -- The number is `10 ^ (-p)` itself, and `p` is not zero as the number is below one.
      obtain ⟨m, rfl⟩ : ∃ m, p = m + 1 := by
        refine Nat.exists_eq_succ_of_ne_zero fun hp => ?_
        subst hp
        rw [pow_zero, mul_one] at hexact
        omega
      refine (log_eq ?_ ?_).symm
      · rw [show (1 : Int) - ((m + 1 + 1 : Nat) : Int) = -((m + 1 : Nat) : Int) by omega]
        exact (zpow_neg_le_div_iff hden _).2 hexact
      · rw [show (1 : Int) - ((m + 1 + 1 : Nat) : Int) + 1 = -(m : Int) by omega]
        refine not_le.1 fun h => ?_
        have h := (zpow_neg_le_div_iff hden m).1 h
        rw [pow_succ, ← mul_assoc] at hlow
        omega
    · next hexact =>
      refine (log_eq ?_ ?_).symm
      · exact (zpow_neg_le_div_iff hden _).2 hhigh.le
      · rw [show -((p + 1 : Nat) : Int) + 1 = -(p : Int) by omega]
        exact not_le.1 fun h => hexact ((zpow_neg_le_div_iff hden p).1 h)

/-- What scaling does to a quotient. -/
theorem scaleBy_eq (num den : Nat) (k : Int) :
    ((scaleBy num den k).1 : ℚ) / (scaleBy num den k).2 = num / den * 10 ^ (-k) := by
  unfold scaleBy
  split
  · next h =>
    obtain ⟨n, rfl⟩ := Int.eq_ofNat_of_zero_le h
    simp [div_mul_eq_div_div, ← div_eq_mul_inv]
  · next h =>
    obtain ⟨n, hn⟩ : ∃ n : Nat, -k = n := ⟨(-k).toNat, by omega⟩
    simp [hn, mul_div_right_comm]

/-! ## The digits of a double -/

/-- The absolute value of a finite double. -/
def absolute (x : Binary64) : ℚ := x.significand * 2 ^ x.scale

theorem absolute_pos {x : Binary64} (hx : x.significand ≠ 0) : 0 < x.absolute :=
  mul_pos (Nat.cast_pos.2 (Nat.pos_of_ne_zero hx)) (zpow_pos two_pos _)

/-- What is tried is the number cut off after so many digits, or the next one. -/
theorem candidate?_eq_some {x : Binary64} {n : Nat} {d : Decimal} (hd : x.candidate? (n + 1) = some d) :
    let k := decimalExponent x.ratio.1 x.ratio.2 - n
    let scaled := scaleBy x.ratio.1 x.ratio.2 k
    d = ⟨scaled.1 / scaled.2, k⟩ ∨ d = ⟨scaled.1 / scaled.2 + 1, k⟩ := by
  simp only [candidate?, Nat.add_sub_cancel] at hd
  split at hd
  · split at hd
    · exact .inr (Option.some.inj hd).symm
    · exact .inl (Option.some.inj hd).symm
  · split at hd
    · exact .inr (Option.some.inj hd).symm
    · cases hd

section

variable {x : Binary64} (hx : x.significand ≠ 0)

include hx

/-- The digits that are tried: as many as are asked for. -/
theorem log_lowDigits (n : Nat) :
    let scaled := scaleBy x.ratio.1 x.ratio.2 (Int.log 10 x.absolute - n)
    Nat.log 10 (scaled.1 / scaled.2) = n ∧ scaled.1 / scaled.2 ≠ 0 := by
  intro scaled
  have hvalue : (scaled.1 : ℚ) / scaled.2 = x.absolute * 10 ^ (-(Int.log 10 x.absolute - n)) := by
    rw [scaleBy_eq, ratio_eq, absolute]
  have hlog : Int.log 10 ((scaled.1 : ℚ) / scaled.2) = n := by
    rw [hvalue, log_mul_zpow (absolute_pos hx)]
    omega
  have hone : (1 : ℚ) ≤ scaled.1 / scaled.2 := by
    have hpos : (0 : ℚ) < scaled.1 / scaled.2 :=
      hvalue ▸ mul_pos (absolute_pos hx) (zpow_pos (by norm_num) _)
    have hle := (Int.zpow_le_iff_le_log (b := 10) (by decide) hpos).2 (by omega : (0 : Int) ≤ _)
    simpa using hle
  rw [Int.log_of_one_le_right _ hone, Nat.floor_div_eq_div, Nat.cast_inj] at hlog
  refine ⟨hlog, ?_⟩
  rw [← Nat.floor_div_eq_div (K := ℚ)]
  exact (Nat.floor_pos.2 hone).ne'

/-- What is tried has its first digit where the double has it, or is the next power of ten. -/
theorem leading_candidate? {n : Nat} {d : Decimal} (hd : x.candidate? (n + 1) = some d) :
    d.leading = Int.log 10 x.absolute ∨ d = ⟨10 ^ (n + 1), Int.log 10 x.absolute - n⟩ := by
  have hexponent : decimalExponent x.ratio.1 x.ratio.2 = Int.log 10 x.absolute := by
    rw [decimalExponent_eq_log (mt ratio_fst_eq_zero_iff.1 hx) x.ratio_snd_ne_zero, ratio_eq, absolute]
  obtain ⟨hlog, hne⟩ := log_lowDigits hx n
  have hchoice := candidate?_eq_some hd
  simp only [hexponent] at hchoice
  generalize (scaleBy x.ratio.1 x.ratio.2 (Int.log 10 x.absolute - n)).1 /
    (scaleBy x.ratio.1 x.ratio.2 (Int.log 10 x.absolute - n)).2 = low at hlog hne hchoice
  rcases hchoice with rfl | rfl
  · left
    simp only [Decimal.leading, Decimal.digitCount_eq_log hne, hlog]
    omega
  · -- The next number has as many digits, unless there were only nines.
    have hlt : low < 10 ^ (n + 1) := hlog ▸ Nat.lt_pow_succ_log_self (by decide) low
    rcases Nat.lt_or_ge (low + 1) (10 ^ (n + 1)) with hless | hall
    · left
      have hlow : 10 ^ n ≤ low + 1 := (hlog ▸ Nat.pow_log_le_self 10 hne : 10 ^ n ≤ low).trans (Nat.le_succ low)
      simp only [Decimal.leading, Decimal.digitCount_eq_log (Nat.succ_ne_zero low),
        Nat.log_eq_of_pow_le_of_lt_pow hlow hless]
      omega
    · exact .inr (by rw [le_antisymm hlt hall])

/-- The first digit of the exact decimal of a double stands where its size says. -/
theorem leading_exactDecimal : x.exactDecimal.leading = Int.log 10 x.absolute := by
  have hvalue : x.exactDecimal.value = x.absolute := by
    unfold exactDecimal Decimal.value absolute
    split
    · next h =>
      obtain ⟨k, hk⟩ := Int.eq_ofNat_of_zero_le h
      simp [hk]
    · next h =>
      obtain ⟨k, hk⟩ : ∃ k : Nat, x.scale = -k := ⟨(-x.scale).toNat, by omega⟩
      simp only [hk, neg_neg, Int.toNat_natCast, Nat.pow_eq, Nat.cast_mul, Nat.cast_pow, zpow_neg, zpow_natCast,
        mul_assoc]
      rw [show ((10 : ℚ) ^ k) = 5 ^ k * 2 ^ k by rw [← mul_pow]; norm_num]
      field_simp
      norm_num
  rw [Decimal.leading_eq_log, hvalue]
  unfold exactDecimal
  split <;> exact Nat.mul_ne_zero hx (pow_ne_zero _ (by decide))

/-- The first digit that is written stands where the double has it, or the digits are the next power of ten. -/
theorem leading_shortest : x.shortest.leading = Int.log 10 x.absolute ∨
    ∃ n : Nat, x.shortest = ⟨10 ^ (n + 1), Int.log 10 x.absolute - n⟩ := by
  unfold shortest
  cases hfind : (List.range 17).findSome? fun n => x.candidate? (n + 1) with
  | none => exact .inl (leading_exactDecimal hx)
  | some d =>
    obtain ⟨n, -, hd⟩ := List.exists_of_findSome?_eq_some hfind
    exact (leading_candidate? hx hd).imp id fun hd => ⟨n, hd⟩

end

/-- The double at `10 ^ 16` is that number itself. -/
theorem absolute_ofDecimal_sixteen (negative : Bool) : (ofDecimal negative ⟨1, 16⟩).absolute = 10 ^ (16 : Int) := by
  have hparts : (ofDecimal negative ⟨1, 16⟩).significand = 5000000000000000 ∧
      (ofDecimal negative ⟨1, 16⟩).scale = 1 := by
    cases negative <;> decide +kernel
  rw [absolute, hparts.1, hparts.2]
  norm_num

/-- A double is written with its first digit at `10 ^ 16` or above just if it is that large: what is rounded up to
`10 ^ 16` is `10 ^ 16`. -/
theorem leading_shortest_iff {x : Binary64} (h : x.isFinite = true) (hx : x.significand ≠ 0) :
    16 ≤ x.shortest.leading ↔ (10 : ℚ) ^ (16 : Int) ≤ x.absolute := by
  have hlog : (10 : ℚ) ^ (16 : Int) ≤ x.absolute ↔ 16 ≤ Int.log 10 x.absolute := by
    have hle := Int.zpow_le_iff_le_log (b := 10) (x := 16) (by decide) (absolute_pos hx)
    rwa [Nat.cast_ofNat] at hle
  rw [hlog]
  rcases leading_shortest hx with hsame | ⟨n, hn⟩
  · rw [hsame]
  · have hleading : x.shortest.leading = Int.log 10 x.absolute + 1 := by
      simp only [hn, Decimal.leading, Decimal.digitCount_eq_log (pow_ne_zero (n + 1) (by decide : (10 : Nat) ≠ 0)),
        Nat.log_pow (by decide : 1 < 10)]
      omega
    have hne : Int.log 10 x.absolute ≠ 15 := by
      intro hfifteen
      have hread := ofDecimal_shortest h
      rw [hn, hfifteen, ← Nat.one_mul (10 ^ (n + 1)), ofDecimal_mul_pow,
        show (15 - (n : Int) + ((n + 1 : Nat) : Int)) = 16 by omega] at hread
      rw [← hread, absolute_ofDecimal_sixteen, log_eq (le_refl _) (by norm_num)] at hfifteen
      exact absurd hfifteen (by decide)
    omega

end Binary64
end WebOfThings
