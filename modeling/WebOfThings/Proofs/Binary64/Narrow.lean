import Mathlib.Algebra.Group.Nat.Defs
import WebOfThings.Binary64.Narrow

/-!
# Shorter formats hold numbers exactly

A pattern that was made for a double denotes that double (`widen_narrow?`) and has no more bits than the
format (`narrow?_lt`), so a number that is written in the shortest format that takes it is read again.

There are two kinds of patterns, those of normal numbers and those below, and zero. For a normal number
exponent and fraction are moved as they are; below, the significand is shifted, and its highest digit tells
where it was (`widenMagnitude_subnormal`). In both cases the digits that are dropped are zeros, because the
format is only used if it holds the number exactly. The sign stands apart (`widen_signed`), so the argument
is about magnitudes. This is what the writer and the reader of CBOR need of the shorter formats: that a
double comes back as the same double, zeros with their signs included.
-/

namespace WebOfThings.BinaryFormat

variable {f : BinaryFormat} {x : Binary64} {negative : Bool} {m : Nat}

/-- The double that a sign and a pattern without its sign denote. -/
def widenMagnitude (f : BinaryFormat) (negative : Bool) (m : Nat) : Binary64 :=
  if m / 2 ^ f.fractionBits = 2 ^ f.exponentBits - 1 then
    if m % 2 ^ f.fractionBits = 0 then .infinity negative else .nan
  else if m / 2 ^ f.fractionBits = 0 then
    if m % 2 ^ f.fractionBits = 0 then .zero negative
    else
      .ofMagnitude negative
        (((m % 2 ^ f.fractionBits).log2 + 1023 + 1 - f.bias - f.fractionBits) * Binary64.fractionCount
          + (m % 2 ^ f.fractionBits - 2 ^ (m % 2 ^ f.fractionBits).log2)
            * 2 ^ (52 - (m % 2 ^ f.fractionBits).log2))
  else
    .ofMagnitude negative
      ((m / 2 ^ f.fractionBits + 1023 - f.bias) * Binary64.fractionCount
        + m % 2 ^ f.fractionBits * 2 ^ (52 - f.fractionBits))

theorem signBit_eq (f : BinaryFormat) : f.signBit = 2 ^ f.exponentBits * 2 ^ f.fractionBits :=
  Nat.pow_add 2 f.exponentBits f.fractionBits

/-- The bias is half of the exponents. -/
theorem two_pow_exponentBits (h : 0 < f.exponentBits) : 2 ^ f.exponentBits = 2 * f.bias + 2 := by
  have hpos : 0 < 2 ^ (f.exponentBits - 1) := Nat.two_pow_pos _
  obtain ⟨e, he⟩ : ∃ e, f.exponentBits = e + 1 := ⟨f.exponentBits - 1, by omega⟩
  rw [bias, he, Nat.pow_succ, Nat.pow_eq]
  rw [he] at hpos
  simp only [Nat.add_sub_cancel] at hpos ⊢
  omega

/-- The sign bit stands apart from the rest of a pattern. -/
theorem widen_signed (hm : m < f.signBit) :
    f.widen (if negative then f.signBit + m else m) = f.widenMagnitude negative m := by
  rw [signBit_eq] at hm
  have hpos : 0 < 2 ^ f.fractionBits := Nat.two_pow_pos _
  have hsign : 0 < 2 ^ f.exponentBits * 2 ^ f.fractionBits := Nat.mul_pos (Nat.two_pow_pos _) hpos
  have hexponent : m / 2 ^ f.fractionBits < 2 ^ f.exponentBits := (Nat.div_lt_iff_lt_mul hpos).2 hm
  -- The sign is the bit above the others; the two remainders do not see it.
  cases negative
  · have hbit : ¬ m / (2 ^ f.exponentBits * 2 ^ f.fractionBits) % 2 = 1 := by
      rw [Nat.div_eq_of_lt hm]
      decide
    simp only [widen, widenMagnitude, signBit_eq, hbit, Nat.mod_eq_of_lt hexponent, decide_false,
      Bool.false_eq_true, if_false, Nat.pow_eq]
  · have hbit : (2 ^ f.exponentBits * 2 ^ f.fractionBits + m) /
        (2 ^ f.exponentBits * 2 ^ f.fractionBits) % 2 = 1 := by
      rw [Nat.add_div_left _ hsign, Nat.div_eq_of_lt hm]
    have hquotient : (2 ^ f.exponentBits * 2 ^ f.fractionBits + m) / 2 ^ f.fractionBits %
        2 ^ f.exponentBits = m / 2 ^ f.fractionBits := by
      rw [Nat.mul_comm, Nat.mul_add_div hpos, Nat.add_mod_left, Nat.mod_eq_of_lt hexponent]
    have hrest : (2 ^ f.exponentBits * 2 ^ f.fractionBits + m) % 2 ^ f.fractionBits =
        m % 2 ^ f.fractionBits := Nat.mul_add_mod_self_right ..
    simp only [widen, widenMagnitude, signBit_eq, hbit, hquotient, hrest, decide_true, if_true, Nat.pow_eq]

/-! ## The two kinds of patterns -/

/-- A normal number of the short format is widened by moving its exponent and its fraction. -/
theorem widenMagnitude_normal {e r : Nat} (hr : r < 2 ^ f.fractionBits) (hzero : e ≠ 0)
    (htop : e ≠ 2 ^ f.exponentBits - 1) :
    f.widenMagnitude negative (e * 2 ^ f.fractionBits + r) =
      .ofMagnitude negative
        ((e + 1023 - f.bias) * Binary64.fractionCount + r * 2 ^ (52 - f.fractionBits)) := by
  have hquotient : (e * 2 ^ f.fractionBits + r) / 2 ^ f.fractionBits = e := by
    rw [Nat.mul_comm, Nat.mul_add_div (Nat.two_pow_pos _), Nat.div_eq_of_lt hr, Nat.add_zero]
  have hrest : (e * 2 ^ f.fractionBits + r) % 2 ^ f.fractionBits = r := by
    rw [Nat.mul_add_mod_self_right, Nat.mod_eq_of_lt hr]
  rw [widenMagnitude, hquotient, hrest, if_neg htop, if_neg hzero]

/-- A number below the normal ones of the format; `top` is the place of its first bit. -/
theorem widenMagnitude_subnormal {top : Nat} (he : 0 < f.exponentBits) (htop : top < f.fractionBits)
    (hlow : 2 ^ top ≤ m) (hhigh : m < 2 ^ (top + 1)) :
    f.widenMagnitude negative m =
      .ofMagnitude negative
        ((top + 1023 + 1 - f.bias - f.fractionBits) * Binary64.fractionCount
          + (m - 2 ^ top) * 2 ^ (52 - top)) := by
  have hpos : 0 < 2 ^ top := Nat.two_pow_pos _
  have hne : m ≠ 0 := by omega
  have hlt : m < 2 ^ f.fractionBits :=
    Nat.lt_of_lt_of_le hhigh (Nat.pow_le_pow_right (by decide) htop)
  have hlog : m.log2 = top := (Nat.log2_eq_iff hne).2 ⟨hlow, hhigh⟩
  have hexponent := two_pow_exponentBits he
  rw [widenMagnitude, Nat.div_eq_of_lt hlt, Nat.mod_eq_of_lt hlt, hlog, if_neg (by omega), if_pos rfl,
    if_neg hne]

/-! ## Numbers that a format takes -/

/-- A number whose exponent is one of the format. -/
theorem narrow_normal (hf : f.fractionBits ≤ 52) (he : 0 < f.exponentBits) (hx : x.isFinite = true)
    (hhigh : (x.exponent : Int) - 1023 ≤ f.bias) (hlow : 1 - (f.bias : Int) ≤ (x.exponent : Int) - 1023)
    (hexact : x.fraction % 2 ^ (52 - f.fractionBits) = 0)
    (hm : m = ((x.exponent : Int) - 1023 + f.bias).toNat * 2 ^ f.fractionBits
      + x.fraction / 2 ^ (52 - f.fractionBits)) :
    m < f.signBit ∧ f.widenMagnitude x.negative m = x := by
  obtain ⟨e, hpower⟩ : ∃ e : Nat, (x.exponent : Int) - 1023 + f.bias = e :=
    ⟨_, (Int.toNat_of_nonneg (by omega)).symm⟩
  have hcount := two_pow_exponentBits he
  have hsplit : 2 ^ f.fractionBits * 2 ^ (52 - f.fractionBits) = Binary64.fractionCount := by
    rw [← Nat.pow_add, Nat.add_sub_of_le hf]
    rfl
  -- What is left of the fraction fits below the exponent.
  have hr : x.fraction / 2 ^ (52 - f.fractionBits) < 2 ^ f.fractionBits := by
    rw [Nat.div_lt_iff_lt_mul (Nat.two_pow_pos _), hsplit]
    exact x.fraction_lt
  rw [hpower, Int.toNat_natCast] at hm
  subst hm
  constructor
  · have hle : (e + 1) * 2 ^ f.fractionBits ≤ 2 ^ f.exponentBits * 2 ^ f.fractionBits :=
      Nat.mul_le_mul_right _ (by omega)
    rw [signBit_eq]
    rw [Nat.succ_mul] at hle
    omega
  · have hexponent : e + 1023 - f.bias = x.exponent := by omega
    rw [widenMagnitude_normal hr (by omega) (by omega), Nat.div_mul_cancel (Nat.dvd_of_mod_eq_zero hexact),
      hexponent]
    exact Binary64.ofMagnitude_magnitude hx

/-- A number below the normal ones of the format. -/
theorem narrow_subnormal {dropped : Nat} (hf : f.fractionBits ≤ 52) (he : 0 < f.exponentBits)
    (hx : x.isFinite = true) (hnormal : x.exponent ≠ 0)
    (hlow : (x.exponent : Int) - 1023 < 1 - (f.bias : Int))
    (hdropped : dropped = 52 - f.fractionBits + (1 - (f.bias : Int) - ((x.exponent : Int) - 1023)).toNat)
    (hle : dropped ≤ 52) (hexact : x.significand % 2 ^ dropped = 0)
    (hm : m = x.significand / 2 ^ dropped) :
    m < f.signBit ∧ f.widenMagnitude x.negative m = x := by
  have hfraction := x.fraction_lt
  have hsignificand : x.significand = Binary64.fractionCount + x.fraction := if_neg hnormal
  have hsplit : 2 ^ (52 - dropped) * 2 ^ dropped = Binary64.fractionCount := by
    rw [← Nat.pow_add, Nat.sub_add_cancel hle]
    rfl
  -- The bits that are dropped are zeros, so `m` begins with the first bit of the significand.
  have hback : m * 2 ^ dropped = x.significand := by
    rw [hm, Nat.div_mul_cancel (Nat.dvd_of_mod_eq_zero hexact)]
  have hfirst : 2 ^ (52 - dropped) ≤ m := by
    refine Nat.le_of_mul_le_mul_right ?_ (Nat.two_pow_pos dropped)
    rw [hback, hsplit]
    omega
  have hlast : m < 2 ^ (52 - dropped + 1) := by
    refine Nat.lt_of_mul_lt_mul_right (a := 2 ^ dropped) ?_
    rw [hback, Nat.pow_succ, Nat.mul_right_comm, hsplit]
    omega
  have htop : 52 - dropped < f.fractionBits := by omega
  constructor
  · rw [signBit_eq]
    calc m < 2 ^ (52 - dropped + 1) := hlast
      _ ≤ 2 ^ f.fractionBits := Nat.pow_le_pow_right (by decide) htop
      _ ≤ 2 ^ f.exponentBits * 2 ^ f.fractionBits := Nat.le_mul_of_pos_left _ (Nat.two_pow_pos _)
  · have hexponent : 52 - dropped + 1023 + 1 - f.bias - f.fractionBits = x.exponent := by omega
    have hrest : (m - 2 ^ (52 - dropped)) * 2 ^ (52 - (52 - dropped)) = x.fraction := by
      rw [Nat.sub_sub_self hle, Nat.sub_mul, hback, hsplit, hsignificand, Nat.add_sub_cancel_left]
    rw [widenMagnitude_subnormal he htop hfirst hlast, hrest, hexponent]
    exact Binary64.ofMagnitude_magnitude hx

/-- A zero that is widened again is the same zero. -/
theorem narrow_zero (he : 0 < f.exponentBits) (h : x.isZero = true) :
    0 < f.signBit ∧ f.widenMagnitude x.negative 0 = x := by
  have hexponent := two_pow_exponentBits he
  obtain ⟨negative, exponent, fraction, hexponentLt, hfractionLt⟩ := x
  simp only [Binary64.isZero, Bool.and_eq_true, decide_eq_true_eq] at h
  obtain ⟨rfl, rfl⟩ := h
  refine ⟨by rw [signBit_eq]; exact Nat.mul_pos (Nat.two_pow_pos _) (Nat.two_pow_pos _), ?_⟩
  rw [widenMagnitude, Nat.zero_div, Nat.zero_mod, if_neg (by omega), if_pos rfl, if_pos rfl]
  rfl

/-- A double that is narrowed without loss is the same double when it is widened again. -/
theorem widenMagnitude_narrowMagnitude? (hf : f.fractionBits ≤ 52) (he : 0 < f.exponentBits)
    (hx : x.isFinite = true) (h : f.narrowMagnitude? x = some m) :
    m < f.signBit ∧ f.widenMagnitude x.negative m = x := by
  simp only [narrowMagnitude?] at h
  split at h
  · next hzero =>
    cases h
    exact narrow_zero he hzero
  split at h
  · cases h
  next hrange =>
  rw [not_or, Int.not_lt] at hrange
  split at h
  · next hlow =>
    split at h
    · next hexact => exact narrow_normal hf he hx hrange.2 hlow hexact (Option.some.inj h).symm
    · cases h
  · next hlow =>
    split at h
    · next hexact =>
      exact narrow_subnormal hf he hx hrange.1 (Int.not_le.1 hlow) rfl hexact.1 hexact.2
        (Option.some.inj h).symm
    · cases h

section

variable {bits : Nat} (hf : f.fractionBits ≤ 52) (he : 0 < f.exponentBits) (hx : x.isFinite = true)
  (h : f.narrow? x = some bits)

include hf he hx h

/-- The pattern of a number has no more bits than the format. -/
theorem narrow?_lt : bits < 2 * f.signBit := by
  obtain ⟨m, hm, rfl⟩ := Option.map_eq_some_iff.1 h
  have hlt := (widenMagnitude_narrowMagnitude? hf he hx hm).1
  split <;> omega

/-- The pattern of a number denotes that number. -/
theorem widen_narrow? : f.widen bits = x := by
  obtain ⟨m, hm, rfl⟩ := Option.map_eq_some_iff.1 h
  obtain ⟨hlt, hwiden⟩ := widenMagnitude_narrowMagnitude? hf he hx hm
  rw [widen_signed hlt, hwiden]

end

end WebOfThings.BinaryFormat
