import WebOfThings.Json.Fields
import WebOfThings.Proofs.Json.Fields

/-!
# Numbers in fields

Bounds are kept as integers of 64 or 32 bits or as doubles, and are read as they were written:
`readsAs_ofInt64`, `readsAs_ofUInt32`, `readsAs_ofBinary64`. The last one needs a finite double, which
every double that was read from a value is (`isFinite_of_asBinary64?`): an integer of 64 bits is nowhere
near the end of the doubles.
-/

namespace WebOfThings

namespace Binary64

/-- Rounding a quotient goes at most one beyond cutting it off. -/
theorem roundQuotient_le (num den : Nat) : roundQuotient num den ≤ num / den + 1 := by
  unfold roundQuotient
  simp only
  split
  · omega
  · split
    · omega
    · split <;> omega

theorem binaryExponent_one {n : Nat} (h : n ≠ 0) : binaryExponent n 1 = n.log2 := by
  have hlog : (1 : Nat).log2 = 0 := by decide
  have hreach : reaches n 1 ((n.log2 : Int) - (0 : Nat)) = true := by
    rw [reaches, if_pos (by omega), decide_eq_true_eq, Nat.one_mul]
    exact Nat.log2_self_le h
  simp only [binaryExponent, hlog, hreach, if_true]
  omega

/-- The significand of an integer of 64 bits stays below `2 ^ 53`, or reaches it when it is rounded
up. -/
theorem nearestMagnitude_lt {n : Nat} (h : n ≠ 0) (hn : n < 18446744073709551616) :
    nearestMagnitude n 1 < infiniteMagnitude := by
  have hlog : n.log2 < 64 := (Nat.log2_lt h).2 hn
  have hlt : n < Nat.pow 2 (n.log2 + 1) := Nat.lt_log2_self
  simp only [nearestMagnitude, binaryExponent_one h]
  generalize hs : max ((n.log2 : Int) - 52) (-1074) = s
  split
  · next hpos =>
    have hle := roundQuotient_le n (1 * Nat.pow 2 s.toNat)
    have hdiv : n / (1 * Nat.pow 2 s.toNat) < 9007199254740992 := by
      have hpow : Nat.pow 2 (n.log2 + 1) = 9007199254740992 * Nat.pow 2 s.toNat := by
        rw [show n.log2 + 1 = 53 + s.toNat by omega]
        exact Nat.pow_add 2 53 s.toNat
      rw [Nat.one_mul, Nat.div_lt_iff_lt_mul (show 0 < Nat.pow 2 s.toNat from Nat.pow_pos (by decide)),
        ← hpow]
      exact hlt
    simp only [infiniteMagnitude, fractionCount]
    omega
  · next hneg =>
    have hle := roundQuotient_le (n * Nat.pow 2 (-s).toNat) 1
    have hmul : n * Nat.pow 2 (-s).toNat < 9007199254740992 := by
      have hpow : Nat.pow 2 (n.log2 + 1) * Nat.pow 2 (-s).toNat = 9007199254740992 := by
        have hadd := Nat.pow_add 2 (n.log2 + 1) (-s).toNat
        rw [show n.log2 + 1 + (-s).toNat = 53 by omega] at hadd
        exact hadd.symm
      rw [← hpow]
      exact Nat.mul_lt_mul_of_pos_right hlt (Nat.pow_pos (by decide))
    rw [Nat.div_one] at hle
    simp only [infiniteMagnitude, fractionCount]
    omega

/-- The double nearest to an integer of 64 bits is finite. -/
theorem isFinite_ofInt {n : Int} (h : -9223372036854775808 ≤ n ∧ n < 18446744073709551616) :
    (ofInt n).isFinite = true := by
  unfold ofInt ofRatio
  split
  · rfl
  · next hn => exact isFinite_ofMagnitude (nearestMagnitude_lt hn (by omega))

end Binary64

/-- So is the double nearest to a number. -/
theorem Number.isFinite_toBinary64 (n : Number) : n.toBinary64.isFinite = true := by
  cases n with
  | integer n h => exact Binary64.isFinite_ofInt h
  | float x h => exact h

namespace Json

/-- A double that was read is finite. -/
theorem isFinite_of_asBinary64? {v : Json} {x : Binary64} (h : v.asBinary64? = some x) :
    x.isFinite = true := by
  cases v with
  | num n =>
    cases h
    exact n.isFinite_toBinary64
  | _ => cases h

/-- A finite double is read as it was written. -/
theorem readsAs_ofBinary64 {x : Binary64} (h : x.isFinite = true) :
    ReadsAs asBinary64? (ofBinary64 x) x := by
  simp only [ofBinary64, Number.ofBinary64?, dif_pos h]
  exact ⟨rfl, by simp⟩

theorem isNormal_ofBinary64 (x : Binary64) : (ofBinary64 x).IsNormal := by
  unfold ofBinary64
  split <;> simp

theorem asInt?_ofInt64 (n : Int64) : (ofInt64 n).asInt? = some n.toInt := rfl

theorem asInt?_ofUInt32 (n : UInt32) : (ofUInt32 n).asInt? = some (n.toNat : Int) := rfl

/-- A signed integer is read as it was written. -/
theorem readsAs_ofInt64 (n : Int64) : ReadsAs asInt64? (ofInt64 n) n where
  read_eq := by
    have hlow : -9223372036854775808 ≤ n.toInt := n.le_toInt
    have hhigh : n.toInt < 9223372036854775808 := n.toInt_lt
    rw [asInt64?, asInt?_ofInt64, Option.bind_eq_bind, Option.bind_some, if_pos ⟨hlow, hhigh⟩,
      Int64.ofInt_toInt]
  ne_null := by simp [ofInt64]

/-- A count is read as it was written. -/
theorem readsAs_ofUInt32 (n : UInt32) : ReadsAs asUInt32? (ofUInt32 n) n where
  read_eq := by
    have hlt : n.toNat < 4294967296 := n.toNat_lt
    rw [asUInt32?, asInt?_ofUInt32, Option.bind_eq_bind, Option.bind_some, if_pos (by omega),
      Int.toNat_natCast, UInt32.ofNat_toNat]
  ne_null := by simp [ofUInt32, ofNat]

@[simp] theorem optionalValue?_ofUInt32 (x : Option UInt32) :
    optionalValue? asUInt32? (x.map ofUInt32) = some x :=
  optionalValue?_map fun a _ => readsAs_ofUInt32 a

end Json
end WebOfThings
