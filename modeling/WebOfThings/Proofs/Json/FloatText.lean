import WebOfThings.Proofs.Binary64.Rounding
import WebOfThings.Proofs.Json.Numeral

/-!
# The text of a double

A double is written as a numeral with a point or an exponent, or both, and the decimal that this numeral
stands for has that double for its nearest one (`exists_numeral_floatText`). Zeros that are put in or left
out by the layout do not change the decimal.

The proof is an induction over nothing: it is a case distinction on where the point stands. Behind all
digits, among them, before all of them, or after the first one with an exponent; in each case the numeral
stands for the same decimal (`LaidOut`). Zeros at the end of the digits are not written, and the exponent
counts them instead (`ofDecimal_significant`), which is why the decimal is compared as a number and not
digit by digit. Everything that reads a double back starts from `exists_numeral_floatText`: the text is a
numeral, and the double is the nearest one to it.
-/

namespace WebOfThings

namespace Decimal

theorem ofDigits_append_zeros (s : List Char) (k : Nat) :
    ofDigits (s ++ List.replicate k '0') = ofDigits s * 10 ^ k := by
  rw [ofDigits_eq, ofDigits_eq, Nat.ofDigitChars_append, Nat.ofDigitChars_replicate_zero, Nat.mul_comm]

end Decimal

namespace Number

namespace Numeral

/-- The text of a point with digits after it, if there is one. -/
def fractionText : Option (List Char) → List Char
  | none => []
  | some places => '.' :: places

/-- The text of an exponent, if there is one; its sign is always written. -/
def exponentText : Option Int → List Char
  | none => []
  | some e => 'e' :: (if e < 0 then '-' else '+') :: digits e.natAbs

/-- The text of a numeral without its sign. -/
def unsignedText (n : Numeral) : List Char :=
  n.whole ++ (fractionText n.fraction ++ exponentText n.exponent)

/-- The text of a numeral. -/
def text (n : Numeral) : List Char := (if n.negative then ['-'] else []) ++ n.unsignedText

/-- The digits after the point, if there are any. -/
def places (n : Numeral) : List Char := n.fraction.getD []

/-- The decimal that a numeral stands for, apart from its sign. -/
def decimal (n : Numeral) : Decimal :=
  ⟨Decimal.ofDigits (n.whole ++ n.places), n.exponent.getD 0 - (n.places.length : Int)⟩

/-- There are digits in front of the point, and only digits on either side. -/
structure WellFormed (n : Numeral) : Prop where
  whole_ne_nil : n.whole ≠ []
  isDigit_whole : ∀ c ∈ n.whole, c.isDigit = true
  isDigit_places : ∀ c ∈ n.places, c.isDigit = true

/-- There is a point or an exponent. -/
def IsDecimal (n : Numeral) : Prop := n.fraction.isSome ∨ n.exponent.isSome

end Numeral

open Binary64 (ofDecimal ofDecimal_mul_pow)

/-! ## The layouts -/

/-- A numeral is laid out like some digits with the point in some place, and stands for the same decimal as far
as doubles are concerned. -/
structure LaidOut (ds : List Char) (point : Int) (n : Numeral) : Prop where
  text : layout ds point = n.unsignedText
  wellFormed : n.WellFormed
  isDecimal : n.IsDecimal
  nearest : ofDecimal n.negative n.decimal =
    ofDecimal n.negative ⟨Decimal.ofDigits ds, point - ds.length⟩

section

variable {ds : List Char} (negative : Bool) {point : Int}

theorem isDigit_of_mem_zeros {k : Nat} : ∀ c ∈ List.replicate k '0', c.isDigit = true := by
  intro c hc
  rw [List.eq_of_mem_replicate hc]
  rfl

/-- The point is behind all digits: zeros fill the gap, and one stands after the point. -/
theorem laidOut_whole (hne : ds ≠ []) (hds : ∀ c ∈ ds, c.isDigit = true)
    (hpoint : positionalFrom ≤ point - 1 ∧ point - 1 < positionalBelow) (hlength : ds.length ≤ point) :
    LaidOut ds point ⟨negative, ds ++ List.replicate (point.toNat - ds.length) '0', some ['0'], none⟩ where
  text := by
    simp only [layout, if_pos hpoint, if_pos hlength]
    simp [Numeral.unsignedText, Numeral.fractionText, Numeral.exponentText]
  wellFormed := by
    refine ⟨by simp [hne], fun c hc => ?_, by simp [Numeral.places]⟩
    rcases List.mem_append.1 hc with hc | hc
    · exact hds c hc
    · exact isDigit_of_mem_zeros c hc
  isDecimal := .inl rfl
  nearest := by
    -- The zeros count as often as they are written, and the decimal is the same without them.
    have hdigits : ds ++ List.replicate (point.toNat - ds.length) '0' ++ ['0'] =
        ds ++ List.replicate (point.toNat - ds.length + 1) '0' := by
      rw [List.append_assoc, List.replicate_succ']
    simp only [Numeral.decimal, Numeral.places, Option.getD_some, hdigits, Decimal.ofDigits_append_zeros,
      ofDecimal_mul_pow]
    congr 2
    simp
    omega

/-- The point is among the digits. -/
theorem laidOut_among (hne : ds ≠ []) (hds : ∀ c ∈ ds, c.isDigit = true)
    (hpoint : positionalFrom ≤ point - 1 ∧ point - 1 < positionalBelow) (hlength : ¬ ds.length ≤ point)
    (hpos : 0 < point) :
    LaidOut ds point ⟨negative, ds.take point.toNat, some (ds.drop point.toNat), none⟩ where
  text := by
    simp only [layout, if_pos hpoint, if_neg hlength, if_pos hpos]
    simp [Numeral.unsignedText, Numeral.fractionText, Numeral.exponentText]
  wellFormed := by
    refine ⟨fun hnil => ?_, fun c hc => hds c (List.mem_of_mem_take hc),
      fun c hc => hds c (List.mem_of_mem_drop hc)⟩
    rcases List.take_eq_nil_iff.1 hnil with hzero | hnil
    · omega
    · exact hne hnil
  isDecimal := .inl rfl
  nearest := by
    simp only [Numeral.decimal, Numeral.places, Option.getD_some, Option.getD_none, List.take_append_drop,
      List.length_drop]
    congr 2
    omega

/-- The point is before all digits: zeros fill the gap, and one stands in front of the point. -/
theorem laidOut_fraction (hds : ∀ c ∈ ds, c.isDigit = true)
    (hpoint : positionalFrom ≤ point - 1 ∧ point - 1 < positionalBelow) (hlength : ¬ ds.length ≤ point)
    (hpos : ¬ 0 < point) :
    LaidOut ds point ⟨negative, ['0'], some (List.replicate (-point).toNat '0' ++ ds), none⟩ where
  text := by
    simp only [layout, if_pos hpoint, if_neg hlength, if_neg hpos]
    simp [Numeral.unsignedText, Numeral.fractionText, Numeral.exponentText]
  wellFormed := by
    refine ⟨by simp, by simp, fun c hc => ?_⟩
    rcases List.mem_append.1 hc with hc | hc
    · exact isDigit_of_mem_zeros c hc
    · exact hds c hc
  isDecimal := .inl rfl
  nearest := by
    have hdigits : ['0'] ++ (List.replicate (-point).toNat '0' ++ ds) =
        List.replicate ((-point).toNat + 1) '0' ++ ds := by
      rw [List.replicate_succ]
      rfl
    simp only [Numeral.decimal, Numeral.places, Option.getD_some, Option.getD_none, hdigits,
      Decimal.ofDigits_replicate_append, List.length_append, List.length_replicate]
    congr 2
    omega

/-- With an exponent there is a point unless there is one digit only. -/
theorem exists_laidOut_scientific (hne : ds ≠ []) (hds : ∀ c ∈ ds, c.isDigit = true)
    (hpoint : ¬ (positionalFrom ≤ point - 1 ∧ point - 1 < positionalBelow)) :
    ∃ n : Numeral, n.negative = negative ∧ LaidOut ds point n := by
  obtain ⟨d, rest, rfl⟩ := List.exists_cons_of_ne_nil hne
  cases rest with
  | nil =>
    refine ⟨⟨negative, [d], none, some (point - 1)⟩, rfl, ?_, ⟨by simp, hds, by simp [Numeral.places]⟩,
      .inr rfl, ?_⟩
    · simp only [layout, if_neg hpoint]
      rfl
    · simp [Numeral.decimal, Numeral.places]
  | cons e rest =>
    refine ⟨⟨negative, [d], some (e :: rest), some (point - 1)⟩, rfl, ?_,
      ⟨by simp, fun c hc => hds c (by simp_all), fun c hc => hds c (List.mem_cons_of_mem _ hc)⟩, .inl rfl, ?_⟩
    · simp only [layout, if_neg hpoint]
      rfl
    · simp only [Numeral.decimal, Numeral.places, Option.getD_some, List.singleton_append, List.length_cons]
      congr 2
      omega

/-- Digits with the point anywhere are a numeral that stands for the same decimal. -/
theorem exists_laidOut (hne : ds ≠ []) (hds : ∀ c ∈ ds, c.isDigit = true) (point : Int) :
    ∃ n : Numeral, n.negative = negative ∧ LaidOut ds point n := by
  by_cases hpoint : positionalFrom ≤ point - 1 ∧ point - 1 < positionalBelow
  · by_cases hlength : ds.length ≤ point
    · exact ⟨_, rfl, laidOut_whole negative hne hds hpoint hlength⟩
    by_cases hpos : 0 < point
    · exact ⟨_, rfl, laidOut_among negative hne hds hpoint hlength hpos⟩
    · exact ⟨_, rfl, laidOut_fraction negative hds hpoint hlength hpos⟩
  · exact exists_laidOut_scientific negative hne hds hpoint

end

/-! ## The digits that are written -/

/-- The digits of a number without the zeros at their end. -/
def significant (n : Nat) : List Char := ((digits n).reverse.dropWhile (· = '0')).reverse

theorem exists_zeros (n : Nat) : ∃ k, significant n ++ List.replicate k '0' = digits n :=
  ⟨_, Text.stripped_append_zeros (digits n)⟩

theorem isDigit_of_mem_significant {n : Nat} : ∀ c ∈ significant n, c.isDigit = true := by
  obtain ⟨k, hk⟩ := exists_zeros n
  exact fun c hc => isDigit_of_mem_digits c (by rw [← hk]; exact List.mem_append_left _ hc)

/-- A number other than zero has a digit that is not zero. -/
theorem significant_ne_nil {n : Nat} (hn : n ≠ 0) : significant n ≠ [] := by
  intro hnil
  obtain ⟨k, hk⟩ := exists_zeros n
  have hvalue := Decimal.ofDigits_append_zeros (significant n) k
  rw [hk, Decimal.ofDigits_digits, hnil] at hvalue
  exact hn (hvalue.trans (Nat.zero_mul _))

/-- The zeros that are not written are counted by the exponent. -/
theorem ofDecimal_significant (negative : Bool) (d : Decimal) :
    ofDecimal negative ⟨Decimal.ofDigits (significant d.digits),
      (digits d.digits).length + d.exponent - (significant d.digits).length⟩ = ofDecimal negative d := by
  obtain ⟨k, hk⟩ := exists_zeros d.digits
  have hvalue := Decimal.ofDigits_append_zeros (significant d.digits) k
  have hlength := congrArg List.length hk
  rw [hk, Decimal.ofDigits_digits] at hvalue
  rw [List.length_append, List.length_replicate] at hlength
  have hshift := ofDecimal_mul_pow negative (Decimal.ofDigits (significant d.digits)) k d.exponent
  rw [← hvalue] at hshift
  rw [show ((digits d.digits).length : Int) + d.exponent - (significant d.digits).length = d.exponent + k
    by omega]
  exact hshift.symm

/-- The text of a double is a numeral that the double is the nearest one to. -/
theorem exists_numeral_floatText {x : Binary64} (h : x.isFinite = true) :
    ∃ n : Numeral, floatText x = n.text ∧ n.WellFormed ∧ n.IsDecimal ∧
      ofDecimal n.negative n.decimal = x := by
  by_cases hzero : x.isZero = true
  · refine ⟨⟨x.negative, ['0'], some ['0'], none⟩, by simp only [floatText, hzero, if_true]; rfl,
      ⟨by simp, by simp, by simp [Numeral.places]⟩, .inl rfl, ?_⟩
    obtain ⟨negative, exponent, fraction, hexponent, hfraction⟩ := x
    simp only [Binary64.isZero, Bool.and_eq_true, decide_eq_true_eq] at hzero
    obtain ⟨rfl, rfl⟩ := hzero
    rfl
  · have hread := Binary64.ofDecimal_shortest h
    have hdigits := Binary64.shortest_digits_ne_zero h (mt Binary64.isZero_iff.2 hzero)
    obtain ⟨n, hnegative, hn⟩ :=
      exists_laidOut x.negative (significant_ne_nil hdigits) isDigit_of_mem_significant
        ((digits x.shortest.digits).length + x.shortest.exponent)
    refine ⟨n, ?_, hn.wellFormed, hn.isDecimal, ?_⟩
    · rw [Numeral.text, hnegative, ← hn.text]
      simp only [floatText, hzero, Bool.false_eq_true, if_false]
      rfl
    · rw [hn.nearest, hnegative, ofDecimal_significant, hread]

end Number
end WebOfThings
