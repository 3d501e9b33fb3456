import WebOfThings.Proofs.Text
import WebOfThings.Timestamp

/-!
# Points in time that read back

The text of a point in time is read as that point in time (`ofString?_toString`). Numbers are written with a
fixed count of digits (`scanDigits?_padded`), the fraction without its trailing zeros
(`scanFraction?_fractionText`) and the offset by its sign, hours and minutes (`scanOffset?_offsetText`).

A point in time is written as one text and read by scanning it from the left, so the proof follows the text:
after each part there is a character that cannot belong to it, and `EndsNumber` says so where a number could
go on. The fraction is the only part of variable length. Its zeros are dropped when it is written and added
again when it is read, and nine digits are always enough.
-/

namespace WebOfThings

namespace Timestamp

/-! ## Numbers -/

theorem ofDigits_padded (n k : Nat) : Decimal.ofDigits (padded n k) = k := by
  rw [padded, Decimal.ofDigits_replicate_append, Decimal.ofDigits_digits]

/-- A number with zeros in front has as many digits as were asked for. -/
theorem length_padded {n k : Nat} (hn : 0 < n) (h : k < Nat.pow 10 n) : (padded n k).length = n := by
  have hle : (Number.digits k).length ≤ n := (Nat.length_toDigits_le_iff (by decide) hn).2 h
  simp only [padded, List.length_append, List.length_replicate]
  omega

/-- A number with zeros in front is made of digits. -/
theorem isDigit_of_mem_padded {n k : Nat} : ∀ c ∈ padded n k, c.isDigit = true := by
  intro c hc
  rcases List.mem_append.1 hc with hc | hc
  · rw [List.eq_of_mem_replicate hc]
    rfl
  · exact Nat.isDigit_of_mem_toDigits (by decide) (by decide) hc

/-- A number that was written with `n` digits is read again. -/
theorem scanDigits?_padded {n k : Nat} (hn : 0 < n) (h : k < Nat.pow 10 n) (rest : List Char) :
    scanDigits? n (padded n k ++ rest) = some (k, rest) := by
  have hlength := length_padded hn h
  have htake : (padded n k ++ rest).take n = padded n k := List.take_left' hlength
  have hdrop : (padded n k ++ rest).drop n = rest := List.drop_left' hlength
  have hdigits : (padded n k).all Char.isDigit = true := List.all_eq_true.2 isDigit_of_mem_padded
  rw [scanDigits?, htake, hdrop, if_pos ⟨hlength, hdigits⟩, ofDigits_padded]

/-! ## The fraction of a second -/

/-- A text that does not begin with a digit or a point: where a fraction of a second ends. -/
def EndsNumber (s : List Char) : Prop := ∀ c ∈ s.head?, c.isDigit = false ∧ c ≠ '.'

/-- An offset does not go on with the fraction in front of it. -/
theorem endsNumber_offsetText (offset : Int) : EndsNumber (offsetText offset) := by
  intro c h
  unfold offsetText at h
  split at h
  · cases h
    decide
  · split at h <;> cases h <;> decide

/-- The digits of a fraction up to the last one that is not zero. -/
def fractionDigits (nanosecond : Nat) : List Char :=
  ((padded 9 nanosecond).reverse.dropWhile (· = '0')).reverse

section

variable {nanosecond : Nat}

/-- With the zeros that were left out, a fraction has nine digits. -/
theorem fractionDigits_append_zeros (h : nanosecond < 1000000000) :
    fractionDigits nanosecond ++ List.replicate (9 - (fractionDigits nanosecond).length) '0' =
      padded 9 nanosecond := by
  have hstrip := Text.stripped_append_zeros (padded 9 nanosecond)
  rw [length_padded (by decide) h, ← List.length_reverse] at hstrip
  exact hstrip

/-- A fraction is made of digits. -/
theorem isDigit_of_mem_fractionDigits (nanosecond : Nat) :
    ∀ c ∈ fractionDigits nanosecond, c.isDigit = true := by
  intro c hc
  have hmem : c ∈ (padded 9 nanosecond).reverse :=
    (List.dropWhile_sublist _).mem (List.mem_reverse.1 hc)
  exact isDigit_of_mem_padded c (List.mem_reverse.1 hmem)

/-- Without digits there is nothing but zeros. -/
theorem fractionDigits_ne_nil (h : nanosecond < 1000000000) (hpos : nanosecond ≠ 0) :
    fractionDigits nanosecond ≠ [] := by
  intro hnil
  have hvalue := ofDigits_padded 9 nanosecond
  rw [← fractionDigits_append_zeros h, hnil, List.nil_append, ← List.append_nil (List.replicate _ _),
    Decimal.ofDigits_replicate_append] at hvalue
  exact hpos hvalue.symm

/-- The digits of a fraction are read as its nanoseconds. -/
theorem ofFraction_fractionDigits (h : nanosecond < 1000000000) :
    ofFraction (fractionDigits nanosecond) = nanosecond := by
  have hle : (fractionDigits nanosecond).length ≤ 9 := by
    have hlength := congrArg List.length (fractionDigits_append_zeros h)
    rw [List.length_append, length_padded (by decide) h] at hlength
    omega
  rw [ofFraction, List.take_of_length_le hle, fractionDigits_append_zeros h, ofDigits_padded]

/-- The fraction of a second is read as it was written. -/
theorem scanFraction?_fractionText (h : nanosecond < 1000000000) {rest : List Char}
    (hrest : EndsNumber rest) :
    scanFraction? (fractionText nanosecond ++ rest) = some (nanosecond, rest) := by
  unfold fractionText
  split
  · next hzero =>
    subst hzero
    have hscan : Number.scanFraction? rest = some (none, rest) := by
      unfold Number.scanFraction?
      split
      · exact absurd rfl (hrest '.' rfl).2
      · rfl
    rw [List.nil_append, scanFraction?, hscan]
    rfl
  · next hpos =>
    obtain ⟨htake, hdrop⟩ := Text.takeWhile_append_of_head?
      (isDigit_of_mem_fractionDigits nanosecond) fun c hc => (hrest c hc).1
    have hscan : Number.scanFraction? ('.' :: (fractionDigits nanosecond ++ rest)) =
        some (some (fractionDigits nanosecond), rest) := by
      simp only [Number.scanFraction?, htake, hdrop, fractionDigits_ne_nil h hpos, if_false]
    show scanFraction? ('.' :: (fractionDigits nanosecond ++ rest)) = _
    rw [scanFraction?, hscan]
    simp only [Option.map_some, Option.getD_some, ofFraction_fractionDigits h]

end

/-! ## The offset -/

/-- Hours and minutes are read as the minutes that they are. -/
theorem amount?_padded {minutes : Nat} (h : minutes < 1440) :
    scanOffset?.amount? (padded 2 (minutes / 60) ++ ':' :: padded 2 (minutes % 60)) =
      some (minutes : Int) := by
  have hhours := scanDigits?_padded (n := 2) (k := minutes / 60) (by decide)
    (show _ < 100 by omega) (':' :: padded 2 (minutes % 60))
  have hminutes := scanDigits?_padded (n := 2) (k := minutes % 60) (by decide)
    (show _ < 100 by omega) []
  rw [List.append_nil] at hminutes
  simp only [scanOffset?.amount?, hhours, Option.bind_eq_bind, Option.bind_some, scanChar?, if_true,
    hminutes]
  rw [if_pos ⟨by omega, by omega, trivial⟩]
  congr 1
  omega

/-- The offset is read as it was written. -/
theorem scanOffset?_offsetText {offset : Int} (h : -1440 < offset ∧ offset < 1440) :
    scanOffset? (offsetText offset) = some offset := by
  have hamount := amount?_padded (show offset.natAbs < 1440 by omega)
  unfold offsetText
  split
  · next hzero =>
    rw [hzero]
    rfl
  · split
    · next hneg =>
      rw [List.cons_append, scanOffset?, hamount, Option.map_some]
      congr 1
      omega
    · next hneg =>
      rw [List.cons_append, scanOffset?, hamount]
      congr 1
      omega

/-! ## The whole text -/

/-- A point in time is a real one. -/
theorem of?_self (t : Timestamp) :
    of? t.year t.month t.day t.hour t.minute t.second t.nanosecond t.offset = some t := by
  rw [of?, dif_pos t.year_le, dif_pos t.month_range, dif_pos t.day_range, dif_pos t.time_lt,
    dif_pos t.offset_range]

/-- No month has more than 31 days. -/
theorem daysInMonth_le (year month : Nat) : daysInMonth year month ≤ 31 := by
  unfold daysInMonth
  split
  · split <;> decide
  · split <;> decide

/-- The text of a point in time is read as this point in time. -/
theorem scan?_text (t : Timestamp) : scan? t.text = some t := by
  have hyear := t.year_le
  have hmonth := t.month_range
  have hday := Nat.le_trans t.day_range.2 (daysInMonth_le _ _)
  obtain ⟨hhour, hminute, hsecond, hnanosecond⟩ := t.time_lt
  have scan2 : ∀ {k : Nat}, k < 100 → ∀ rest, scanDigits? 2 (padded 2 k ++ rest) = some (k, rest) :=
    fun hk rest => scanDigits?_padded (by decide) hk rest
  have hfraction := scanFraction?_fractionText hnanosecond (endsNumber_offsetText t.offset)
  have hmark : ∀ rest, scanSeparator? ('T' :: rest) = some rest := fun _ => rfl
  simp only [text, List.append_assoc, List.cons_append]
  simp only [scan?, scanDigits?_padded (n := 4) (k := t.year) (by decide) (show _ < 10000 by omega),
    scan2 (show t.month < 100 by omega), scan2 (show t.day < 100 by omega),
    scan2 (show t.hour < 100 by omega), scan2 (show t.minute < 100 by omega),
    scan2 (show t.second < 100 by omega), Option.bind_eq_bind, Option.bind_some, scanChar?,
    hmark, if_true, hfraction, scanOffset?_offsetText t.offset_range]
  rw [if_neg (Nat.ne_of_lt hsecond)]
  exact t.of?_self

/-- The text of a point in time is read as that point in time. -/
theorem ofString?_toString (t : Timestamp) : ofString? t.toString = some t := by
  rw [ofString?, toString, String.toList_ofList]
  exact t.scan?_text

end Timestamp
end WebOfThings
