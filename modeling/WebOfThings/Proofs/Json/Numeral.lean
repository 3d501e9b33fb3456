import WebOfThings.Json.Number
import WebOfThings.Proofs.Text

/-!
# Numbers that are read from their text

The text of a number stands in front of a comma, a bracket or a brace, or at the end of a text; none of them
goes on with the number (`EndsNumeral`). A numeral is scanned there as if nothing followed it
(`scanNumeral?_append`). Integers are read from their text (`ofText?_integerText`); of a double that has to
be asked, since numerals are read by scaling.

Numbers have no closing mark, so what follows decides where they end; the other tokens close themselves. A
statement about a number in the middle of a text is therefore one about a text that does not go on with the
number, and the writers of arrays and objects see to that. Integers are exact at any size that 64 bits hold,
with a sign in front of the negative ones and no superfluous zeros, so their text is read as the very number
it was written for.
-/

namespace WebOfThings.Number

/-- A text that does not go on with a numeral in front of it. -/
def EndsNumeral (s : List Char) : Prop :=
  ∀ c ∈ s.head?, c.isDigit = false ∧ c ≠ '.' ∧ c ≠ 'e' ∧ c ≠ 'E'

theorem endsNumeral_nil : EndsNumeral [] := fun c hc => by cases hc

theorem endsNumeral_cons {c : Char} {s : List Char}
    (h : c.isDigit = false ∧ c ≠ '.' ∧ c ≠ 'e' ∧ c ≠ 'E') : EndsNumeral (c :: s) := by
  rintro _ ⟨rfl⟩
  exact h

/-- The number that a whole text is the numeral of. -/
def ofText? (s : List Char) : Option Number :=
  match scanNumeral? s with
  | some (n, []) => ofNumeral? n
  | _ => none

/-- A number of a whole text is the number of the numeral that the text is. -/
theorem ofText?_eq_some {s : List Char} {n : Number} (h : ofText? s = some n) :
    ∃ numeral, scanNumeral? s = some (numeral, []) ∧ ofNumeral? numeral = some n := by
  unfold ofText? at h
  split at h
  · next numeral hscan => exact ⟨numeral, hscan, h⟩
  · cases h

/-! ## Numerals in front of something else -/

theorem scanFraction?_of_ne {s : List Char} (h : ∀ r, s ≠ '.' :: r) : scanFraction? s = some (none, s) := by
  rw [scanFraction?]
  exact h

/-- A sign is scanned the same if there is more text behind a text that is not empty. -/
theorem scanMinus_append {s : List Char} (hs : s ≠ []) (rest : List Char) :
    scanMinus (s ++ rest) = ((scanMinus s).1, (scanMinus s).2 ++ rest) := by
  cases s with
  | nil => exact absurd rfl hs
  | cons c s =>
    rw [List.cons_append]
    unfold scanMinus
    split <;> simp_all

theorem scanSign_append {s : List Char} (hs : s ≠ []) (rest : List Char) :
    scanSign (s ++ rest) = ((scanSign s).1, (scanSign s).2 ++ rest) := by
  cases s with
  | nil => exact absurd rfl hs
  | cons c s =>
    rw [List.cons_append]
    unfold scanSign
    split <;> simp_all

section

variable {s rest : List Char} (hrest : EndsNumeral rest)

include hrest

/-- Digits end where the text goes on with something that does not continue them. -/
theorem takeWhile_isDigit_append :
    (s ++ rest).takeWhile Char.isDigit = s.takeWhile Char.isDigit := by
  induction s with
  | nil =>
    cases rest with
    | nil => rfl
    | cons c r => simp [(hrest c rfl).1]
  | cons c s ih =>
    by_cases hc : c.isDigit = true
    · simp [hc, ih]
    · simp [hc]

theorem dropWhile_isDigit_append :
    (s ++ rest).dropWhile Char.isDigit = s.dropWhile Char.isDigit ++ rest := by
  induction s with
  | nil =>
    cases rest with
    | nil => rfl
    | cons c r => simp [(hrest c rfl).1]
  | cons c s ih =>
    by_cases hc : c.isDigit = true
    · simp [hc, ih]
    · simp [hc]

/-- A fraction is read the same in front of such a text. -/
theorem scanFraction?_append {f : Option (List Char)} {after : List Char}
    (h : scanFraction? s = some (f, after)) : scanFraction? (s ++ rest) = some (f, after ++ rest) := by
  by_cases hpoint : ∃ r, s = '.' :: r
  · obtain ⟨r, rfl⟩ := hpoint
    simp only [scanFraction?, List.cons_append, takeWhile_isDigit_append hrest,
      dropWhile_isDigit_append hrest] at h ⊢
    split at h
    · cases h
    · next hne =>
      cases h
      rw [if_neg hne]
  -- Where there is no point, there is none afterwards: `rest` does not begin with one.
  · rw [scanFraction?_of_ne fun r he => hpoint ⟨r, he⟩] at h
    cases h
    refine scanFraction?_of_ne fun r he => ?_
    cases s with
    | nil => exact (hrest '.' (by rw [← List.nil_append rest, he]; rfl)).2.1 rfl
    | cons c s => exact hpoint ⟨s, by rw [(List.cons.inj he).1]⟩

/-- So is an exponent. -/
theorem scanExponent?_append {e : Option Int} {after : List Char}
    (h : scanExponent? s = some (e, after)) : scanExponent? (s ++ rest) = some (e, after ++ rest) := by
  cases s with
  | nil =>
    cases h
    cases rest with
    | nil => rfl
    | cons c r =>
      obtain ⟨-, -, hlower, hupper⟩ := hrest c rfl
      rw [List.nil_append, scanExponent?, if_neg (by simp [hlower, hupper])]
  | cons c s =>
    rw [List.cons_append]
    simp only [scanExponent?] at h ⊢
    split at h
    · next hc =>
      rw [if_pos hc]
      split at h
      · cases h
      · next hne =>
        have hs : s ≠ [] := by
          rintro rfl
          exact hne rfl
        cases h
        rw [scanSign_append hs, takeWhile_isDigit_append hrest, dropWhile_isDigit_append hrest, if_neg hne]
    · next hc =>
      cases h
      rw [if_neg hc, List.cons_append]

/-- A numeral is scanned up to its end, whatever follows it. -/
theorem scanNumeral?_append {n : Numeral} (h : scanNumeral? s = some (n, [])) :
    scanNumeral? (s ++ rest) = some (n, rest) := by
  have hs : s ≠ [] := by
    rintro rfl
    cases h
  unfold scanNumeral? at h ⊢
  rw [scanMinus_append hs]
  simp only [takeWhile_isDigit_append hrest, dropWhile_isDigit_append hrest] at h ⊢
  split at h
  · cases h
  next hwhole =>
  rw [if_neg hwhole]
  split at h
  · cases h
  next fraction s' hfraction =>
  rw [scanFraction?_append hrest hfraction]
  split at h
  · cases h
  next e s'' hexponent =>
  cases h
  simp only [scanExponent?_append hrest hexponent, List.nil_append]

end

/-! ## Integers -/

theorem digits_ne_nil (n : Nat) : digits n ≠ [] := Nat.toDigits_ne_nil

theorem isDigit_of_mem_digits {n : Nat} : ∀ c ∈ digits n, c.isDigit = true :=
  fun _ hc => Nat.isDigit_of_mem_toDigits (by decide) (by decide) hc

/-- The digits of a number other than zero do not start with a zero. -/
theorem head?_digits_ne_zero {n : Nat} (h : n ≠ 0) : (digits n).head? ≠ some '0' := by
  induction n using Nat.strongRecOn with
  | ind n ih =>
    rw [digits, Nat.toDigits_eq_if (by decide)]
    split
    · next hlt => simpa using h
    · next hge =>
      have hhigh := ih (n / 10) (by omega) (by omega)
      obtain ⟨c, r, hcons⟩ := List.exists_cons_of_ne_nil (digits_ne_nil (n / 10))
      rw [hcons] at hhigh
      rw [← digits, hcons]
      exact hhigh

/-- There are no superfluous zeros at the start. -/
theorem digits_wellFormed (n : Nat) :
    ¬ (digits n = [] ∨ ((digits n).head? = some '0' ∧ 1 < (digits n).length)) := by
  rintro (hnil | ⟨hhead, hlength⟩)
  · exact digits_ne_nil n hnil
  · by_cases hn : n = 0
    · subst hn
      exact absurd hlength (by decide)
    · exact head?_digits_ne_zero hn hhead

/-- A text that starts with a digit has no sign. -/
theorem scanMinus_of_isDigit {s : List Char} (h : ∀ c ∈ s.head?, c.isDigit = true) :
    scanMinus s = (false, s) := by
  unfold scanMinus
  split
  · next r => exact absurd (h '-' rfl) (by decide)
  · rfl

theorem scanSign_of_isDigit {s : List Char} (h : ∀ c ∈ s.head?, c.isDigit = true) :
    scanSign s = (false, s) := by
  unfold scanSign
  split
  · next r => exact absurd (h '-' rfl) (by decide)
  · next r => exact absurd (h '+' rfl) (by decide)
  · rfl

theorem takeWhile_isDigit_digits (n : Nat) : (digits n).takeWhile Char.isDigit = digits n := by
  simpa using @List.takeWhile_append_of_pos _ _ _ [] (isDigit_of_mem_digits (n := n))

theorem dropWhile_isDigit_digits (n : Nat) : (digits n).dropWhile Char.isDigit = [] := by
  simpa using @List.dropWhile_append_of_pos _ _ _ [] (isDigit_of_mem_digits (n := n))

/-- The text of an integer is scanned as its sign and its digits. -/
theorem scanNumeral?_integerText (n : Int) :
    scanNumeral? (integerText n) = some (⟨decide (n < 0), digits n.natAbs, none, none⟩, []) := by
  have htake := takeWhile_isDigit_digits n.natAbs
  have hdrop := dropWhile_isDigit_digits n.natAbs
  have hminus : scanMinus (integerText n) = (decide (n < 0), digits n.natAbs) := by
    unfold integerText
    split
    · next h => simp [scanMinus, h]
    · next h =>
      rw [scanMinus_of_isDigit fun c hc => isDigit_of_mem_digits c (List.mem_of_mem_head? hc)]
      simp [h]
  simp only [scanNumeral?, hminus, htake, hdrop, digits_wellFormed, if_false, scanFraction?, scanExponent?]

theorem signed_natAbs (n : Int) : (if decide (n < 0) then -(n.natAbs : Int) else n.natAbs) = n := by
  by_cases hn : n < 0
  · rw [if_pos (decide_eq_true hn)]
    omega
  · rw [if_neg (by simpa using hn)]
    omega

/-- The text of an integer is read as that integer. -/
theorem ofText?_integerText {n : Int} (h : -9223372036854775808 ≤ n ∧ n < 18446744073709551616) :
    ofText? (integerText n) = some (.integer n h) := by
  have hvalue := signed_natAbs n
  have hminus : (decide (n < 0) && decide ((n.natAbs : Int) = 0)) = false := by
    simp
    omega
  simp only [ofText?, scanNumeral?_integerText, ofNumeral?, Option.isNone_none, Bool.and_self, if_true,
    Decimal.ofDigits_digits, hminus, hvalue, Bool.false_eq_true, if_false, ofInt?_eq_some h, Option.some_or]

end WebOfThings.Number
