import WebOfThings.Json.Number

/-!
# Numerals of integers

A numeral is a row of digits with an optional sign. It is read in the arithmetic of a machine word, from
left to right: every digit multiplies what has been read by ten and is added to it, or taken from it behind
a minus sign, and the word has to hold the number after both steps. Only a word with negative numbers knows
the minus sign.

This is what `parse_integer` asks of the standard readers of signed and unsigned words, and it is written
down in their arithmetic, overflow checks included. That the checks in between cost nothing is a theorem: a
word holds with a number all those that are nearer to zero on the same side, so reading fails in between
exactly if it would fail in the end, and however many leading zeros there are.

`numeral?` is the specification, an integer without bounds, and `Word.Holds` the range of a word.

Main statement: `Word.read?_eq_some_iff` (a word reads the numerals of the numbers that it holds, however
many digits they have, but for the minus sign).
-/

namespace WebOfThings.Codec

/-- The integer of a numeral: digits with an optional sign. -/
def numeral? (s : List Char) : Option Int :=
  let (negative, ds) := Number.scanSign s
  if ds ≠ [] ∧ ds.all Char.isDigit then
    let n : Int := Decimal.ofDigits ds
    some (if negative then -n else n)
  else none

/-- A number behind its sign. -/
def withSign (negative : Bool) (n : Nat) : Int := if negative then -(n : Int) else n

/-- The integers from `low` to `high`, zero among them. -/
structure Word where
  low : Int
  high : Int
  low_le_zero : low ≤ 0 := by decide
  zero_le_high : 0 ≤ high := by decide

namespace Word

/-- The signed integers of 64 bits. -/
def signed : Word where
  low := -9223372036854775808
  high := 9223372036854775807

/-- The unsigned integers of 64 bits. -/
def unsigned : Word where
  low := 0
  high := 18446744073709551615

/-- Whether a word holds an integer. -/
def Holds (w : Word) (n : Int) : Prop := w.low ≤ n ∧ n ≤ w.high

instance (w : Word) (n : Int) : Decidable (w.Holds n) := inferInstanceAs (Decidable (_ ∧ _))

/-- The integer, if the word holds it. -/
def fit? (w : Word) (n : Int) : Option Int := if w.Holds n then some n else none

/-- The sign at the start of a numeral, and what follows it. -/
def scanSign (w : Word) : List Char → Bool × List Char
  | '+' :: rest => (false, rest)
  | '-' :: rest => if w.low < 0 then (true, rest) else (false, '-' :: rest)
  | s => (false, s)

/-- A number with a digit more. -/
def append? (w : Word) (negative : Bool) (n : Int) (c : Char) : Option Int :=
  if c.isDigit then
    (w.fit? (10 * n)).bind fun tens => w.fit? (tens + withSign negative (c.toNat - 48))
  else none

/-- The integer of a numeral. -/
def read? (w : Word) (s : List Char) : Option Int :=
  let (negative, ds) := w.scanSign s
  if ds = [] then none else ds.foldlM (w.append? negative) 0

variable {w : Word} {negative : Bool}

/-- A word holds the integers in its range. -/
theorem fit?_eq_some_iff {n m : Int} : w.fit? n = some m ↔ w.Holds n ∧ n = m := by
  rw [fit?]
  split <;> simp [*]

/-- A word that holds a number holds those nearer to zero with the same sign. -/
theorem Holds.of_le {n m : Nat} (h : w.Holds (withSign negative m)) (hle : n ≤ m) :
    w.Holds (withSign negative n) := by
  have hlow := w.low_le_zero
  have hhigh := w.zero_le_high
  simp only [Holds, withSign] at h ⊢
  cases negative <;> simp only [Bool.false_eq_true, if_false, if_true] at h ⊢ <;> omega

/-- One more digit is taken if it is one and the number still fits. -/
theorem append?_eq_some_iff {n : Nat} {c : Char} {m : Int} :
    w.append? negative (withSign negative n) c = some m ↔
      c.isDigit = true ∧ m = withSign negative (10 * n + (c.toNat - 48)) ∧ w.Holds m := by
  have htens : 10 * withSign negative n = withSign negative (10 * n) := by
    cases negative <;> simp only [withSign, Bool.false_eq_true, if_false, if_true] <;> omega
  have hsum : withSign negative (10 * n) + withSign negative (c.toNat - 48) =
      withSign negative (10 * n + (c.toNat - 48)) := by
    cases negative <;> simp only [withSign, Bool.false_eq_true, if_false, if_true] <;> omega
  rw [append?, htens]
  split
  · next hdigit =>
    simp only [Option.bind_eq_some_iff, fit?_eq_some_iff, hdigit, true_and]
    constructor
    · rintro ⟨_, ⟨-, rfl⟩, hheld, rfl⟩
      rw [hsum] at hheld ⊢
      exact ⟨rfl, hheld⟩
    · rintro ⟨rfl, hheld⟩
      exact ⟨_, ⟨hheld.of_le (Nat.le_add_right ..), rfl⟩, by rwa [hsum], hsum⟩
  · next hdigit => simp [hdigit]

/-- Digits are read exactly if the word holds the number that they denote in the end: further digits do not
bring a number back that has left the word. -/
theorem foldlM_append?_eq_some_iff {n : Nat} {ds : List Char} {m : Int}
    (hn : w.Holds (withSign negative n)) :
    ds.foldlM (w.append? negative) (withSign negative n) = some m ↔
      ds.all Char.isDigit = true ∧
        m = withSign negative (ds.foldl (fun n c => 10 * n + (c.toNat - 48)) n) ∧ w.Holds m := by
  induction ds generalizing n with
  | nil =>
    simp only [List.foldlM_nil, Option.pure_def, Option.some.injEq, List.all_nil, List.foldl_nil, true_and]
    constructor
    · rintro rfl
      exact ⟨rfl, hn⟩
    · exact fun h => h.1.symm
  | cons c ds ih =>
    simp only [List.foldlM_cons, Option.bind_eq_bind, Option.bind_eq_some_iff, append?_eq_some_iff,
      List.all_cons, Bool.and_eq_true, List.foldl_cons]
    constructor
    · rintro ⟨_, ⟨hc, rfl, hnext⟩, hds⟩
      obtain ⟨hall, hm, hheld⟩ := (ih hnext).1 hds
      exact ⟨⟨hc, hall⟩, hm, hheld⟩
    · rintro ⟨⟨hc, hall⟩, rfl, hheld⟩
      have hnext := hheld.of_le (Number.le_foldl_digits _ ds)
      exact ⟨_, ⟨hc, rfl, hnext⟩, (ih hnext).2 ⟨hall, rfl, hheld⟩⟩

/-- Zero fits every word. -/
theorem holds_zero : w.Holds (withSign negative 0) := by
  have hlow := w.low_le_zero
  have hhigh := w.zero_le_high
  cases negative <;> exact ⟨hlow, hhigh⟩

/-- A word scans the sign of a numeral unless it is a minus sign that the word does not know. -/
theorem scanSign_eq {s : List Char} (h : w.low < 0 ∨ s.head? ≠ some '-') :
    w.scanSign s = Number.scanSign s := by
  unfold scanSign
  split
  · rfl
  · next rest =>
    rcases h with hlow | hhead
    · rw [if_pos hlow, Number.scanSign]
    · exact absurd rfl hhead
  · next hplus hminus =>
    unfold Number.scanSign
    split
    · exact absurd rfl (hminus _)
    · exact absurd rfl (hplus _)
    · rfl

/-- A word reads the numerals of the numbers that it holds. -/
theorem read?_eq_some_iff {s : List Char} {n : Int} :
    w.read? s = some n ↔ (w.low < 0 ∨ s.head? ≠ some '-') ∧ numeral? s = some n ∧ w.Holds n := by
  by_cases hsign : w.low < 0 ∨ s.head? ≠ some '-'
  · have hread : ∀ negative ds, ds.foldlM (w.append? negative) 0 = some n ↔ ds.all Char.isDigit = true ∧
        n = withSign negative (Decimal.ofDigits ds) ∧ w.Holds n := by
      intro negative ds
      have hzero : withSign negative 0 = 0 := by cases negative <;> rfl
      rw [← hzero]
      exact foldlM_append?_eq_some_iff holds_zero
    simp only [read?, numeral?, scanSign_eq hsign]
    split
    · next hnil => simp [hnil]
    · next hne =>
      rw [hread]
      split
      · next hdigits => simp only [hdigits.2, hsign, true_and, Option.some.injEq, withSign, eq_comm (a := n)]
      · next hdigits =>
        have hall : ¬ (Number.scanSign s).2.all Char.isDigit = true := fun h => hdigits ⟨hne, h⟩
        simp only [hall, false_and, and_false, reduceCtorEq]
  · -- The minus sign counts as the first digit, and is none.
    rw [not_or, Classical.not_not] at hsign
    obtain ⟨rest, rfl⟩ := List.head?_eq_some_iff.1 hsign.2
    simp [read?, scanSign, hsign.1, append?]

end Word
end WebOfThings.Codec
