/-!
# Blank characters

The characters with the Unicode property White_Space, and the trimming of a text on either side. Trimming
takes a predicate, so that blanks, slashes, quotes and asterisks are all removed by the same two functions.

Trimming is used where a media type is read, where a base and an href are joined, where a variable of a
template loses its modifiers, and where plain text is read as a scalar. What these have in common is stated
for any predicate and beside the functions: how trimming goes with what is added at the ends, which
characters it keeps, and that it has nothing to do a second time.

Main statements: `trimBoth_append_append` (what is trimmed may be added on either side), `exists_trimBoth`
(nothing else is lost by trimming), `trimBoth_eq_nil_iff` and `trimBoth_trimBoth`.
-/

namespace WebOfThings.Text

/-- Code point ranges, both ends included, of the Unicode property White_Space. -/
def blankRanges : List (Nat × Nat) :=
  [(0x09, 0x0D), (0x20, 0x20), (0x85, 0x85), (0xA0, 0xA0), (0x1680, 0x1680), (0x2000, 0x200A),
   (0x2028, 0x2029), (0x202F, 0x202F), (0x205F, 0x205F), (0x3000, 0x3000)]

/-- Whether a character is white space in the sense of Unicode. -/
def isBlank (c : Char) : Bool :=
  blankRanges.any fun (low, high) => decide (low ≤ c.toNat) && decide (c.toNat ≤ high)

/-- No ASCII character that can be seen is blank. -/
theorem isBlank_of_visible {c : Char} (hlow : 33 ≤ c.toNat) (hhigh : c.toNat ≤ 126) : isBlank c = false := by
  refine Bool.eq_false_iff.2 fun hblank => ?_
  simp only [isBlank, blankRanges, List.any_cons, List.any_nil, Bool.or_false, Bool.or_eq_true, Bool.and_eq_true,
    decide_eq_true_eq] at hblank
  omega

/-- A text without the leading characters that satisfy `p`. -/
def trimStart (p : Char → Bool) (s : List Char) : List Char :=
  s.dropWhile p

/-- A text without the trailing characters that satisfy `p`. -/
def trimEnd (p : Char → Bool) (s : List Char) : List Char :=
  (s.reverse.dropWhile p).reverse

/-- A text without the leading and trailing characters that satisfy `p`. -/
def trimBoth (p : Char → Bool) (s : List Char) : List Char :=
  trimEnd p (trimStart p s)

/-- A text without the blanks around it. -/
def trim (s : List Char) : List Char :=
  trimBoth isBlank s

@[simp] theorem trimStart_nil (p : Char → Bool) : trimStart p [] = [] := rfl

@[simp] theorem trimEnd_nil (p : Char → Bool) : trimEnd p [] = [] := rfl

variable {p : Char → Bool} {s : List Char}

/-! ## What trimming leaves alone -/

/-- A text that does not start with what is trimmed is left alone. -/
theorem trimStart_eq_self (h : ∀ c, s.head? = some c → p c = false) : trimStart p s = s := by
  cases s with
  | nil => rfl
  | cons c rest => exact List.dropWhile_cons_of_neg (by simp [h c rfl])

/-- A text that does not end with what is trimmed is left alone. -/
theorem trimEnd_eq_self (h : ∀ c, s.getLast? = some c → p c = false) : trimEnd p s = s := by
  have hreverse : trimStart p s.reverse = s.reverse :=
    trimStart_eq_self fun c hc => h c (by rwa [List.head?_reverse] at hc)
  rw [trimEnd, ← trimStart, hreverse, List.reverse_reverse]

/-- A text without blanks at its ends is not trimmed. -/
theorem trimBoth_eq_self (hstart : ∀ c, s.head? = some c → p c = false)
    (hend : ∀ c, s.getLast? = some c → p c = false) : trimBoth p s = s := by
  rw [trimBoth, trimStart_eq_self hstart, trimEnd_eq_self hend]

/-- A text without blanks is not trimmed. -/
theorem trimBoth_eq_self_of_forall (h : ∀ c ∈ s, p c = false) : trimBoth p s = s :=
  trimBoth_eq_self (fun c hc => h c (List.mem_of_mem_head? hc)) fun c hc => h c (List.mem_of_getLast? hc)

/-! ## What trimming removes -/

/-- Blanks in front are trimmed away. -/
theorem trimStart_append {before : List Char} (h : ∀ c ∈ before, p c = true) (s : List Char) :
    trimStart p (before ++ s) = trimStart p s :=
  List.dropWhile_append_of_pos h

/-- Blanks at the end are trimmed away. -/
theorem trimEnd_append {after : List Char} (h : ∀ c ∈ after, p c = true) (s : List Char) :
    trimEnd p (s ++ after) = trimEnd p s := by
  rw [trimEnd, List.reverse_append, List.dropWhile_append_of_pos (by simpa using h), trimEnd]

/-- Nothing is trimmed beyond a character that stays. -/
theorem trimEnd_append_cons {c : Char} (hc : p c = false) (s rest : List Char) :
    trimEnd p (s ++ c :: rest) = s ++ c :: trimEnd p rest := by
  rw [trimEnd, List.reverse_append, List.reverse_cons, List.append_assoc, List.dropWhile_append]
  split
  · next hempty =>
    rw [List.isEmpty_iff] at hempty
    rw [trimEnd, hempty, List.singleton_append, List.dropWhile_cons_of_neg (by simp [hc])]
    simp
  · simp [trimEnd]

/-- Nothing is left of characters that are trimmed. -/
theorem trimStart_eq_nil (h : ∀ c ∈ s, p c = true) : trimStart p s = [] := by
  simpa using trimStart_append h []

/-- Nothing is left of blanks. -/
theorem trimBoth_eq_nil (h : ∀ c ∈ s, p c = true) : trimBoth p s = [] := by
  rw [trimBoth, trimStart_eq_nil h, trimEnd_nil]

/-- What is trimmed may be added on either side. -/
theorem trimBoth_append_append {before after : List Char} (hbefore : ∀ c ∈ before, p c = true)
    (hafter : ∀ c ∈ after, p c = true) (s : List Char) :
    trimBoth p (before ++ s ++ after) = trimBoth p s := by
  rw [List.append_assoc, trimBoth, trimStart_append hbefore, trimStart, List.dropWhile_append]
  split
  · next hempty =>
    have hs : trimBoth p s = [] := by
      rw [trimBoth, trimStart, List.isEmpty_iff.1 hempty, trimEnd_nil]
    rw [← trimStart, trimStart_eq_nil hafter, trimEnd_nil, hs]
  · exact trimEnd_append hafter _

/-- Blanks in front do not matter to a trimmed text. -/
theorem trimBoth_append_left {before : List Char} (h : ∀ c ∈ before, p c = true) (s : List Char) :
    trimBoth p (before ++ s) = trimBoth p s := by
  simpa using trimBoth_append_append h (List.forall_mem_nil _) s

/-- Blanks at the end do not matter to a trimmed text. -/
theorem trimBoth_append_right {after : List Char} (h : ∀ c ∈ after, p c = true) (s : List Char) :
    trimBoth p (s ++ after) = trimBoth p s :=
  trimBoth_append_append (List.forall_mem_nil _) h s

/-! ## What is left after trimming -/

/-- A trimmed text does not begin with a blank. -/
theorem not_of_head?_trimStart (s : List Char) : ∀ c, (trimStart p s).head? = some c → p c = false := by
  intro c hc
  induction s with
  | nil => cases hc
  | cons d rest ih =>
    by_cases hd : p d = true
    · exact ih (by rwa [trimStart, List.dropWhile_cons_of_pos hd] at hc)
    · rw [trimStart, List.dropWhile_cons_of_neg hd] at hc
      cases hc
      exact Bool.eq_false_iff.2 hd

/-- What is trimmed at the start are blanks. -/
theorem exists_trimStart (p : Char → Bool) (s : List Char) :
    ∃ before, (∀ c ∈ before, p c = true) ∧ s = before ++ trimStart p s :=
  ⟨s.takeWhile p, List.all_eq_true.1 List.all_takeWhile, List.takeWhile_append_dropWhile.symm⟩

/-- A trimmed text does not end with a blank. -/
theorem not_of_getLast?_trimEnd (s : List Char) : ∀ c, (trimEnd p s).getLast? = some c → p c = false := by
  intro c hc
  rw [trimEnd, List.getLast?_reverse] at hc
  exact not_of_head?_trimStart _ c hc

/-- What is trimmed at the end are blanks. -/
theorem exists_trimEnd (p : Char → Bool) (s : List Char) :
    ∃ after, (∀ c ∈ after, p c = true) ∧ s = trimEnd p s ++ after := by
  obtain ⟨before, hbefore, hs⟩ := exists_trimStart p s.reverse
  refine ⟨before.reverse, fun c hc => hbefore c (List.mem_reverse.1 hc), ?_⟩
  rw [trimEnd, ← trimStart, ← List.reverse_append, ← hs, List.reverse_reverse]

/-- Nothing is lost by trimming but what is trimmed. -/
theorem exists_trimBoth (p : Char → Bool) (s : List Char) :
    ∃ before after, (∀ c ∈ before, p c = true) ∧ (∀ c ∈ after, p c = true) ∧
      s = before ++ trimBoth p s ++ after := by
  obtain ⟨before, hbefore, hs⟩ := exists_trimStart p s
  obtain ⟨after, hafter, hrest⟩ := exists_trimEnd p (trimStart p s)
  exact ⟨before, after, hbefore, hafter, by rw [List.append_assoc, trimBoth, ← hrest, ← hs]⟩

/-- Trimming adds no character. -/
theorem mem_of_mem_trimBoth {c : Char} (h : c ∈ trimBoth p s) : c ∈ s := by
  obtain ⟨before, after, -, -, hs⟩ := exists_trimBoth p s
  rw [hs]
  simp [h]

/-- What is not trimmed is still there. -/
theorem mem_trimBoth {c : Char} (hc : c ∈ s) (h : p c = false) : c ∈ trimBoth p s := by
  obtain ⟨before, after, hbefore, hafter, hs⟩ := exists_trimBoth p s
  rw [hs, List.mem_append, List.mem_append] at hc
  rcases hc with (hc | hc) | hc
  · exact absurd (hbefore c hc) (by simp [h])
  · exact hc
  · exact absurd (hafter c hc) (by simp [h])

/-- Nothing is left exactly if everything is trimmed. -/
theorem trimBoth_eq_nil_iff : trimBoth p s = [] ↔ ∀ c ∈ s, p c = true := by
  refine ⟨fun h c hc => ?_, trimBoth_eq_nil⟩
  cases hp : p c with
  | true => rfl
  | false =>
    have hmem := mem_trimBoth hc hp
    rw [h] at hmem
    cases hmem

/-- A text that is trimmed at both ends does not begin with a blank. -/
theorem not_of_head?_trimBoth (s : List Char) : ∀ c, (trimBoth p s).head? = some c → p c = false := by
  intro c hc
  obtain ⟨after, -, hrest⟩ := exists_trimEnd p (trimStart p s)
  refine not_of_head?_trimStart s c ?_
  rw [hrest, List.head?_append]
  show ((trimBoth p s).head?).or after.head? = some c
  rw [hc, Option.some_or]

/-- After trimming, nothing is left to trim. -/
theorem trimBoth_trimBoth (s : List Char) : trimBoth p (trimBoth p s) = trimBoth p s :=
  trimBoth_eq_self (not_of_head?_trimBoth s) (not_of_getLast?_trimEnd _)

end WebOfThings.Text
