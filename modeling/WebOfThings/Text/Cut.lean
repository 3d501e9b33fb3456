/-!
# Cutting a text at a character

`cut` separates what stands before the first separator from what follows it, `pieces` cuts at every
separator. Both keep empty parts: a text without separators is its only piece, and a separator at the end
leaves an empty piece behind it. These are the ways in which media types, compact terms, hrefs and templates
are taken apart; that a separator inside of quotes is cut like any other is decided here.

Main statements: `cut_eq_some` (both sides and the separator make up the text), `pieces_append_cons` (a
separator parts the pieces before it from those behind it) and `sep_not_mem_of_mem_pieces` (no piece holds a
separator).
-/

namespace WebOfThings.Text

/-- The text before the first `sep` and, when there is one, the text after it. -/
def cut (sep : Char) : List Char → List Char × Option (List Char)
  | [] => ([], none)
  | c :: rest =>
    if c = sep then ([], some rest)
    else ((c :: (cut sep rest).1), (cut sep rest).2)

/-- The parts of a text between its separators: one more than there are separators. -/
def pieces (sep : Char) : List Char → List (List Char)
  | [] => [[]]
  | c :: rest =>
    if c = sep then [] :: pieces sep rest
    else
      match pieces sep rest with
      | [] => [[c]]
      | piece :: others => (c :: piece) :: others

/-- The texts one after the other, with `sep` between two of them. -/
def join (sep : List Char) : List (List Char) → List Char
  | [] => []
  | [piece] => piece
  | piece :: others => piece ++ sep ++ join sep others

/-- There is at least one piece. -/
theorem pieces_ne_nil (sep : Char) (s : List Char) : pieces sep s ≠ [] := by
  cases s with
  | nil => simp [pieces]
  | cons c r =>
    unfold pieces
    split
    · simp
    · split <;> simp

/-- A text without separators is its only piece. -/
theorem pieces_of_not_mem {sep : Char} {s : List Char} (h : sep ∉ s) : pieces sep s = [s] := by
  induction s with
  | nil => rfl
  | cons c rest ih =>
    simp only [List.mem_cons, not_or] at h
    rw [pieces, if_neg (Ne.symm h.1), ih h.2]

/-- A separator parts the pieces before it from those behind it. -/
theorem pieces_append_cons (sep : Char) (s t : List Char) :
    pieces sep (s ++ sep :: t) = pieces sep s ++ pieces sep t := by
  induction s with
  | nil => simp [pieces]
  | cons c rest ih =>
    rw [List.cons_append, pieces, pieces, ih]
    split
    · rfl
    · cases hpieces : pieces sep rest with
      | nil => exact absurd hpieces (pieces_ne_nil sep rest)
      | cons piece others => rfl

/-- No piece holds a separator. -/
theorem sep_not_mem_of_mem_pieces {sep : Char} {s piece : List Char}
    (h : piece ∈ pieces sep s) : sep ∉ piece := by
  induction s generalizing piece with
  | nil =>
    simp only [pieces, List.mem_singleton] at h
    simp [h]
  | cons c r ih =>
    unfold pieces at h
    by_cases hc : c = sep
    · simp only [hc, if_true, List.mem_cons] at h
      rcases h with rfl | h
      · simp
      · exact ih h
    · simp only [hc, if_false] at h
      cases hp : pieces sep r with
      | nil => exact absurd hp (pieces_ne_nil sep r)
      | cons first others =>
        rw [hp] at h ih
        simp only [List.mem_cons] at h
        rcases h with rfl | h
        · have : sep ∉ first := ih (by simp)
          simp only [List.mem_cons, not_or]
          exact ⟨fun e => hc e.symm, this⟩
        · exact ih (List.mem_cons_of_mem _ h)

/-- The separator is found exactly when the text holds one. -/
theorem cut_snd_eq_none_iff {sep : Char} {s : List Char} : (cut sep s).2 = none ↔ sep ∉ s := by
  induction s with
  | nil => simp [cut]
  | cons c r ih =>
    unfold cut
    by_cases h : c = sep
    · simp [h]
    · simp [h, ih, Ne.symm h]

/-- A text without the separator is not cut. -/
theorem cut_of_not_mem {sep : Char} {s : List Char} (h : sep ∉ s) : cut sep s = (s, none) := by
  induction s with
  | nil => rfl
  | cons c r ih =>
    simp only [List.mem_cons, not_or] at h
    simp [cut, Ne.symm h.1, ih h.2]

/-- Where a separator is found, both sides and the separator make up the text. -/
theorem cut_eq_some {sep : Char} {s before after : List Char}
    (h : cut sep s = (before, some after)) : s = before ++ sep :: after := by
  induction s generalizing before with
  | nil => simp [cut] at h
  | cons c r ih =>
    unfold cut at h
    by_cases hc : c = sep
    · simp only [hc, if_true, Prod.mk.injEq, Option.some.injEq] at h
      obtain ⟨rfl, rfl⟩ := h
      simp [hc]
    · simp only [hc, if_false, Prod.mk.injEq] at h
      obtain ⟨rfl, hr⟩ := h
      have : r = (cut sep r).1 ++ sep :: after := ih (by rw [← hr])
      simp [← this]

end WebOfThings.Text
