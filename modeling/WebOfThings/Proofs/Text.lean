import Mathlib.Data.List.TakeWhile
import WebOfThings.Text.Blank
import WebOfThings.Text.Cut

/-!
# Texts that are cut and put together

A text is cut at the first place of a character (`cut`) or at all of its places (`pieces`), and pieces are
put together again with something between them (`join`). Here these are tied to what lists offer: cutting
takes a text as long as the character does not come (`cut_fst_eq_takeWhile`), the pieces are those of
`List.splitOn` (`pieces_eq_splitOn`), and joining is `List.intercalate` (`join_eq_intercalate`). A text
without the character is passed over by a cut (`cut_append`).

The characters of a joined text are those of the texts and of the separator (`mem_intercalate_comma`).
Letters of one case are told apart from those of the other by their code points (`toLower_cases`).

The functions `cut`, `pieces` and `join` are written for the readers that use them; the lemmas say which
functions on lists they are, so that their properties can be taken from the library. `stripped_append_zeros`
is about the end of a list, where the fraction of a second and the digits of a double lose their zeros.
-/

namespace WebOfThings.Text

/-! ## Cutting -/

/-- A text without separators moves the first separator of what follows it. -/
theorem cut_append {sep : Char} {before : List Char} (hbefore : sep ∉ before) (s : List Char) :
    cut sep (before ++ s) = (before ++ (cut sep s).1, (cut sep s).2) := by
  induction before with
  | nil => rfl
  | cons c rest ih =>
    simp only [List.mem_cons, not_or] at hbefore
    simp [cut, Ne.symm hbefore.1, ih hbefore.2]

theorem cut_append_cons {sep : Char} {before : List Char} (hbefore : sep ∉ before) (after : List Char) :
    cut sep (before ++ sep :: after) = (before, some after) := by
  simp [cut_append hbefore, cut]

/-- What is in front of the cut goes as far as there is no separator. -/
theorem cut_fst_eq_takeWhile (sep : Char) (s : List Char) : (cut sep s).1 = s.takeWhile (· ≠ sep) := by
  induction s with
  | nil => rfl
  | cons c rest ih =>
    by_cases hc : c = sep
    · simp [cut, hc]
    · simp [cut, hc, ih]

/-- There is no separator in front of the cut. -/
theorem not_mem_cut_fst (sep : Char) (s : List Char) : sep ∉ (cut sep s).1 := by
  intro hmem
  rw [cut_fst_eq_takeWhile] at hmem
  simpa using List.mem_takeWhile_imp hmem

/-- The pieces of a text are those between its separators. -/
theorem pieces_eq_splitOn (sep : Char) (s : List Char) : pieces sep s = s.splitOn sep := by
  induction s with
  | nil => rfl
  | cons c rest ih =>
    rw [List.splitOn_cons_eq_if_modifyHead, pieces, ih]
    by_cases hc : c = sep
    · simp [hc]
    · cases hpieces : rest.splitOn sep with
      | nil => exact absurd hpieces (List.splitOn_ne_nil sep rest)
      | cons piece others => simp [hc]

/-- What is taken from a text while a test holds of its characters, and what is left of it. -/
theorem takeWhile_append_of_head? {p : Char → Bool} {s rest : List Char} (hs : ∀ c ∈ s, p c = true)
    (hrest : ∀ c ∈ rest.head?, p c = false) :
    (s ++ rest).takeWhile p = s ∧ (s ++ rest).dropWhile p = rest := by
  rw [List.takeWhile_append_of_pos hs, List.dropWhile_append_of_pos hs]
  cases rest with
  | nil => simp
  | cons c rest => simp [hrest c rfl]

/-- Dropping the zeros at the end of a list and adding them again. -/
theorem stripped_append_zeros (s : List Char) :
    (s.reverse.dropWhile (· = '0')).reverse ++
      List.replicate (s.length - (s.reverse.dropWhile (· = '0')).length) '0' = s := by
  have hsplit := List.takeWhile_append_dropWhile (p := fun c => decide (c = '0')) (l := s.reverse)
  have hzeros : s.reverse.takeWhile (fun c => decide (c = '0')) =
      List.replicate (s.reverse.takeWhile (fun c => decide (c = '0'))).length '0' :=
    List.eq_replicate_iff.2 ⟨rfl, fun c hc => by
      simpa using List.all_eq_true.1 (List.all_takeWhile (l := s.reverse)) c hc⟩
  have hlength := congrArg List.length hsplit
  rw [List.length_append, List.length_reverse] at hlength
  apply List.reverse_inj.1
  rw [List.reverse_append, List.reverse_reverse, List.reverse_replicate,
    show s.length - (s.reverse.dropWhile (fun c => decide (c = '0'))).length =
      (s.reverse.takeWhile (fun c => decide (c = '0'))).length by omega, ← hzeros, hsplit]

/-! ## Putting together -/

/-- Joining texts puts the separator between them. -/
theorem join_eq_intercalate (sep : List Char) (texts : List (List Char)) :
    join sep texts = sep.intercalate texts := by
  induction texts with
  | nil => rfl
  | cons text rest ih =>
    cases rest with
    | nil => simp [join]
    | cons next rest =>
      rw [join, ih, List.intercalate_cons_cons, List.append_assoc]
      exact List.cons_ne_nil next rest

/-- A character of texts joined by commas is a comma or in one of them. -/
theorem mem_intercalate_comma {texts : List (List Char)} {c : Char} :
    c ∈ [','].intercalate texts → c = ',' ∨ ∃ text ∈ texts, c ∈ text := by
  induction texts with
  | nil => simp
  | cons text rest ih =>
    cases rest with
    | nil => exact fun hc => .inr ⟨text, List.mem_cons_self, by simpa using hc⟩
    | cons next rest =>
      rw [List.intercalate_cons_cons, List.mem_append, List.mem_append, List.mem_singleton]
      rintro ((hc | rfl) | hc)
      · exact .inr ⟨text, List.mem_cons_self, hc⟩
      · exact .inl rfl
      · exact (ih hc).imp id fun ⟨text, htext, hc⟩ => ⟨text, List.mem_cons_of_mem _ htext, hc⟩

/-- A character of one of the texts is in the joined text. -/
theorem mem_intercalate_of_mem {sep : List Char} {texts : List (List Char)} {text : List Char} {c : Char}
    (htext : text ∈ texts) (hc : c ∈ text) : c ∈ sep.intercalate texts := by
  induction texts with
  | nil => cases htext
  | cons first rest ih =>
    cases rest with
    | nil => simpa [List.mem_singleton.1 htext] using hc
    | cons next rest =>
      rw [List.intercalate_cons_cons, List.mem_append, List.mem_append]
      rcases List.mem_cons.1 htext with rfl | htext
      · exact .inl (.inl hc)
      · exact .inr (ih htext)

/-! ## Letters -/

/-- A character is in lower case already, unless it is a letter in upper case. -/
theorem toLower_cases (c : Char) :
    c.toLower = c ∨ (65 ≤ c.toNat ∧ c.toNat ≤ 90 ∧ c.toLower.toNat = c.toNat + 32) := by
  by_cases h : 'A'.val ≤ c.val ∧ c.val ≤ 'Z'.val
  · right
    have hlow : 65 ≤ c.val.toNat := UInt32.le_iff_toNat_le.1 h.1
    have hhigh : c.val.toNat ≤ 90 := UInt32.le_iff_toNat_le.1 h.2
    have hval : c.toLower.val = c.val + 32 := congrArg Char.val (dif_pos h)
    refine ⟨hlow, hhigh, ?_⟩
    show c.toLower.val.toNat = c.val.toNat + 32
    rw [hval, UInt32.toNat_add, Nat.mod_eq_of_lt]
    · rfl
    · show c.val.toNat + 32 < _
      omega
  · exact .inl (dif_neg h)

/-- A character is as blank in lower case as it is. -/
theorem isBlank_toLower (c : Char) : isBlank c.toLower = isBlank c := by
  rcases toLower_cases c with heq | ⟨hlow, hhigh, hnat⟩
  · rw [heq]
  · rw [isBlank_of_visible (by omega) (by omega), isBlank_of_visible (by omega) (by omega)]

end WebOfThings.Text
