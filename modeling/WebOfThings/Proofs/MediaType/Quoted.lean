import WebOfThings.Proofs.MediaType.Spelling

/-!
# Parameters in quotes

The value of a parameter may stand in quotes. Blanks, slashes and equals signs between the quotes belong to
it (`param?_quoted`), as a parameter is cut at its first equals sign and trimmed before the quotes are taken
away. But before that the whole text is cut at its semicolons, in quotes or not, so no value ever holds one
(`not_mem_of_param`). Main statement: `quoted_iff`; a value with a semicolon is lost in `quoted_refused`.

`parse` trims and unquotes a value and does it after the cut at the semicolon, so what stands between quotes
is left alone except for semicolons. `not_mem_of_param` says it of every media type that was read: no value
has a semicolon, however it was written. Token characters are visible and none of them is a separator
(`visible_of_isTokenChar`), so a name made of them is read as it stands.
-/

namespace WebOfThings.MediaType

/-- The characters of a token. -/
def isTokenChar (c : Char) : Bool := c.isAlphanum || "!#$%&'*+-.^_`|~".toList.contains c

/-- A text of at least one character, all of which are characters of a token. -/
def IsToken (s : List Char) : Prop := s ≠ [] ∧ ∀ c ∈ s, isTokenChar c = true

/-- A text with a parameter behind it, whose value is in quotes. -/
def quoted (text name value : String) : String := text ++ "; " ++ name ++ "=\"" ++ value ++ "\""

/-- The characters of a token can be seen. -/
theorem visible_of_isTokenChar {c : Char} (h : isTokenChar c = true) : 33 ≤ c.toNat ∧ c.toNat ≤ 126 := by
  rw [isTokenChar, Bool.or_eq_true] at h
  rcases h with hletter | hsign
  · delta Char.isAlphanum Char.isAlpha Char.isUpper Char.isLower Char.isDigit at hletter
    simp only [Bool.or_eq_true, Bool.and_eq_true, decide_eq_true_eq, ge_iff_le, UInt32.le_iff_toNat_le] at hletter
    change ((65 ≤ c.toNat ∧ c.toNat ≤ 90) ∨ (97 ≤ c.toNat ∧ c.toNat ≤ 122)) ∨
      (48 ≤ c.toNat ∧ c.toNat ≤ 57) at hletter
    omega
  · have hall : ("!#$%&'*+-.^_`|~".toList.all fun d => 33 ≤ d.toNat ∧ d.toNat ≤ 126) = true := by decide
    exact of_decide_eq_true (List.all_eq_true.1 hall c (List.contains_iff_mem.1 hsign))

theorem IsToken.not_mem {s : List Char} (h : IsToken s) {d : Char} (hd : isTokenChar d = false) : d ∉ s :=
  fun hmem => absurd (h.2 d hmem) (by simp [hd])

theorem IsToken.trim_eq {s : List Char} (h : IsToken s) : Text.trim s = s :=
  Text.trimBoth_eq_self_of_forall fun c hc =>
    Text.isBlank_of_visible (visible_of_isTokenChar (h.2 c hc)).1 (visible_of_isTokenChar (h.2 c hc)).2

/-- Quotes are taken away from a value that holds none, and nothing else is. -/
theorem unquote_quoted {value : List Char} (h : '"' ∉ value) :
    Text.trimBoth (fun c => c = '"') (Text.trim ('"' :: (value ++ ['"']))) = value := by
  have hblanks : Text.trim ('"' :: (value ++ ['"'])) = '"' :: (value ++ ['"']) := by
    refine Text.trimBoth_eq_self ?_ ?_
    · rintro _ ⟨rfl⟩
      decide
    · intro c hc
      rw [← List.cons_append, List.getLast?_append] at hc
      cases hc
      decide
  have hquotes := @Text.trimBoth_append_append (fun c => c = '"') ['"'] ['"'] (by simp) (by simp) value
  rw [hblanks]
  refine Eq.trans hquotes (Text.trimBoth_eq_self_of_forall fun c hc => decide_eq_false ?_)
  rintro rfl
  exact h hc

/-- A parameter in quotes is read with its name in lower case and the value between the quotes. -/
theorem param?_quoted {name value : List Char} (hname : IsToken name) (hvalue : '"' ∉ value) :
    param? (' ' :: (name ++ '=' :: '"' :: (value ++ ['"']))) =
      some (String.ofList (lower name), String.ofList value) := by
  have hequals : '=' ∉ ' ' :: name := by simp [hname.not_mem (d := '=') (by decide)]
  have htrim : Text.trim (' ' :: name) = name :=
    (@Text.trimBoth_append_left _ [' '] (by simp; decide) name).trans hname.trim_eq
  have hne : lower name ≠ [] := by simpa [lower] using hname.1
  rw [← List.cons_append, param?_append_cons hequals, htrim, if_neg hne, unquote_quoted hvalue]

/-- No value of a parameter holds a semicolon. -/
theorem not_mem_of_param {s : String} {m : MediaType} (hm : ofString? s = some m) {name value : String}
    (h : m.param name = some value) : ';' ∉ value.toList := by
  rw [param_eq_getLast? hm, Option.map_eq_some_iff] at h
  obtain ⟨⟨key, _⟩, hlast, rfl⟩ := h
  obtain ⟨hmem, -⟩ := Dict.mem_bindings.1 (List.mem_of_getLast? hlast)
  obtain ⟨p, hp, hread⟩ := List.mem_filterMap.1 hmem
  have hplain : ';' ∉ p := Text.sep_not_mem_of_mem_pieces (List.mem_of_mem_tail hp)
  have hequals : '=' ∈ p := by
    by_contra hno
    rw [param?_of_not_mem hno] at hread
    cases hread
  obtain ⟨name, value, rfl, hname⟩ := List.eq_append_cons_of_mem hequals
  rw [param?_append_cons hname] at hread
  split at hread
  · cases hread
  · cases hread
    rw [String.toList_ofList]
    -- Trimming adds no character, so the semicolon would stand in the piece.
    intro hsemicolon
    have : ';' ∈ value := Text.mem_of_mem_trimBoth (Text.mem_of_mem_trimBoth hsemicolon)
    exact hplain (by simp [this])

/-- A text that names a media type without parameters is read as its base type alone. -/
theorem entries?_of_no_params {s base : String} (h : ofString? s = some ⟨base, []⟩) :
    entries? s.toList = some (base.toList, []) := by
  obtain ⟨essence, params, hentries, hm⟩ := exists_entries? h
  obtain ⟨rfl, hparams⟩ := MediaType.mk.inj hm
  -- A parameter more would not be lost, as the last one with its name is kept.
  rcases params.eq_nil_or_concat with rfl | ⟨others, e, rfl⟩
  · rw [hentries, String.toList_ofList]
  · rw [List.concat_eq_append, Dict.ofList_concat] at hparams
    exact absurd hparams (Ne.symm (Dict.insert_ne_nil _ _ _))

/-- The parts of a text with a quoted parameter, character by character. -/
theorem toList_quoted (text name value : String) :
    (quoted text name value).toList =
      text.toList ++ ';' :: ' ' :: (name.toList ++ '=' :: '"' :: (value.toList ++ ['"'])) := by
  simp [quoted]

/-- A parameter in quotes comes back as it stands there, behind every text that names a media type without
parameters. -/
theorem ofString?_quoted {text base name value : String} (htext : ofString? text = some ⟨base, []⟩)
    (hname : IsToken name.toList) (hquote : '"' ∉ value.toList) (hsemicolon : ';' ∉ value.toList) :
    ofString? (quoted text name value) = some ⟨base, [(lowerCase name, value)]⟩ := by
  have hread := param?_quoted hname hquote
  have hplain : ';' ∉ ' ' :: (name.toList ++ '=' :: '"' :: (value.toList ++ ['"'])) := by
    simp [hname.not_mem (d := ';') (by decide), hsemicolon]
  have hnamed := named?_singleton_append_cons (' ' :: name.toList) ('"' :: (value.toList ++ ['"']))
  rw [List.cons_append, hread, Option.map_some] at hnamed
  rw [ofString?, scan?_eq, toList_quoted, entries?_append, entries?_of_no_params htext,
    Text.pieces_of_not_mem hplain, hnamed]
  simp [Dict.ofList, Dict.insert, lowerCase]

/-- A text that is a type and a subtype names them in lower case. Behind such a text, and behind every other one
that names a media type without parameters, the value of a parameter in quotes comes back as it stands there,
unless it holds a semicolon; then it does not come back. -/
theorem quoted_iff (text : String) {name value : String} (hname : IsToken name.toList)
    (hquote : '"' ∉ value.toList) :
    (IsBare text.toList → ofString? text = some ⟨lowerCase text, []⟩) ∧
    ∀ base, ofString? text = some ⟨base, []⟩ →
      (ofString? (quoted text name value) = some ⟨base, [(lowerCase name, value)]⟩ ↔ ';' ∉ value.toList) := by
  refine ⟨ofString?_of_isBare, fun base htext => ?_⟩
  constructor
  · intro hread
    have hparam : param ⟨base, [(lowerCase name, value)]⟩ (lowerCase name) = some value := by
      simp [param, Dict.get?]
    exact not_mem_of_param hread hparam
  · exact ofString?_quoted htext hname hquote

/-- A value that looks like parameters itself, but for the semicolon. -/
theorem quoted_iff_title :
    ofString? "Text/HTML;" = some ⟨"text/html", []⟩ ∧ IsToken "Title*".toList ∧
      ofString? "Text/HTML;; Title*=\" a/b, c=d\\ \"" = some ⟨"text/html", [("title*", " a/b, c=d\\ ")]⟩ := by
  have htext : ofString? "Text/HTML;" = some ⟨"text/html", []⟩ := by decide +kernel
  have hname : IsToken "Title*".toList := ⟨by decide, List.all_eq_true.1 (by decide)⟩
  obtain ⟨-, hquoted⟩ := @quoted_iff "Text/HTML;" "Title*" " a/b, c=d\\ " hname (by decide)
  exact ⟨htext, hname, (hquoted "text/html" htext).2 (by decide)⟩

/-- A semicolon between quotes ends the parameter, and what follows it is none. -/
theorem quoted_refused :
    ¬ ∀ text name value : String, IsBare text.toList → IsToken name.toList → '"' ∉ value.toList →
      '\\' ∉ value.toList →
      ofString? (quoted text name value) = some ⟨lowerCase text, [(lowerCase name, value)]⟩ := by
  intro h
  have hbare : IsBare "text/plain".toList :=
    { parts := ⟨"text".toList, "plain".toList, by decide⟩
      plain := by decide
      start := by
        rintro _ ⟨rfl⟩
        decide
      final := by
        rintro _ ⟨rfl⟩
        decide }
  have hname : IsToken "n".toList := ⟨by decide, List.all_eq_true.1 (by decide)⟩
  have hread := h "text/plain" "n" "a;b" hbare hname (by decide) (by decide)
  have hnone : ofString? (quoted "text/plain" "n" "a;b") = none := by decide +kernel
  rw [hnone] at hread
  cases hread

end WebOfThings.MediaType
