import WebOfThings.MediaType
import WebOfThings.Proofs.Text

/-!
# Media types without parameters

The type and the subtype of a media type are compared without regard to case, so they are kept in lower
case. Turning a text into lower case twice is the same as doing it once (`lower_lower`), and changes neither
its separators (`not_mem_lower`) nor its blanks.

A text that has a type, a subtype and nothing else (`IsBare`) is read as the media type that it spells in
lower case, with no parameters (`ofString?_of_isBare`). A registry files codecs under such texts, and looks
them up by media types that may have parameters.

Upper case letters go to lower case ones, and every other character stays where it is; the case of a
character plays no part in whether it is blank, a semicolon, a slash or an equals sign. So the parts of a
text can be looked at before or after it is lowered, which is what the reader of media types and the proofs
about spellings both do.
-/

namespace WebOfThings.MediaType

/-! ## Lower case -/

/-- A text in lower case stays as it is. -/
theorem lower_lower (s : List Char) : lower (lower s) = lower s := by
  rw [lower, lower, List.map_map]
  refine List.map_congr_left fun c _ => ?_
  rw [Function.comp_apply]
  rcases Text.toLower_cases c with heq | hletter
  · rw [heq, heq]
  · -- A letter in lower case is beyond those in upper case.
    refine dif_neg fun hupper => ?_
    have hhigh : c.toLower.val.toNat ≤ 90 := UInt32.le_iff_toNat_le.1 hupper.2
    have hnat : c.toLower.val.toNat = c.toLower.toNat := rfl
    omega

theorem lowerCase_lowerCase (s : String) : lowerCase (lowerCase s) = lowerCase s := by
  rw [lowerCase, lowerCase, String.toList_ofList, lower_lower]

/-- A character that is no letter is in a text in lower case only if it is in the text. -/
theorem not_mem_lower {d : Char} (hd : d.toNat < 97) {s : List Char} (h : d ∉ s) : d ∉ lower s := by
  intro hmem
  obtain ⟨c, hc, rfl⟩ := List.mem_map.1 hmem
  rcases Text.toLower_cases c with heq | hletter
  · rw [heq] at h
    exact h hc
  · omega

/-! ## Bare media types -/

/-- A text that is a type and a subtype with a slash between them and has nothing else: no parameters, and no
blanks around it. -/
structure IsBare (s : List Char) : Prop where
  parts : ∃ type subtype, s = type ++ '/' :: subtype ∧ type ≠ [] ∧ subtype ≠ [] ∧
    '/' ∉ type ∧ '/' ∉ subtype
  plain : ';' ∉ s
  start : ∀ c, s.head? = some c → Text.isBlank c = false
  final : ∀ c, s.getLast? = some c → Text.isBlank c = false

/-- A bare media type stays one in lower case. -/
theorem IsBare.lower {s : List Char} (h : IsBare s) : IsBare (lower s) where
  parts := by
    obtain ⟨type, subtype, rfl, htype, hsubtype, hno, hno'⟩ := h.parts
    refine ⟨MediaType.lower type, MediaType.lower subtype, by simp [MediaType.lower],
      by simpa [MediaType.lower] using htype, by simpa [MediaType.lower] using hsubtype,
      not_mem_lower (by decide) hno, not_mem_lower (by decide) hno'⟩
  plain := not_mem_lower (by decide) h.plain
  start c hc := by
    rw [MediaType.lower, List.head?_map] at hc
    obtain ⟨b, hb, rfl⟩ := Option.map_eq_some_iff.1 hc
    exact (Text.isBlank_toLower b).trans (h.start b hb)
  final c hc := by
    rw [MediaType.lower, List.getLast?_map] at hc
    obtain ⟨b, hb, rfl⟩ := Option.map_eq_some_iff.1 hc
    exact (Text.isBlank_toLower b).trans (h.final b hb)

/-- A bare media type has the form that a base type needs. -/
theorem IsBare.isEssence {s : List Char} (h : IsBare s) : isEssence s = true := by
  obtain ⟨type, subtype, rfl, htype, hsubtype, hno, hno'⟩ := h.parts
  rw [MediaType.isEssence, Text.cut_append_cons hno]
  simp [htype, hsubtype, hno']

/-- A bare media type is its own base type in lower case, and has no parameters. -/
theorem ofString?_of_isBare {s : String} (h : IsBare s.toList) : ofString? s = some ⟨lowerCase s, []⟩ := by
  have htrim : Text.trim s.toList = s.toList := Text.trimBoth_eq_self h.start h.final
  have hessence : essence? s.toList = some (lower s.toList) := by
    simp only [essence?, htrim]
    rw [if_pos h.lower.isEssence]
  simp only [ofString?, scan?, Text.pieces_of_not_mem h.plain, hessence]
  rfl

/-- The lower case of a bare media type is read as the same media type. -/
theorem ofString?_lowerCase {s : String} (h : IsBare s.toList) :
    ofString? (lowerCase s) = some ⟨lowerCase s, []⟩ := by
  have hlower : (lowerCase s).toList = lower s.toList := String.toList_ofList
  rw [ofString?_of_isBare (by rw [hlower]; exact h.lower), lowerCase, hlower, lower_lower, ← lowerCase]

end WebOfThings.MediaType
