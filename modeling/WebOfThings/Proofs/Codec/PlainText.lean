import WebOfThings.Codec.Registry
import WebOfThings.Proofs.Codec.RoundTrip
import WebOfThings.Proofs.Json.FloatText

/-!
# Plain text that is decoded as it was encoded

What plain text stands for depends on the schema it is decoded with. A value that the type of the schema
accepts comes back: an integer of 64 bits under a number schema too (`number?_trim_text`), a double because
it is the one nearest to its text (`number?_floatText`), arrays and objects through JSON. The charset of the
media type has to be one that is supported.

The text codec does not write what type a value has, so the schema has to know: the statement is about
values of the type that the schema names. Both directions look at the charset first, and the parameters may
spell it in any case. Numbers have the hardest part, because the text of a double must be told apart from
that of an integer (`integer?_text`): it always has a point or an exponent.
-/

namespace WebOfThings

open Number

/-! ## Numbers -/

namespace Number.Numeral

variable {n : Numeral}

/-- What follows the whole part of a numeral is no digit. -/
theorem head?_fractionText_append (f : Option (List Char)) (e : Option Int) :
    ∀ c ∈ (fractionText f ++ exponentText e).head?, c.isDigit = false := by
  cases f with
  | some places =>
    rintro _ ⟨rfl⟩
    rfl
  | none =>
    cases e with
    | some e =>
      rintro _ ⟨rfl⟩
      rfl
    | none => exact fun c hc => by cases hc

/-- The exponent is read as it is written. -/
theorem scanExponent?_exponentText (e : Option Int) : scanExponent? (exponentText e) = some (e, []) := by
  cases e with
  | none => rfl
  | some e =>
    have htake := takeWhile_isDigit_digits e.natAbs
    have hdrop := dropWhile_isDigit_digits e.natAbs
    have hsign : scanSign ((if e < 0 then '-' else '+') :: digits e.natAbs) =
        (decide (e < 0), digits e.natAbs) := by
      split <;> simp_all [scanSign]
    have hvalue := signed_natAbs e
    simp only [exponentText, scanExponent?, true_or, if_true, hsign, htake, hdrop, digits_ne_nil, if_false,
      Decimal.ofDigits_digits, hvalue]

/-- The sign of a numeral is read as it is written. -/
theorem WellFormed.scanSign_text (hn : n.WellFormed) : scanSign n.text = (n.negative, n.unsignedText) := by
  have hhead : ∀ c ∈ n.unsignedText.head?, c.isDigit = true := by
    obtain ⟨c, r, hwhole⟩ := List.exists_cons_of_ne_nil hn.whole_ne_nil
    rw [unsignedText, hwhole]
    rintro _ ⟨rfl⟩
    exact hn.isDigit_whole c (by rw [hwhole]; exact List.mem_cons_self ..)
  cases hnegative : n.negative with
  | true => simp [text, hnegative, scanSign]
  | false => rw [text, hnegative]; exact scanSign_of_isDigit hhead

end Number.Numeral

namespace Codec

open Number.Numeral

/-- The digits after the point are read as they are written. -/
theorem fraction_text {f : Option (List Char)} (hf : ∀ c ∈ f.getD [], c.isDigit = true) (e : Option Int) :
    fraction (fractionText f ++ exponentText e) = (f.getD [], exponentText e) := by
  cases f with
  | none => cases e <;> rfl
  | some places =>
    obtain ⟨htake, hdrop⟩ := Text.takeWhile_append_of_head? hf (head?_fractionText_append none e)
    show (_, _) = _
    rw [Prod.mk.injEq]
    exact ⟨htake, hdrop⟩

/-- A numeral is read as the double nearest to its decimal. -/
theorem decimal?_text {n : Numeral} (hn : n.WellFormed) :
    decimal? n.text = ofBinary64? (.ofDecimal n.negative n.decimal) := by
  obtain ⟨htake, hdrop⟩ :=
    Text.takeWhile_append_of_head? hn.isDigit_whole (head?_fractionText_append n.fraction n.exponent)
  have hne : n.whole ++ n.fraction.getD [] ≠ [] := fun h => hn.whole_ne_nil (List.append_eq_nil_iff.1 h).1
  simp only [decimal?, hn.scanSign_text, unsignedText, htake, hdrop, fraction_text hn.isDigit_places,
    scanExponent?_exponentText, Option.bind_eq_bind, Option.bind_some]
  rw [if_neg hne, if_neg (by simp)]
  rfl

/-- A numeral with a point or an exponent is no integer. -/
theorem integer?_text {n : Numeral} (hn : n.WellFormed) (hdecimal : n.IsDecimal) :
    integer? n.text = none := by
  obtain ⟨c, hc, hdigit⟩ : ∃ c ∈ n.unsignedText, c.isDigit = false := by
    rcases hdecimal with hfraction | hexponent
    · obtain ⟨places, hplaces⟩ := Option.isSome_iff_exists.1 hfraction
      exact ⟨'.', by simp [unsignedText, hplaces, fractionText], rfl⟩
    · obtain ⟨e, he⟩ := Option.isSome_iff_exists.1 hexponent
      exact ⟨'e', by simp [unsignedText, he, exponentText], rfl⟩
  have hall : ¬ (n.unsignedText ≠ [] ∧ n.unsignedText.all Char.isDigit = true) := fun h => by
    rw [List.all_eq_true.1 h.2 c hc] at hdigit
    cases hdigit
  simp only [integer?_eq, numeral?, hn.scanSign_text, hall, if_false, Option.bind_none]

/-- The text of a finite double is read as this double. -/
theorem number?_floatText {x : Binary64} (h : x.isFinite = true) :
    number? (floatText x) = some (.float x h) := by
  obtain ⟨n, htext, hn, hdecimal, hnearest⟩ := exists_numeral_floatText h
  rw [number?, htext, integer?_text hn hdecimal, decimal?_text hn, hnearest, ofBinary64?, dif_pos h]
  rfl

/-! ## Blanks -/

/-- A digit is not blank. -/
theorem not_isBlank_of_isDigit {c : Char} (h : c.isDigit = true) : Text.isBlank c = false := by
  have hrange : 48 ≤ c.toNat ∧ c.toNat ≤ 57 := by
    simp only [Char.isDigit, Bool.and_eq_true, decide_eq_true_eq] at h
    exact h
  exact Text.isBlank_of_visible (by omega) (by omega)

/-- There is nothing to trim around an integer. -/
theorem trim_integerText (n : Int) : Text.trim (integerText n) = integerText n := by
  refine Text.trimBoth_eq_self_of_forall fun c hc => ?_
  unfold integerText at hc
  split at hc
  · rcases List.mem_cons.1 hc with rfl | hc
    · decide
    · exact not_isBlank_of_isDigit (isDigit_of_mem_digits c hc)
  · exact not_isBlank_of_isDigit (isDigit_of_mem_digits c hc)

/-- There is nothing to trim around a numeral. -/
theorem trim_text {n : Numeral} (hn : n.WellFormed) : Text.trim n.text = n.text := by
  refine Text.trimBoth_eq_self_of_forall fun c hc => ?_
  have digits : ∀ {s : List Char}, (∀ c ∈ s, c.isDigit = true) → c ∈ s → Text.isBlank c = false :=
    fun hs hc => not_isBlank_of_isDigit (hs c hc)
  -- No character of a numeral is blank: its sign, its digits, its point and its exponent.
  simp only [Numeral.text, unsignedText, List.mem_append] at hc
  rcases hc with hc | hc | hc | hc
  · split at hc
    · rw [List.mem_singleton.1 hc]
      decide
    · cases hc
  · exact digits hn.isDigit_whole hc
  · cases hf : n.fraction with
    | none =>
      rw [hf] at hc
      cases hc
    | some places =>
      rw [hf, fractionText] at hc
      rcases List.mem_cons.1 hc with rfl | hc
      · decide
      · exact digits hn.isDigit_places (by rw [Numeral.places, hf]; exact hc)
  · cases he : n.exponent with
    | none =>
      rw [he] at hc
      cases hc
    | some e =>
      rw [he, exponentText] at hc
      rcases List.mem_cons.1 hc with rfl | hc
      · decide
      rcases List.mem_cons.1 hc with rfl | hc
      · split <;> decide
      · exact digits isDigit_of_mem_digits hc

/-! ## Integers -/

/-- The text of an integer is read as this integer. -/
theorem numeral?_integerText (n : Int) : numeral? (integerText n) = some n := by
  have hdigits : (digits n.natAbs).all Char.isDigit = true := List.all_eq_true.2 isDigit_of_mem_digits
  have hsign : scanSign (integerText n) = (decide (n < 0), digits n.natAbs) := by
    unfold integerText
    split
    · next h => simp [scanSign, h]
    · next h =>
      rw [scanSign_of_isDigit fun c hc => isDigit_of_mem_digits c (List.mem_of_mem_head? hc)]
      simp [h]
  simp only [numeral?, hsign, hdigits, ne_eq, digits_ne_nil, not_false_eq_true, and_self, if_true,
    Decimal.ofDigits_digits]
  by_cases hn : n < 0
  · rw [if_pos (by simpa using hn)]
    congr 1
    omega
  · rw [if_neg (by simpa using hn)]
    congr 1
    omega

theorem integer?_integerText {n : Int} (h : -9223372036854775808 ≤ n ∧ n < 18446744073709551616) :
    integer? (integerText n) = some (.integer n h) := by
  rw [integer?_eq, numeral?_integerText, Option.bind_some, ofInt?_eq_some h]

/-- A number is read from its text, with or without blanks around it. -/
theorem number?_trim_text (n : Number) : number? (Text.trim n.text) = some n := by
  cases n with
  | integer n h => rw [Number.text, trim_integerText, number?, integer?_integerText h, Option.some_or]
  | float x h =>
    obtain ⟨n, htext, hn, -⟩ := exists_numeral_floatText h
    rw [Number.text, htext, trim_text hn, ← htext, number?_floatText h]

/-! ## Values under a schema -/

/-- A value that a kind of schema accepts is decoded from its text. -/
theorem decodeText_encodeText {kind : SchemaKind DataSchema} {v : Json} (haccepts : kind.accepts v = true)
    (hnormal : v.IsNormal) (hdepth : v.depth ≤ Json.maxDepth)
    (hdoubles : kind.isStructured = true → v.Everywhere Json.DoubleReadsBack) :
    decodeText (encodeText v) (some kind) = .ok v := by
  unfold SchemaKind.accepts at haccepts
  split at haccepts
  · simp only [encodeText, decodeText, Json.ofText?_text hnormal hdepth (hdoubles rfl)]
  · next b => cases b <;> rfl
  · next bounds n =>
    have hread := number?_trim_text n
    simp only [encodeText, decodeText, Json.text, Json.render, String.toList_ofList, scalar?, hread,
      Option.map_some]
  · next bounds n h =>
    have hread := integer?_integerText h
    simp only [encodeText, decodeText, Json.text, Json.render, String.toList_ofList, scalar?, Number.text,
      trim_integerText, hread, Option.map_some]
  · simp only [encodeText, decodeText, Json.ofText?_text hnormal hdepth (hdoubles rfl)]
  · rfl
  · rfl
  · cases haccepts

/-- A charset is accepted if it is one of those that are supported, whatever its case, or missing. -/
theorem checkCharset_eq_ok {m : MediaType}
    (h : ∀ charset, m.param "charset" = some charset → MediaType.lowerCase charset ∈ charsets) :
    checkCharset m.params = .ok () := by
  unfold checkCharset
  split
  · rfl
  · next charset hcharset => rw [if_pos (List.contains_iff_mem.2 (h charset hcharset))]

end Codec

namespace CodecRegistry

/-- A value that the type of a schema accepts comes back from plain text in a supported charset, if it is
decoded with that schema. Doubles that stand alone always come back; those inside of arrays and objects have
to be ones that their text is read as. `null` is the empty payload. -/
theorem plainText_roundTrips {r : CodecRegistry} {contentType : String} {m : MediaType} {s : DataSchema}
    {kind : SchemaKind DataSchema} {v : Json} (hr : r.codec? MediaType.plainText = some Codec.plainText)
    (hm : MediaType.ofString? contentType = some m) (hessence : m.essence = MediaType.plainText)
    (hcharset : ∀ charset, m.param "charset" = some charset →
      MediaType.lowerCase charset ∈ Codec.charsets)
    (hkind : s.kind = some kind) (haccepts : kind.accepts v = true) (hnormal : v.IsNormal)
    (hdepth : v.depth ≤ Json.maxDepth)
    (hdoubles : kind.isStructured = true → v.Everywhere Json.DoubleReadsBack) (default : String) :
    r.RoundTrips contentType default (some s) v ∧
      (v = .null → r.encode v contentType = .ok ⟨some contentType, []⟩) := by
  have hcheck := Codec.checkCharset_eq_ok hcharset
  have hdecode := Codec.decodeText_encodeText haccepts hnormal hdepth hdoubles
  have hencode : r.encode v contentType =
      .ok ⟨some contentType, Text.utf8 (Codec.encodeText v)⟩ := by
    simp only [encode, hm, hessence, hr, Codec.plainText, hcheck]
    rfl
  refine ⟨⟨_, hencode, ?_⟩, fun hnull => by rw [hencode, hnull]; rfl⟩
  simp only [decode, Content.contentTypeOr, Option.getD_some, hm, hessence, hr, Codec.plainText, hcheck,
    Text.ofUtf8?_utf8, Option.bind_some, hkind, hdecode]
  rfl

/-- An array in a charset in upper case letters, and a negative double. -/
theorem plainText_roundTrips_readings :
    standard.RoundTrips "Text/Plain; Charset=\"US-ASCII\"" "application/json"
        (some { kind := some (.array none none none) }) (.arr [.num (.integer (-1) (by decide)), .null]) ∧
      standard.RoundTrips "text/plain" "application/json" (some { kind := some (.number {}) })
        (.num (.float ⟨true, 1022, 0, by decide, by decide⟩ rfl)) := by
  constructor
  · refine (plainText_roundTrips (v := .arr [.num (.integer (-1) (by decide)), .null])
      (m := ⟨"text/plain", [("charset", "US-ASCII")]⟩) rfl (by decide +kernel) rfl ?_ rfl rfl rfl (by decide)
      (fun _ => ?_) "application/json").1
    · rintro _ ⟨rfl⟩
      decide
    · simp [Json.everywhere_arr_iff, Json.everywhere_num_iff, Json.DoubleReadsBack,
        Json.everywhere_iff_of_parts_eq_nil (v := .null) rfl]
  · exact (plainText_roundTrips (v := .num (.float ⟨true, 1022, 0, by decide, by decide⟩ rfl))
      (m := ⟨"text/plain", []⟩) rfl (by decide +kernel) rfl (fun _ h => by cases h) rfl rfl rfl (by decide)
      (fun h => by cases h) "application/json").1

end CodecRegistry
end WebOfThings
