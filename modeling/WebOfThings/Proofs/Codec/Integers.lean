import Mathlib.Data.Nat.Digits.Lemmas
import WebOfThings.Proofs.Codec.Acceptance
import WebOfThings.Proofs.Codec.PlainText

/-!
# Integers in plain text

Which texts are read as integers is said here without a reader: blanks, a numeral and blanks, where the
numeral is made of digits behind an optional sign and denotes its value to the base of ten (`Denotes`), and
the value is one of the integers of 64 bits, signed or unsigned (`IntegerText`). The words of the reader
together read exactly these (`integer?_trim_eq_some_iff`). `decode_integer` says so of every payload, under
a schema of integers, where every other text is refused, and under one of numbers, where none of these texts
becomes a double.

The reader of integers is two machine words tried one after the other (`parse_integer`); that a word accepts
what it can hold, no matter how it is padded, stands beside its definition. Here the blanks are added, which
are those of Unicode, and the bytes, which have to be UTF-8. The message of a refusal holds the text as it
came, so that it is not trimmed even where the value would have been.
-/

namespace WebOfThings

namespace Codec

/-- The number that decimal digits denote, the highest of them first. -/
def digitsValue (ds : List Char) : Nat := Nat.ofDigits 10 (ds.reverse.map fun c => c.toNat - '0'.toNat)

/-- The integer that a numeral denotes: at least one digit behind an optional sign. -/
inductive Denotes : List Char → Int → Prop
  | unsigned {ds : List Char} (hne : ds ≠ []) (hdigits : ∀ c ∈ ds, c.isDigit = true) :
      Denotes ds (digitsValue ds)
  | plus {ds : List Char} (hne : ds ≠ []) (hdigits : ∀ c ∈ ds, c.isDigit = true) :
      Denotes ('+' :: ds) (digitsValue ds)
  | minus {ds : List Char} (hne : ds ≠ []) (hdigits : ∀ c ∈ ds, c.isDigit = true) :
      Denotes ('-' :: ds) (-digitsValue ds)

/-- A text is the numeral of an integer of 64 bits, signed or unsigned, with blanks around it. -/
structure IntegerText (s : List Char) (n : Int) : Prop where
  numeral : ∃ before numeral after, s = before ++ numeral ++ after ∧ (∀ c ∈ before, Text.isBlank c = true) ∧
    (∀ c ∈ after, Text.isBlank c = true) ∧ Denotes numeral n
  low : -2 ^ 63 ≤ n
  high : n ≤ 2 ^ 64 - 1

/-- The number that digits denote, digit by digit. -/
theorem ofDigits_eq (ds : List Char) : Decimal.ofDigits ds = digitsValue ds := by
  induction ds using List.reverseRecOn with
  | nil => rfl
  | append_singleton ds c ih =>
    have hsnoc : Decimal.ofDigits (ds ++ [c]) = 10 * Decimal.ofDigits ds + (c.toNat - 48) := by
      rw [Decimal.ofDigits, List.foldl_append]
      rfl
    rw [hsnoc, ih, digitsValue, digitsValue, List.reverse_append, List.reverse_singleton, List.singleton_append,
      List.map_cons, Nat.ofDigits_cons]
    show _ = (c.toNat - 48) + _
    omega

/-- A numeral is a sign and at least one digit, and nothing else. -/
theorem numeral?_of_scanSign {s ds : List Char} {negative : Bool} (h : Number.scanSign s = (negative, ds)) {n : Int} :
    numeral? s = some n ↔
      ds ≠ [] ∧ (∀ c ∈ ds, c.isDigit = true) ∧ n = withSign negative (digitsValue ds) := by
  simp only [numeral?, h, ofDigits_eq, List.all_eq_true]
  split
  · next hdigits =>
    rw [Option.some.injEq, and_iff_right hdigits.1, and_iff_right hdigits.2, withSign, eq_comm]
  · next hdigits =>
    refine iff_of_false (by simp) ?_
    rintro ⟨hne, hall, -⟩
    exact hdigits ⟨hne, hall⟩

/-- A text begins with a sign of one kind or the other, or with neither. -/
theorem scanSign_cases (s : List Char) :
    (∃ ds, s = '-' :: ds ∧ Number.scanSign s = (true, ds)) ∨
      (∃ ds, s = '+' :: ds ∧ Number.scanSign s = (false, ds)) ∨ Number.scanSign s = (false, s) := by
  unfold Number.scanSign
  split
  · exact .inl ⟨_, rfl, rfl⟩
  · exact .inr (.inl ⟨_, rfl, rfl⟩)
  · exact .inr (.inr rfl)

/-- A numeral is read as what it denotes. -/
theorem numeral?_eq_some_iff {s : List Char} {n : Int} : numeral? s = some n ↔ Denotes s n := by
  constructor
  · intro h
    rcases scanSign_cases s with ⟨ds, rfl, hsign⟩ | ⟨ds, rfl, hsign⟩ | hsign
    · obtain ⟨hne, hdigits, rfl⟩ := (numeral?_of_scanSign hsign).1 h
      exact .minus hne hdigits
    · obtain ⟨hne, hdigits, rfl⟩ := (numeral?_of_scanSign hsign).1 h
      exact .plus hne hdigits
    · obtain ⟨hne, hdigits, rfl⟩ := (numeral?_of_scanSign hsign).1 h
      exact .unsigned hne hdigits
  · intro h
    cases h with
    | unsigned hne hdigits =>
      have hsign := Number.scanSign_of_isDigit fun c hc => hdigits c (List.mem_of_mem_head? hc)
      exact (numeral?_of_scanSign hsign).2 ⟨hne, hdigits, rfl⟩
    | plus hne hdigits => exact (numeral?_of_scanSign rfl).2 ⟨hne, hdigits, rfl⟩
    | minus hne hdigits => exact (numeral?_of_scanSign rfl).2 ⟨hne, hdigits, rfl⟩

/-- There is no blank in a numeral. -/
theorem Denotes.not_isBlank {s : List Char} {n : Int} (h : Denotes s n) : ∀ c ∈ s, Text.isBlank c = false := by
  cases h with
  | unsigned hne hdigits => exact fun c hc => not_isBlank_of_isDigit (hdigits c hc)
  | plus hne hdigits =>
    exact List.forall_mem_cons.2 ⟨by decide, fun c hc => not_isBlank_of_isDigit (hdigits c hc)⟩
  | minus hne hdigits =>
    exact List.forall_mem_cons.2 ⟨by decide, fun c hc => not_isBlank_of_isDigit (hdigits c hc)⟩

/-- The text of an integer is a numeral of it once the blanks are taken away. -/
theorem integerText_iff {s : List Char} {n : Int} :
    IntegerText s n ↔ Denotes (Text.trim s) n ∧ -2 ^ 63 ≤ n ∧ n ≤ 2 ^ 64 - 1 := by
  constructor
  · rintro ⟨⟨before, numeral, after, rfl, hbefore, hafter, hdenotes⟩, hlow, hhigh⟩
    have htrim : Text.trim (before ++ numeral ++ after) = numeral := by
      rw [Text.trim, Text.trimBoth_append_append hbefore hafter,
        Text.trimBoth_eq_self_of_forall hdenotes.not_isBlank]
    rw [htrim]
    exact ⟨hdenotes, hlow, hhigh⟩
  · rintro ⟨hdenotes, hlow, hhigh⟩
    obtain ⟨before, after, hbefore, hafter, hs⟩ := Text.exists_trimBoth Text.isBlank s
    exact ⟨⟨before, _, after, hs, hbefore, hafter, hdenotes⟩, hlow, hhigh⟩

/-- The words of the reader read exactly the texts of integers. -/
theorem integer?_trim_eq_some_iff {s : List Char} {v : Number} :
    integer? (Text.trim s) = some v ↔ ∃ n h, v = .integer n h ∧ IntegerText s n := by
  simp only [integer?_eq_some_iff, numeral?_eq_some_iff, integerText_iff]
  constructor
  · rintro ⟨n, hdenotes, h, rfl⟩
    exact ⟨n, h, rfl, hdenotes, by omega⟩
  · rintro ⟨n, h, rfl, hdenotes, -⟩
    exact ⟨n, hdenotes, h, rfl⟩

/-- A text is decoded for an integer schema without the blanks around it, and an error shows all of it. -/
theorem decodeText_integer (text : String) (bounds : Bounds Int64) :
    decodeText text (some (.integer bounds)) =
      match integer? (Text.trim text.toList) with
      | some v => .ok (.num v)
      | none => .error (.parse "integer" text) := by
  simp only [decodeText, scalar?]
  cases integer? (Text.trim text.toList) <;> rfl

/-- Under a schema of numbers an integer is looked for first. -/
theorem decodeText_number_of_integer? {text : String} {v : Number}
    (h : integer? (Text.trim text.toList) = some v) (bounds : Bounds Binary64) :
    decodeText text (some (.number bounds)) = .ok (.num v) := by
  simp only [decodeText, scalar?, number?, h, Option.some_or, Option.map_some]

end Codec

namespace CodecRegistry

/-- A plain text payload is decoded as the text that it encodes. -/
theorem decode_text {r : CodecRegistry} {content : Content} {default : String} {m : MediaType} {text : String}
    (hr : r.codec? MediaType.plainText = some Codec.plainText)
    (hm : MediaType.ofString? (content.contentTypeOr default) = some m)
    (hessence : m.essence = MediaType.plainText) (hcharset : Codec.checkCharset m.params = .ok ())
    (hbody : content.body = Text.utf8 text) (schema : Option DataSchema) :
    r.decode content default schema =
      (Codec.decodeText text (schema.bind (·.kind))).mapError (.decode MediaType.plainText) := by
  have hdecode : Codec.plainText.decode content.body schema m.params =
      Codec.decodeText text (schema.bind (·.kind)) := by
    simp only [Codec.plainText, hcharset, hbody, Text.ofUtf8?_utf8]
    rfl
  simp only [decode, hm, hessence, hr, hdecode]
  cases Codec.decodeText text (schema.bind (·.kind)) <;> rfl

/-- A text that is decoded under a schema of integers yields an integer exactly if it is the text of that integer,
and is refused as it stands else. Under a schema of numbers the same texts yield the same integers. -/
theorem decode_integer {r : CodecRegistry} {content : Content} {default : String} {m : MediaType} {text : String}
    (hr : r.codec? MediaType.plainText = some Codec.plainText)
    (hm : MediaType.ofString? (content.contentTypeOr default) = some m)
    (hessence : m.essence = MediaType.plainText) (hcharset : Codec.checkCharset m.params = .ok ())
    (hbody : content.body = Text.utf8 text) :
    (∀ (s : DataSchema) bounds, s.kind = some (.integer bounds) →
      (∀ v, r.decode content default (some s) = .ok v ↔
        ∃ n h, v = .num (.integer n h) ∧ Codec.IntegerText text.toList n) ∧
      ((∀ n, ¬ Codec.IntegerText text.toList n) →
        r.decode content default (some s) = .error (.decode MediaType.plainText (.parse "integer" text)))) ∧
    ∀ (s : DataSchema) bounds, s.kind = some (.number bounds) → ∀ n, Codec.IntegerText text.toList n →
      ∃ h, r.decode content default (some s) = .ok (.num (.integer n h)) := by
  have hdecode := decode_text hr hm hessence hcharset hbody
  refine ⟨fun s bounds hkind => ?_, fun s bounds hkind n hn => ?_⟩
  · rw [hdecode, Option.bind_some, hkind, Codec.decodeText_integer]
    cases hread : Codec.integer? (Text.trim text.toList) with
    | some v =>
      obtain ⟨n, h, rfl, hn⟩ := Codec.integer?_trim_eq_some_iff.1 hread
      -- A text denotes one integer only: whatever else it were the text of would be read from it too.
      refine ⟨fun w => ⟨fun hw => ?_, ?_⟩, fun hno => absurd hn (hno n)⟩
      · cases hw
        exact ⟨n, h, rfl, hn⟩
      · rintro ⟨n', h', rfl, hn'⟩
        have hread' := Codec.integer?_trim_eq_some_iff.2 ⟨n', h', rfl, hn'⟩
        rw [hread] at hread'
        cases hread'
        rfl
    | none =>
      refine ⟨fun w => ⟨nofun, ?_⟩, fun _ => rfl⟩
      rintro ⟨n, h, rfl, hn⟩
      rw [Codec.integer?_trim_eq_some_iff.2 ⟨n, h, rfl, hn⟩] at hread
      cases hread
  · have h : -9223372036854775808 ≤ n ∧ n < 18446744073709551616 := by
      have := hn.low
      have := hn.high
      omega
    have hread := Codec.integer?_trim_eq_some_iff.2 ⟨n, h, rfl, hn⟩
    rw [hdecode, Option.bind_some, hkind, Codec.decodeText_number_of_integer? hread]
    exact ⟨h, rfl⟩

/-- The greatest unsigned integer with blanks, a plus sign and zeros in front of it; the next one is refused under a
schema of integers. -/
theorem decode_integer_greatest :
    (∃ h, standard.decode ⟨some "text/plain", Text.utf8 " +0018446744073709551615\n"⟩ "application/json"
        (some { kind := some (.number {}) }) = .ok (.num (.integer 18446744073709551615 h))) ∧
      standard.decode ⟨some "text/plain", Text.utf8 " +0018446744073709551616\n"⟩ "application/json"
          (some { kind := some (.integer {}) }) =
        .error (.decode "text/plain" (.parse "integer" " +0018446744073709551616\n")) := by
  constructor
  · have hdenotes : Codec.Denotes ('+' :: "0018446744073709551615".toList) 18446744073709551615 := by
      have hvalue : Codec.digitsValue "0018446744073709551615".toList = 18446744073709551615 := by decide +kernel
      have hplus := @Codec.Denotes.plus "0018446744073709551615".toList (by decide)
        (List.all_eq_true.1 (by decide))
      rwa [hvalue] at hplus
    have hn : Codec.IntegerText " +0018446744073709551615\n".toList 18446744073709551615 :=
      ⟨⟨[' '], _, ['\n'], by decide, List.all_eq_true.1 (by decide), List.all_eq_true.1 (by decide), hdenotes⟩,
        by decide, by decide⟩
    exact (decode_integer (m := ⟨"text/plain", []⟩) rfl (by decide +kernel) rfl rfl rfl).2 _ _ rfl _ hn
  · refine ((decode_integer (m := ⟨"text/plain", []⟩) rfl (by decide +kernel) rfl rfl rfl).1 _ _ rfl).2 ?_
    intro n hn
    obtain ⟨hdenotes, -, hhigh⟩ := Codec.integerText_iff.1 hn
    have hread : Codec.numeral? (Text.trim " +0018446744073709551616\n".toList) = some 18446744073709551616 := by
      decide +kernel
    rw [Codec.numeral?_eq_some_iff.2 hdenotes] at hread
    cases hread
    exact absurd hhigh (by decide)

end CodecRegistry
end WebOfThings
