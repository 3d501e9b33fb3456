import WebOfThings.Codec.Numeral
import WebOfThings.Codec.Structured
import WebOfThings.MediaType

/-!
# The plain text codec

Texts are UTF-8. How a payload is read depends on the expected schema: as a truth value, a number or `null`
with blanks around it, as the JSON text of an array or an object, and in all other cases as the text itself.
A text that is a numeral of an integer of 64 bits is that integer, under a number schema too. This is
`TextCodec`.

`check_charset` comes first, in both directions: a charset parameter has to name one that UTF-8 covers, in
any case. `parse_integer` tries a signed word and then an unsigned one, which together are the integers that
a value can hold (`integer?_eq`); what is no integer is tried as the decimal of a finite double under a
number schema only. Blanks are those of Unicode, and the error of a refused text has the text as it came,
blanks included.

An array or object schema asks for JSON and does not look at what kind of value it gets.

Main statement: `integer?_eq_some_iff` (which texts are integers).
-/

namespace WebOfThings.Codec

/-- The charsets that UTF-8 covers. -/
def charsets : List String := ["utf-8", "utf8", "us-ascii", "ascii"]

/-- The charset parameter, which may only name a charset that UTF-8 covers. -/
def checkCharset (params : Dict String) : Except CodecFault Unit :=
  match Dict.get? "charset" params with
  | none => .ok ()
  | some charset =>
    if charsets.contains (MediaType.lowerCase charset) then .ok () else .error (.charset charset)

/-! ## Numerals -/

/-- The integer of a numeral, if a signed or else an unsigned word of 64 bits holds it. -/
def integer? (s : List Char) : Option Number :=
  ((Word.signed.read? s).or (Word.unsigned.read? s)).bind Number.ofInt?

/-- The digits after the point of a decimal, and what follows them. -/
def fraction : List Char → List Char × List Char
  | '.' :: rest => (rest.takeWhile Char.isDigit, rest.dropWhile Char.isDigit)
  | s => ([], s)

/-- The finite double of a decimal: digits before or after an optional point, with an optional sign
and an optional exponent. -/
def decimal? (s : List Char) : Option Number := do
  let (negative, s) := Number.scanSign s
  let whole := s.takeWhile Char.isDigit
  let (places, s) := fraction (s.dropWhile Char.isDigit)
  if whole ++ places = [] then none
  else
    let (exponent, s) ← Number.scanExponent? s
    if s ≠ [] then none
    else
      Number.ofBinary64? <|
        .ofDecimal negative
          ⟨Decimal.ofDigits (whole ++ places), exponent.getD 0 - (places.length : Int)⟩

/-- The number of a text: an integer where 64 bits hold it, else a finite double. -/
def number? (s : List Char) : Option Number := (integer? s).or (decimal? s)

/-- A numeral with a minus sign denotes no positive number. -/
theorem nonpos_of_numeral? {s : List Char} {i : Int} (h : numeral? s = some i) (hminus : s.head? = some '-') :
    i ≤ 0 := by
  obtain ⟨rest, rfl⟩ := List.head?_eq_some_iff.1 hminus
  simp only [numeral?, Number.scanSign, if_true] at h
  split at h
  · cases h
    omega
  · cases h

/-- The two words together read the numerals of the integers of 64 bits: what only the unsigned one holds has no
minus sign. -/
theorem or_read?_eq_some_iff {s : List Char} {i : Int} :
    (Word.signed.read? s).or (Word.unsigned.read? s) = some i ↔
      numeral? s = some i ∧ -9223372036854775808 ≤ i ∧ i < 18446744073709551616 := by
  simp only [Option.or_eq_some_iff, Option.eq_none_iff_forall_ne_some, ne_eq, Word.read?_eq_some_iff, Word.Holds,
    Word.signed, Word.unsigned]
  constructor
  · rintro (⟨-, hi, hheld⟩ | ⟨-, -, hi, hheld⟩)
    · exact ⟨hi, by omega⟩
    · exact ⟨hi, by omega⟩
  · rintro ⟨hi, hrange⟩
    by_cases hheld : i ≤ 9223372036854775807
    · exact .inl ⟨.inl (by decide), hi, hrange.1, hheld⟩
    · have hhead : s.head? ≠ some '-' := fun hminus => by
        have := nonpos_of_numeral? hi hminus
        omega
      refine .inr ⟨?_, .inr hhead, hi, by omega⟩
      rintro n ⟨-, hn, hsigned⟩
      rw [hi] at hn
      cases hn
      exact hheld hsigned.2

/-- A text is read as an integer if its numeral fits a number. -/
theorem integer?_eq (s : List Char) : integer? s = (numeral? s).bind Number.ofInt? := by
  refine Option.ext fun n => ?_
  simp only [integer?, Option.bind_eq_some_iff, or_read?_eq_some_iff, and_assoc]
  refine exists_congr fun i => and_congr_right fun _ => ?_
  constructor
  · exact fun h => h.2.2
  · intro hn
    rw [Number.ofInt?] at hn
    split at hn
    · next h => exact ⟨h.1, h.2, by rw [Number.ofInt?_eq_some h]; exact hn⟩
    · cases hn

/-- A text is an integer exactly if it is a numeral of an integer of 64 bits. -/
theorem integer?_eq_some_iff {s : List Char} {n : Number} :
    integer? s = some n ↔ ∃ i, numeral? s = some i ∧ ∃ h, n = .integer i h := by
  simp only [integer?_eq, Option.bind_eq_some_iff, Number.ofInt?]
  constructor
  · rintro ⟨i, hi, hn⟩
    split at hn
    · next h =>
      cases hn
      exact ⟨i, hi, h, rfl⟩
    · cases hn
  · rintro ⟨i, hi, h, rfl⟩
    exact ⟨i, hi, dif_pos h⟩

/-! ## The codec -/

/-- The value of a text without its surrounding blanks, for the kinds whose values are scalars. -/
def scalar? (trimmed : List Char) : SchemaKind DataSchema → Option Json
  | .boolean =>
    if trimmed = ['t', 'r', 'u', 'e'] then some (.bool true)
    else if trimmed = ['f', 'a', 'l', 's', 'e'] then some (.bool false)
    else none
  | .integer _ => (integer? trimmed).map .num
  | .number _ => (number? trimmed).map .num
  | .null => if trimmed = [] ∨ trimmed = ['n', 'u', 'l', 'l'] then some .null else none
  | _ => none

/-- The value of a text under a kind of schema. -/
def decodeText (text : String) : Option (SchemaKind DataSchema) → Except CodecFault Json
  | none | some (.string _) => .ok (.str text)
  | some (.array ..) | some (.object ..) =>
    match Json.ofText? text with
    | some v => .ok v
    | none => .error .json
  | some kind =>
    match scalar? (Text.trim text.toList) kind with
    | some v => .ok v
    | none => .error (.parse kind.typeName text)

/-- The text of a value: nothing for `null`, a string itself, and JSON for the rest. -/
def encodeText : Json → String
  | .null => ""
  | .str s => s
  | v => v.text

/-- The codec of plain text. -/
def plainText : Codec where
  mediaType := MediaType.plainText
  encode v params := do
    checkCharset params
    return Text.utf8 (encodeText v)
  decode body schema params := do
    checkCharset params
    match Text.ofUtf8? body with
    | some text => decodeText text (schema.bind (·.kind))
    | none => .error .utf8

end WebOfThings.Codec
