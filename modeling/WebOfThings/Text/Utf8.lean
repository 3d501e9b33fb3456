/-!
# UTF-8

Texts as lists of bytes, for the payloads that cross the network, in terms of the encoding that the library
of strings has. Bytes that are not well-formed are no text; nothing is put in their place.

Main statement: `ofUtf8?_utf8` (the bytes of a text read back as that text).
-/

namespace WebOfThings.Text

/-- The UTF-8 bytes of a text. -/
def utf8 (s : String) : List UInt8 :=
  s.toUTF8.data.toList

/-- The text that the bytes encode, `none` if they are not well-formed UTF-8. -/
def ofUtf8? (bytes : List UInt8) : Option String :=
  String.fromUTF8? ⟨bytes.toArray⟩

/-- The bytes of a text are read as this text. -/
theorem ofUtf8?_utf8 (s : String) : ofUtf8? (utf8 s) = some s := by
  simp only [ofUtf8?, utf8, String.fromUTF8?, String.toUTF8_eq_toByteArray,
    dif_pos s.isValidUTF8]
  rfl

end WebOfThings.Text
