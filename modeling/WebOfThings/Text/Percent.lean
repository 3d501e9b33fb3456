import WebOfThings.Text.Utf8

/-!
# Percent encoding

The unreserved characters of RFC 3986 stand for themselves, every other byte of the UTF-8 text is written
`%XX` with upper case digits. Letters beyond ASCII are no unreserved characters, so each of their bytes is
encoded. What is left are unreserved characters, percent signs and hexadecimal digits, and none of them is a
delimiter of a URI: this is why a value cannot add a segment or a query to the href that it is put into.
-/

namespace WebOfThings.Text

/-- The unreserved characters of RFC 3986. -/
def isUnreserved (c : Char) : Bool :=
  c.isAlphanum || c = '-' || c = '.' || c = '_' || c = '~'

/-- The upper case hexadecimal digit of a number below 16. -/
def upperHexDigit (n : Nat) : Char :=
  if n < 10 then Char.ofNat (48 + n) else Char.ofNat (55 + n)

/-- The text that one byte contributes. -/
def percentEncodeByte (b : UInt8) : List Char :=
  if isUnreserved (Char.ofNat b.toNat) then [Char.ofNat b.toNat]
  else ['%', upperHexDigit (b.toNat / 16), upperHexDigit (b.toNat % 16)]

/-- A text in which only unreserved characters and percent escapes are left. -/
def percentEncode (s : String) : List Char :=
  (utf8 s).flatMap percentEncodeByte

end WebOfThings.Text
