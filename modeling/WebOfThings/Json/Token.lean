import WebOfThings.Json.Basic
import WebOfThings.Text.Hex

/-!
# Tokens of JSON text

The characters of a JSON text are grouped into punctuation and scalar values; blanks between tokens are
skipped. Strings hold no control characters, and numerals follow the JSON grammar. A token may be
well-formed and still denote nothing: a string with an unpaired half of a surrogate pair, a numeral beyond
the doubles.

A string is scanned in two passes. The first finds its parts up to the closing quote, characters and escaped
units of 16 bits; the second joins the units, two halves of a surrogate pair to one character. Only the
second can fail for a reason that is not in the grammar, and a reader that passes over the string does
without it.

`scanTokens` gives the tokens up to the place where there is none, and what stands there: nothing, if the
text is made of tokens.

Main statement: `next?_lt` (a token takes at least one character), which bounds the reading of a whole text.
-/

namespace WebOfThings.Json

/-- A token: punctuation, a string, or another scalar value; `none` where it denotes nothing. -/
inductive Token where
  | openArray
  | closeArray
  | openObject
  | closeObject
  | comma
  | colon
  | string (s : Option String)
  | scalar (v : Option Json)

/-- A part of a string: a character, or an escaped unit of 16 bits. -/
inductive StringPart where
  | char (c : Char)
  | unit (n : Nat)

namespace Token

/-- The blanks of JSON. -/
def isSpace (c : Char) : Bool := c = ' ' || c = '\n' || c = '\r' || c = '\t'

/-- The number of four hexadecimal digits. -/
def hex4? (a b c d : Char) : Option Nat := do
  return ((← Text.hexValue? a) * 16 + (← Text.hexValue? b)) * 256 +
    (← Text.hexValue? c) * 16 + (← Text.hexValue? d)

/-- Whether a unit of 16 bits is the first half of a surrogate pair. -/
def isHigh (n : Nat) : Bool := 0xD800 ≤ n && n < 0xDC00

/-- Whether a unit of 16 bits is the second half of a surrogate pair. -/
def isLow (n : Nat) : Bool := 0xDC00 ≤ n && n < 0xE000

/-- The character of an escape by one letter. -/
def ofEscape? : Char → Option Char
  | '"' => some '"'
  | '\\' => some '\\'
  | '/' => some '/'
  | 'b' => some '\x08'
  | 'f' => some '\x0c'
  | 'n' => some '\n'
  | 'r' => some '\r'
  | 't' => some '\t'
  | _ => none

/-- What the next escaped unit adds to a string whose last unit was `high`, if that is the first
half of a pair: the unit to wait with, or the character that is complete. -/
def joinUnit? (high : Option Nat) (n : Nat) : Option (Option Nat × List Char) :=
  match high with
  | none =>
    if isHigh n then some (some n, [])
    else if isLow n then none
    else some (none, [Char.ofNat n])
  | some h =>
    if isLow n then some (none, [Char.ofNat (0x10000 + (h - 0xD800) * 0x400 + (n - 0xDC00))])
    else none

/-- The characters of the parts of a string whose last unit was `high`, if that is the first half of a
surrogate pair. The first half of a pair has to be followed by the second. -/
def join? (high : Option Nat) : List StringPart → Option (List Char)
  | [] => if high.isSome then none else some []
  | .unit n :: rest => do
    let (high, done) ← joinUnit? high n
    return done ++ (← join? high rest)
  | .char c :: rest => if high.isSome then none else (join? none rest).map (c :: ·)

/-- The parts of a string up to its closing quote, and what follows it. -/
def scanParts? : List Char → Option (List StringPart × List Char)
  | '\\' :: 'u' :: a :: b :: c :: d :: rest => do
    let n ← hex4? a b c d
    let (parts, after) ← scanParts? rest
    return (.unit n :: parts, after)
  | '\\' :: c :: rest => do
    let ch ← ofEscape? c
    let (parts, after) ← scanParts? rest
    return (.char ch :: parts, after)
  | c :: rest =>
    if c = '"' then some ([], rest)
    else if c = '\\' ∨ c.toNat < 0x20 then none
    else do
      let (parts, after) ← scanParts? rest
      return (.char c :: parts, after)
  | [] => none

/-- The string of its parts. -/
def ofParts (parts : List StringPart) : Token := .string ((join? none parts).map String.ofList)

/-- The number of a numeral. -/
def ofNumeral (n : Number.Numeral) : Token := .scalar ((Number.ofNumeral? n).map .num)

/-- The token at the start of a text and what follows it. -/
def next? : List Char → Option (Token × List Char)
  | '[' :: rest => some (.openArray, rest)
  | ']' :: rest => some (.closeArray, rest)
  | '\x7b' :: rest => some (.openObject, rest)
  | '\x7d' :: rest => some (.closeObject, rest)
  | ',' :: rest => some (.comma, rest)
  | ':' :: rest => some (.colon, rest)
  | '"' :: rest => (scanParts? rest).map fun (parts, after) => (ofParts parts, after)
  | 'n' :: 'u' :: 'l' :: 'l' :: rest => some (.scalar (some .null), rest)
  | 't' :: 'r' :: 'u' :: 'e' :: rest => some (.scalar (some (.bool true)), rest)
  | 'f' :: 'a' :: 'l' :: 's' :: 'e' :: rest => some (.scalar (some (.bool false)), rest)
  | s => (Number.scanNumeral? s).map fun (n, after) => (ofNumeral n, after)

/-! ## A token takes at least one character -/

/-- A string takes at least its closing quote. -/
theorem scanParts?_lt {s rest : List Char} {parts : List StringPart}
    (h : scanParts? s = some (parts, rest)) : rest.length < s.length := by
  fun_induction scanParts? s generalizing parts rest with
  | case1 a b c d r ih =>
    simp only [Option.bind_eq_bind, Option.bind_eq_some_iff, Option.pure_def,
      Option.some.injEq] at h
    obtain ⟨n, -, ⟨s, after⟩, hs, he⟩ := h
    cases he
    have := ih hs
    simp only [List.length_cons]
    omega
  | case2 c r hu ih =>
    simp only [Option.bind_eq_bind, Option.bind_eq_some_iff, Option.pure_def,
      Option.some.injEq] at h
    obtain ⟨ch, -, ⟨s, after⟩, hs, he⟩ := h
    cases he
    have := ih hs
    simp only [List.length_cons]
    omega
  | case3 =>
    cases h
    simp
  | case4 => cases h
  | case5 c r _ _ hq hc ih =>
    simp only [Option.bind_eq_bind, Option.bind_eq_some_iff, Option.pure_def,
      Option.some.injEq] at h
    obtain ⟨⟨s, after⟩, hs, he⟩ := h
    cases he
    have := ih hs
    simp only [List.length_cons]
    omega
  | case6 => cases h

/-- A token takes at least one character. -/
theorem next?_lt {s rest : List Char} {t : Token} (h : next? s = some (t, rest)) :
    rest.length < s.length := by
  unfold next? at h
  split at h
  case h_7 r =>
    obtain ⟨⟨u, after⟩, hs, he⟩ := Option.map_eq_some_iff.1 h
    cases he
    have := scanParts?_lt hs
    simp only [List.length_cons]
    omega
  case h_11 =>
    obtain ⟨⟨n, after⟩, hs, he⟩ := Option.map_eq_some_iff.1 h
    cases he
    exact Number.scanNumeral?_lt hs
  all_goals
    cases h
    simp only [List.length_cons]
    omega

end Token

/-- The tokens at the start of a text, and what follows them: nothing, or something that is no
token. -/
def scanTokens (s : List Char) : List Token × List Char :=
  match _hs : s.dropWhile Token.isSpace with
  | [] => ([], [])
  | c :: r =>
    match _hn : Token.next? (c :: r) with
    | none => ([], c :: r)
    | some (t, rest) =>
      let (more, after) := scanTokens rest
      (t :: more, after)
termination_by s.length
decreasing_by
  have := Token.next?_lt _hn
  have := Number.length_dropWhile_le Token.isSpace s
  rw [_hs] at this
  omega

/-- The tokens of a text; `none` where it is not made of tokens. -/
def tokens? (s : List Char) : Option (List Token) :=
  match scanTokens s with
  | (ts, []) => some ts
  | (_, _ :: _) => none

end WebOfThings.Json
