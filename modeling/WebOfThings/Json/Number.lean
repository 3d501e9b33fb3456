import WebOfThings.Binary64.Scaled

/-!
# Numbers of JSON

A number is an integer of 64 bits, signed or unsigned, or a finite double. The two kinds are never equal:
`1` is not `1.0`. A numeral without point and exponent is an integer where the integers reach, every other
numeral is a double, and so is `-0`. Doubles are written with the fewest digits that denote them, and read
by scaling the digits that 64 bits hold.

Writing has one choice, where the exponent starts (`positionalFrom` and `positionalBelow`): between the two
the digits stand around a point with a digit on either side, elsewhere one digit stands in front of it. A
double without a fractional part is written with `.0` behind it, which keeps it apart from an integer.

Reading scans a numeral into its parts (`Numeral`) and then decides what it denotes. Parts that are there
are complete: a point has digits behind it and so has an exponent, and a number has no superfluous zeros in
front. A numeral beyond the doubles denotes nothing, though it is one.

Main statements: `ofInt?_eq_some` (an integer in range is kept exactly), `ofDigits_digits` (the digits of a
number denote it) and `scanNumeral?_lt` (a numeral takes at least one character).
-/

namespace WebOfThings

/-- An integer of 64 bits, signed or unsigned, or a finite double. -/
inductive Number where
  | integer (n : Int) (inRange : -9223372036854775808 ≤ n ∧ n < 18446744073709551616)
  | float (x : Binary64) (finite : x.isFinite = true)
  deriving DecidableEq

namespace Number

/-- The integer as a number, if 64 bits hold it. -/
def ofInt? (n : Int) : Option Number :=
  if h : -9223372036854775808 ≤ n ∧ n < 18446744073709551616 then some (.integer n h) else none

/-- The double as a number, if it is finite. -/
def ofBinary64? (x : Binary64) : Option Number :=
  if h : x.isFinite = true then some (.float x h) else none

/-- An integer in range is kept exactly. -/
theorem ofInt?_eq_some {n : Int} (h : -9223372036854775808 ≤ n ∧ n < 18446744073709551616) :
    ofInt? n = some (.integer n h) := dif_pos h

/-- Zero, as a number of either kind may serve as a default. -/
def zero : Number := .integer 0 (by decide)

instance : Inhabited Number := ⟨zero⟩

/-- Equality of numbers: of the same kind, and equal as integers or as doubles. -/
def eqv : Number → Number → Bool
  | .integer n _, .integer m _ => n = m
  | .float x _, .float y _ => x.eqv y
  | _, _ => false

/-- The integer, `none` for a double. -/
def toInt? : Number → Option Int
  | .integer n _ => some n
  | .float _ _ => none

/-- The double nearest to the number. -/
def toBinary64 : Number → Binary64
  | .integer n _ => .ofInt n
  | .float x _ => x

/-! ## Writing -/

/-- The decimal digits of a natural number. -/
def digits (n : Nat) : List Char := Nat.toDigits 10 n

end Number

namespace Decimal

/-- The number that digits denote, as the one that `Nat.toDigits` writes. -/
theorem ofDigits_eq (s : List Char) : ofDigits s = Nat.ofDigitChars 10 s 0 :=
  Nat.ofDigitChars_eq_foldl.symm

/-- The digits of a number denote it. -/
theorem ofDigits_digits (n : Nat) : ofDigits (Number.digits n) = n := by
  rw [ofDigits_eq]
  exact Nat.ofDigitChars_ten_toDigits

/-- Zeros in front of digits denote nothing. -/
theorem ofDigits_replicate_append (k : Nat) (s : List Char) :
    ofDigits (List.replicate k '0' ++ s) = ofDigits s := by
  rw [ofDigits_eq, ofDigits_eq, Nat.ofDigitChars_append, Nat.ofDigitChars_replicate_zero, Nat.mul_zero]

end Decimal

namespace Number

/-- An integer in decimal. -/
def integerText (n : Int) : List Char :=
  if n < 0 then '-' :: digits n.natAbs else digits n.natAbs

/-- Decimal exponents of the first digit from which, and below which, a double is written without
exponent. -/
def positionalFrom : Int := -5

@[inherit_doc positionalFrom]
def positionalBelow : Int := 16

/-- The text of `0.d₁d₂… * 10 ^ point`. Without exponent there is always a point with a digit on
either side; with one, the point follows the first digit unless it is the only one, and the sign of
the exponent is always written. -/
def layout (ds : List Char) (point : Int) : List Char :=
  let leading := point - 1
  if positionalFrom ≤ leading ∧ leading < positionalBelow then
    if ds.length ≤ point then
      ds ++ List.replicate (point.toNat - ds.length) '0' ++ ['.', '0']
    else if 0 < point then
      ds.take point.toNat ++ '.' :: ds.drop point.toNat
    else
      '0' :: '.' :: List.replicate (-point).toNat '0' ++ ds
  else
    let mantissa :=
      match ds with
      | d :: e :: rest => d :: '.' :: e :: rest
      | short => short
    mantissa ++ 'e' :: (if leading < 0 then '-' else '+') :: digits leading.natAbs

/-- The text of a finite double: the fewest digits that it is the nearest double to. -/
def floatText (x : Binary64) : List Char :=
  let sign := if x.negative then ['-'] else []
  if x.isZero then sign ++ ['0', '.', '0']
  else
    let d := x.shortest
    let all := digits d.digits
    let significant := (all.reverse.dropWhile (· = '0')).reverse
    sign ++ layout significant (all.length + d.exponent)

/-- The text of a number. -/
def text : Number → List Char
  | .integer n _ => integerText n
  | .float x _ => floatText x

/-! ## Reading -/

/-- The minus sign at the start of a text, if there is one, and what follows it. -/
def scanMinus : List Char → Bool × List Char
  | '-' :: rest => (true, rest)
  | s => (false, s)

/-- The sign at the start of a text, if there is one, and what follows it. -/
def scanSign : List Char → Bool × List Char
  | '-' :: rest => (true, rest)
  | '+' :: rest => (false, rest)
  | s => (false, s)

/-- The digits after a point at the start of a text, and what follows them; `none` if there is a
point without digits. -/
def scanFraction? : List Char → Option (Option (List Char) × List Char)
  | '.' :: rest =>
    if rest.takeWhile Char.isDigit = [] then none
    else some (some (rest.takeWhile Char.isDigit), rest.dropWhile Char.isDigit)
  | s => some (none, s)

/-- The exponent at the start of a text, and what follows it; `none` if its digits are missing. -/
def scanExponent? : List Char → Option (Option Int × List Char)
  | [] => some (none, [])
  | c :: rest =>
    if c = 'e' ∨ c = 'E' then
      let (negative, rest) := scanSign rest
      if rest.takeWhile Char.isDigit = [] then none
      else
        let n : Int := Decimal.ofDigits (rest.takeWhile Char.isDigit)
        some (some (if negative then -n else n), rest.dropWhile Char.isDigit)
    else some (none, c :: rest)

/-- Appends decimal digits to a number as long as 64 bits hold the result; the digits from the first
that does not fit are left over. -/
def takeDigits (n : Nat) : List Char → Nat × List Char
  | [] => (n, [])
  | c :: rest =>
    let next := 10 * n + (c.toNat - 48)
    if next < 18446744073709551616 then takeDigits next rest else (n, c :: rest)

/-- The decimal that digits before and after a point are read as. What 64 bits do not hold counts as
zeros before the point and as nothing after it. -/
def readDecimal (whole fraction : List Char) : Decimal :=
  let (n, left) := takeDigits 0 whole
  let (digits, ignored) := takeDigits n fraction
  ⟨digits, (left.length : Int) - (fraction.length - ignored.length : Nat)⟩

/-- A numeral: its sign, its digits before and after the point, and its exponent. -/
structure Numeral where
  negative : Bool
  whole : List Char
  fraction : Option (List Char)
  exponent : Option Int

/-- The number that a numeral denotes, if doubles reach that far. Only a numeral without point and
exponent is an integer, and `-0` is the double. -/
def ofNumeral? (n : Numeral) : Option Number :=
  let double : Option Number :=
    let d := readDecimal n.whole (n.fraction.getD [])
    ofBinary64? <| .ofScaled n.negative ⟨d.digits, d.exponent + n.exponent.getD 0⟩
  if n.fraction.isNone && n.exponent.isNone then
    let m : Int := Decimal.ofDigits n.whole
    if n.negative && m = 0 then double else (ofInt? (if n.negative then -m else m)).or double
  else double

/-- The numeral at the start of a text and what follows it. There are no superfluous leading zeros,
and a point or an exponent has a digit after it. -/
def scanNumeral? (s : List Char) : Option (Numeral × List Char) :=
  let (negative, s) := scanMinus s
  let whole := s.takeWhile Char.isDigit
  if whole = [] ∨ (whole.head? = some '0' ∧ 1 < whole.length) then none
  else
    match scanFraction? (s.dropWhile Char.isDigit) with
    | none => none
    | some (fraction, s) =>
      match scanExponent? s with
      | none => none
      | some (exponent, s) => some (⟨negative, whole, fraction, exponent⟩, s)

/-- Further digits do not make a number smaller. -/
theorem le_foldl_digits (n : Nat) (s : List Char) :
    n ≤ s.foldl (fun n c => 10 * n + (c.toNat - 48)) n := by
  induction s generalizing n with
  | nil => exact Nat.le_refl n
  | cons c s ih =>
    refine Nat.le_trans ?_ (ih _)
    show n ≤ 10 * n + (c.toNat - 48)
    omega

/-! ## A numeral takes at least one character -/

/-- Dropping characters makes no list longer. -/
theorem length_dropWhile_le {α : Type} (p : α → Bool) (s : List α) :
    (s.dropWhile p).length ≤ s.length :=
  (List.dropWhile_sublist p).length_le

/-- Reading a minus sign takes nothing back. -/
theorem scanMinus_le (s : List Char) : (scanMinus s).2.length ≤ s.length := by
  unfold scanMinus
  split <;> simp

/-- Reading a sign takes nothing back. -/
theorem scanSign_le (s : List Char) : (scanSign s).2.length ≤ s.length := by
  unfold scanSign
  split <;> simp

/-- Reading a fraction takes nothing back. -/
theorem scanFraction?_le {s rest : List Char} {f : Option (List Char)}
    (h : scanFraction? s = some (f, rest)) : rest.length ≤ s.length := by
  unfold scanFraction? at h
  split at h
  · next r =>
    split at h
    · cases h
    · cases h
      exact Nat.le_succ_of_le (length_dropWhile_le _ r)
  · cases h
    exact Nat.le_refl _

/-- Reading an exponent takes nothing back. -/
theorem scanExponent?_le {s rest : List Char} {e : Option Int}
    (h : scanExponent? s = some (e, rest)) : rest.length ≤ s.length := by
  unfold scanExponent? at h
  split at h
  · cases h
    exact Nat.le_refl _
  · next c r =>
    split at h
    · have hsign := scanSign_le r
      simp only at h
      split at h
      · cases h
      · cases h
        exact Nat.le_succ_of_le (Nat.le_trans (length_dropWhile_le _ _) hsign)
    · cases h
      exact Nat.le_refl _

/-- Where something is taken, less is left. -/
theorem length_dropWhile_lt {p : Char → Bool} {s : List Char} (h : s.takeWhile p ≠ []) :
    (s.dropWhile p).length < s.length := by
  have hsum := congrArg List.length (List.takeWhile_append_dropWhile (p := p) (l := s))
  rw [List.length_append] at hsum
  have := List.length_pos_iff.2 h
  omega

/-- A numeral takes at least one character. -/
theorem scanNumeral?_lt {s rest : List Char} {n : Numeral}
    (h : scanNumeral? s = some (n, rest)) : rest.length < s.length := by
  unfold scanNumeral? at h
  have hminus := scanMinus_le s
  simp only at h
  split at h
  · cases h
  · next hwhole =>
    have hwhole := length_dropWhile_lt fun e => hwhole (.inl e)
    split at h
    · cases h
    · next fraction s2 hfraction =>
      have hfraction := scanFraction?_le hfraction
      split at h
      · cases h
      · next e s3 hexponent =>
        have hexponent := scanExponent?_le hexponent
        cases h
        omega

end Number
end WebOfThings
