import WebOfThings.Json.Number

/-!
# Points in time

The date and time of day of RFC 3339, with nanoseconds and an offset from UTC in minutes, as `created` and
`modified` of a thing have them. A leap second is read as the last nanosecond before it.

The type holds what can be written: its year has four digits and its offset whole minutes, and that the day
exists in its month is part of it. A description that was read has no other points in time. A program that
builds one may use years and offsets that RFC 3339 has no form for; such a description cannot be exported,
and it is not represented here.

Reading follows the format as the program's library reads it: `T` may be any single ASCII character, a
fraction may have any number of digits of which nine count, and the offset is `Z` or a sign with hours and
minutes. Writing gives `T`, a fraction without trailing zeros, and `Z` for no offset.
-/

namespace WebOfThings

/-- Whether February has 29 days. -/
def isLeapYear (year : Nat) : Bool :=
  year % 4 = 0 && (year % 100 ≠ 0 || year % 400 = 0)

/-- The number of days of a month, counted from 1. -/
def daysInMonth (year month : Nat) : Nat :=
  if month = 2 then (if isLeapYear year then 29 else 28)
  else if month = 4 ∨ month = 6 ∨ month = 9 ∨ month = 11 then 30
  else 31

/-- A point in time as a clock with a known offset shows it, of the kind that RFC 3339 can write: its year has four
digits, and its offset is a whole number of minutes. -/
structure Timestamp where
  year : Nat
  month : Nat
  day : Nat
  hour : Nat
  minute : Nat
  second : Nat
  nanosecond : Nat
  /-- Minutes ahead of UTC. -/
  offset : Int
  year_le : year ≤ 9999
  month_range : 1 ≤ month ∧ month ≤ 12
  day_range : 1 ≤ day ∧ day ≤ daysInMonth year month
  time_lt : hour < 24 ∧ minute < 60 ∧ second < 60 ∧ nanosecond < 1000000000
  offset_range : -1440 < offset ∧ offset < 1440
  deriving DecidableEq

namespace Timestamp

/-! ## Reading -/

/-- Exactly `n` digits at the start of a text, as a number, and what follows them. -/
def scanDigits? (n : Nat) (s : List Char) : Option (Nat × List Char) :=
  if (s.take n).length = n ∧ (s.take n).all Char.isDigit then
    some (Decimal.ofDigits (s.take n), s.drop n)
  else none

/-- What follows a given character at the start of a text. -/
def scanChar? (c : Char) : List Char → Option (List Char)
  | d :: rest => if d = c then some rest else none
  | [] => none

/-- What follows the mark between date and time. It is written as `T`; when read, every single ASCII
character will do. -/
def scanSeparator? : List Char → Option (List Char)
  | c :: rest => if c.toNat < 128 then some rest else none
  | [] => none

/-- The nanoseconds of the digits after the point; digits beyond the ninth do not count. -/
def ofFraction (ds : List Char) : Nat :=
  Decimal.ofDigits ((ds.take 9) ++ List.replicate (9 - ds.length) '0')

/-- The fraction of a second at the start of a text, and what follows it. -/
def scanFraction? (s : List Char) : Option (Nat × List Char) :=
  (Number.scanFraction? s).map fun (ds, rest) => (ofFraction (ds.getD []), rest)

/-- The offset at the end of a text, in minutes. -/
def scanOffset? : List Char → Option Int
  | ['Z'] | ['z'] => some 0
  | '+' :: rest => amount? rest
  | '-' :: rest => (amount? rest).map (- ·)
  | _ => none
where
  /-- Hours and minutes. -/
  amount? (s : List Char) : Option Int := do
    let (hours, s) ← scanDigits? 2 s
    let (minutes, s) ← scanDigits? 2 (← scanChar? ':' s)
    if hours ≤ 23 ∧ minutes ≤ 59 ∧ s = [] then some ((hours : Int) * 60 + minutes) else none

/-- Whether the second after 23:59:59 UTC on the last day of a month would be the one after the given
minute. -/
def precedesLeapSecond (year month day hour minute : Nat) (offset : Int) : Bool :=
  let inUtc : Int := (hour : Int) * 60 + minute - offset
  (inUtc = 1439 && day = daysInMonth year month) ||
  (inUtc = -1 && day = 1) ||
  (inUtc = 2879 && day + 1 = daysInMonth year month)

/-- The point in time of its parts, if there is one. -/
def of? (year month day hour minute second nanosecond : Nat) (offset : Int) : Option Timestamp :=
  if hy : year ≤ 9999 then
    if hm : 1 ≤ month ∧ month ≤ 12 then
      if hd : 1 ≤ day ∧ day ≤ daysInMonth year month then
        if ht : hour < 24 ∧ minute < 60 ∧ second < 60 ∧ nanosecond < 1000000000 then
          if ho : -1440 < offset ∧ offset < 1440 then
            some ⟨year, month, day, hour, minute, second, nanosecond, offset, hy, hm, hd, ht, ho⟩
          else none
        else none
      else none
    else none
  else none

/-- The point in time that a text denotes. -/
def scan? (s : List Char) : Option Timestamp := do
  let (year, s) ← scanDigits? 4 s
  let (month, s) ← scanDigits? 2 (← scanChar? '-' s)
  let (day, s) ← scanDigits? 2 (← scanChar? '-' s)
  let (hour, s) ← scanDigits? 2 (← scanSeparator? s)
  let (minute, s) ← scanDigits? 2 (← scanChar? ':' s)
  let (second, s) ← scanDigits? 2 (← scanChar? ':' s)
  let (nanosecond, s) ← scanFraction? s
  let offset ← scanOffset? s
  if second = 60 then
    if precedesLeapSecond year month day hour minute offset then
      of? year month day hour minute 59 999999999 offset
    else none
  else of? year month day hour minute second nanosecond offset

/-- The point in time that a text denotes. -/
def ofString? (s : String) : Option Timestamp := scan? s.toList

/-! ## Writing -/

/-- A number in at least `n` digits. -/
def padded (n k : Nat) : List Char :=
  let ds := Number.digits k
  List.replicate (n - ds.length) '0' ++ ds

/-- The fraction of a second, without trailing zeros; nothing for none. -/
def fractionText (nanosecond : Nat) : List Char :=
  if nanosecond = 0 then []
  else '.' :: ((padded 9 nanosecond).reverse.dropWhile (· = '0')).reverse

/-- The offset from UTC. -/
def offsetText (offset : Int) : List Char :=
  if offset = 0 then ['Z']
  else
    (if offset < 0 then '-' else '+') ::
      padded 2 (offset.natAbs / 60) ++ ':' :: padded 2 (offset.natAbs % 60)

/-- The text of a point in time. -/
def text (t : Timestamp) : List Char :=
  padded 4 t.year ++ '-' :: padded 2 t.month ++ '-' :: padded 2 t.day ++
  'T' :: padded 2 t.hour ++ ':' :: padded 2 t.minute ++ ':' :: padded 2 t.second ++
  fractionText t.nanosecond ++ offsetText t.offset

/-- The text of a point in time. -/
def toString (t : Timestamp) : String := String.ofList t.text

end Timestamp
end WebOfThings
