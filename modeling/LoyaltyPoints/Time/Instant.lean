import LoyaltyPoints.Text.Blank
import LoyaltyPoints.Text.Digits

/-! # Time: instants

    An instant is a count of seconds since 1970-01-01 in UTC and the nanoseconds beside them. A leap
    second keeps the count of the second before it and has a billion nanoseconds more. Instants are
    written in UTC with none, three, six or nine places of the second, the fewest that are exact;
    they are read with any offset, one or two digits where two are usual, and blanks in front of
    each number and separator. -/

namespace LoyaltyPoints

/-- An instant. -/
structure Instant where
  /-- Seconds since 1970-01-01 00:00:00 UTC. -/
  seconds : Int
  /-- The nanoseconds beside them; from a billion on, those of a leap second. -/
  nanos : Nat
deriving DecidableEq, Inhabited, Repr

namespace Instant

open Text (digits paddedDigits digitsValue isBlank trimStart)

/-- Earlier or later: the seconds decide, then the nanoseconds. -/
def compare (a b : Instant) : Ordering :=
  (Ord.compare a.seconds b.seconds).then (Ord.compare a.nanos b.nanos)

/-- The instant so many microseconds after 1970-01-01. -/
def ofMicros (n : Int) : Instant := ⟨n.fdiv 1000000, (n.fmod 1000000).toNat * 1000⟩

/-- The whole microseconds since 1970-01-01. -/
def micros (t : Instant) : Int := t.seconds * 1000000 + t.nanos / 1000

/-! ## The calendar -/

/-- Days from 1970-01-01 to a day of the calendar. The year is taken to begin in March, so that the
    leap day is its last. -/
def daysFromCivil (year : Int) (month day : Nat) : Int :=
  let y := if month ≤ 2 then year - 1 else year
  let era := y.fdiv 400
  let yearOfEra := y - era * 400
  let monthFromMarch : Int := if month > 2 then month - 3 else month + 9
  let dayOfYear := (153 * monthFromMarch + 2) / 5 + day - 1
  let dayOfEra := yearOfEra * 365 + yearOfEra / 4 - yearOfEra / 100 + dayOfYear
  era * 146097 + dayOfEra - 719468

/-- The day of the calendar that lies so many days after 1970-01-01: year, month and day. -/
def civilFromDays (days : Int) : Int × Nat × Nat :=
  let z := days + 719468
  let era := z.fdiv 146097
  let dayOfEra := z - era * 146097
  let yearOfEra :=
    (dayOfEra - dayOfEra / 1460 + dayOfEra / 36524 - dayOfEra / 146096) / 365
  let dayOfYear := dayOfEra - (365 * yearOfEra + yearOfEra / 4 - yearOfEra / 100)
  let monthFromMarch := (5 * dayOfYear + 2) / 153
  let day := dayOfYear - (153 * monthFromMarch + 2) / 5 + 1
  let month := if monthFromMarch < 10 then monthFromMarch + 3 else monthFromMarch - 9
  let year := yearOfEra + era * 400 + (if month ≤ 2 then 1 else 0)
  (year, month.toNat, day.toNat)

/-- Whether a year has a leap day. -/
def isLeapYear (year : Int) : Bool :=
  year % 4 == 0 && (year % 100 != 0 || year % 400 == 0)

/-- The number of days of a month. -/
def daysInMonth (year : Int) (month : Nat) : Nat :=
  if month = 2 then if isLeapYear year then 29 else 28
  else if month = 4 ∨ month = 6 ∨ month = 9 ∨ month = 11 then 30
  else 31

/-- Seconds in a day. -/
def secondsPerDay : Int := 86400

/-- The first second of the calendar. -/
def firstSecond : Int := daysFromCivil (-262143) 1 1 * secondsPerDay

/-- The last second of the calendar. -/
def lastSecond : Int := daysFromCivil 262142 12 31 * secondsPerDay + 86399

/-- The instant with these parts, if the calendar reaches it. Only the last second of a minute can
    be followed by a leap second. -/
def ofParts? (seconds : Int) (nanos : Nat) : Option Instant :=
  if firstSecond ≤ seconds ∧ seconds ≤ lastSecond ∧
      (nanos < 1000000000 ∨ (nanos < 2000000000 ∧ seconds % 60 = 59)) then
    some ⟨seconds, nanos⟩
  else none

/-! ## Written form -/

/-- The year: four digits, or a sign and at least four. -/
def yearChars (year : Int) : List Char :=
  if 0 ≤ year ∧ year ≤ 9999 then paddedDigits 4 year.toNat
  else (if year < 0 then '-' else '+') :: paddedDigits 4 year.natAbs

/-- The places of the second: none, three, six or nine. -/
def placesChars (nanos : Nat) : List Char :=
  if nanos = 0 then []
  else if nanos % 1000000 = 0 then '.' :: paddedDigits 3 (nanos / 1000000)
  else if nanos % 1000 = 0 then '.' :: paddedDigits 6 (nanos / 1000)
  else '.' :: paddedDigits 9 nanos

/-- The written form, as characters. -/
def toChars (t : Instant) : List Char :=
  let (year, month, day) := civilFromDays (t.seconds.fdiv secondsPerDay)
  let inDay := (t.seconds.fmod secondsPerDay).toNat
  let leap := 1000000000 ≤ t.nanos
  let second := inDay % 60 + (if leap then 1 else 0)
  let nanos := if leap then t.nanos - 1000000000 else t.nanos
  yearChars year ++ '-' :: (paddedDigits 2 month ++ '-' :: (paddedDigits 2 day ++
    'T' :: (paddedDigits 2 (inDay / 3600) ++ ':' :: (paddedDigits 2 (inDay / 60 % 60) ++
      ':' :: (paddedDigits 2 second ++ (placesChars nanos ++ ['Z']))))))

/-- The written form. -/
def toText (t : Instant) : String := String.ofList t.toChars

/-! ## Reading -/

/-- A number of one to `width` digits. -/
def number? (width : Nat) (cs : List Char) : Option (Nat × List Char) :=
  let ds := (cs.takeWhile Char.isDigit).take width
  if ds.isEmpty then none else some (digitsValue ds, cs.drop ds.length)

/-- A number of one to two digits within bounds, behind any blanks. -/
def field? (low high : Nat) (cs : List Char) : Option (Nat × List Char) :=
  (number? 2 (trimStart cs)).bind fun (n, r) =>
    if low ≤ n ∧ n ≤ high then some (n, r) else none

/-- A year: up to four digits, or a sign and any number of digits. -/
def year? (cs : List Char) : Option (Int × List Char) :=
  match trimStart cs with
  | '-' :: r => (number? r.length r).map fun (n, r) => (-(n : Int), r)
  | '+' :: r => (number? r.length r).map fun (n, r) => ((n : Int), r)
  | r => (number? 4 r).map fun (n, r) => ((n : Int), r)

/-- A separator behind any blanks. -/
def separator? (c : Char) (cs : List Char) : Option (List Char) :=
  match trimStart cs with
  | d :: r => if d = c then some r else none
  | [] => none

/-- The places of the second as nanoseconds; places behind the ninth are dropped. -/
def places? : List Char → Option (Nat × List Char)
  | '.' :: r =>
    let ds := r.takeWhile Char.isDigit
    if ds.isEmpty then none
    else
      let kept := ds.take 9
      some (digitsValue kept * Nat.pow 10 (9 - kept.length), r.dropWhile Char.isDigit)
  | r => some (0, r)

/-- Two digits, the first of them at most `most`. -/
def twoDigits? (most : Char) : List Char → Option (Nat × List Char)
  | a :: b :: r =>
    if a.isDigit && b.isDigit && decide (a ≤ most) then some (digitsValue [a, b], r) else none
  | _ => none

/-- An offset from UTC in seconds: `Z`, `UTC`, or a sign, hours and minutes with colons or blanks
    between them. -/
def offset? (cs : List Char) : Option (Int × List Char) :=
  let cs := trimStart cs
  if Text.asciiLower (cs.take 3) = ['u', 't', 'c'] then some (0, cs.drop 3)
  else
    let signed (negative : Bool) (r : List Char) : Option (Int × List Char) :=
      (twoDigits? '9' r).bind fun (hours, r) =>
        (twoDigits? '5' (r.dropWhile fun c => c = ':' || isBlank c)).map fun (minutes, r) =>
          let seconds : Int := hours * 3600 + minutes * 60
          (if negative then -seconds else seconds, r)
    match cs with
    | c :: r =>
      if c = 'z' ∨ c = 'Z' then some (0, r)
      else if c = '+' then signed false r
      else if c = '-' ∨ c = '\u2212' then signed true r
      else none
    | [] => none

/-- The instant that an offset, a day and a time of day give, if they exist. Second 60 is the leap
    second behind second 59. -/
def ofCivil? (year : Int) (month day hour minute second nanos : Nat) (offset : Int) :
    Option Instant :=
  if -262143 ≤ year ∧ year ≤ 262142 ∧ 1 ≤ day ∧ day ≤ daysInMonth year month ∧
      -86400 < offset ∧ offset < 86400 then
    let (second, nanos) := if second = 60 then (59, nanos + 1000000000) else (second, nanos)
    let days := daysFromCivil year month day
    ofParts? (days * secondsPerDay + hour * 3600 + minute * 60 + second - offset) nanos
  else none

/-- Reads an instant. -/
def ofChars? (cs : List Char) : Option Instant := do
  let (year, cs) ← year? cs
  let cs ← separator? '-' cs
  let (month, cs) ← field? 1 12 cs
  let cs ← separator? '-' cs
  let (day, cs) ← field? 1 31 cs
  let cs ← match cs with
    | c :: r => if c = 't' ∨ c = 'T' ∨ c = ' ' then some r else none
    | [] => none
  let (hour, cs) ← field? 0 23 cs
  let cs ← separator? ':' cs
  let (minute, cs) ← field? 0 59 cs
  let cs ← separator? ':' cs
  let (second, cs) ← field? 0 60 cs
  let (nanos, cs) ← places? cs
  let (offset, cs) ← offset? cs
  if (trimStart cs).isEmpty then ofCivil? year month day hour minute second nanos offset else none

/-- Reads an instant. -/
def ofText? (s : String) : Option Instant := ofChars? s.toList

end Instant

end LoyaltyPoints
