import LoyaltyPoints.Settings.Value

/-! # TOML: scalars that are written as one word

    Truth values, integers, floating-point numbers, dates and times. Digits may be joined by `_`,
    one between two of them. Dates and times are kept as texts in their usual form. -/

namespace LoyaltyPoints.Toml

open Text (digitsValue paddedDigits)

/-- Drops the joints of a run of digits; each has to stand between two of them. -/
def joined? (p : Char → Bool) : List Char → Option (List Char)
  | [] => none
  | [c] => if p c then some [c] else none
  | c :: '_' :: cs => if p c then (joined? p cs).map (c :: ·) else none
  | c :: cs => if p c then (joined? p cs).map (c :: ·) else none

/-- A run of decimal digits without a needless zero in front. -/
def wholeNumber? (cs : List Char) : Option (List Char) :=
  match joined? Char.isDigit cs with
  | some ('0' :: _ :: _) => none
  | r => r

/-- An integer of 64 bits. -/
def integerOf? (n : Int) : Option Setting :=
  if -Text.int64Bound ≤ n ∧ n < Text.int64Bound then some (.integer n) else none

/-- The value of digits in a base up to sixteen. -/
def valueInBase (base : Nat) (cs : List Char) : Nat :=
  cs.foldl (fun n c => base * n + ((Text.hexValue? c).getD 0)) 0

/-- Splits off a sign. -/
def signed (cs : List Char) : Option Bool × List Char :=
  match cs with
  | '-' :: r => (some true, r)
  | '+' :: r => (some false, r)
  | r => (none, r)

/-- An integer: decimal with an optional sign, or unsigned in base sixteen, eight or two. -/
def integer? (cs : List Char) : Option Setting :=
  let inBase (base : Nat) (ds : List Char) : Option Setting :=
    (joined? (fun c => (Text.hexValue? c).any (· < base)) ds).bind fun ds =>
      integerOf? (valueInBase base ds)
  match cs with
  | '0' :: 'x' :: ds => inBase 16 ds
  | '0' :: 'o' :: ds => inBase 8 ds
  | '0' :: 'b' :: ds => inBase 2 ds
  | _ =>
    let (sign, ds) := signed cs
    (wholeNumber? ds).bind fun ds =>
      let n : Int := digitsValue ds
      integerOf? (if sign = some true then -n else n)

/-- A floating-point number: whole digits with places, an exponent or both; or `inf` or `nan`. -/
def float? (cs : List Char) : Option Setting :=
  let (sign, body) := signed cs
  let negative := sign = some true
  if body = ['i', 'n', 'f'] then some (.float (.infinite negative))
  else if body = ['n', 'a', 'n'] then some (.float .nan)
  else do
    let isMark (c : Char) : Bool := c = 'e' || c = 'E'
    let mantissa := body.takeWhile (!isMark ·)
    let whole ← wholeNumber? (mantissa.takeWhile (· != '.'))
    let places ← match mantissa.dropWhile (· != '.') with
      | [] => some []
      | _ :: r => joined? Char.isDigit r
    let exponent ← match body.dropWhile (!isMark ·) with
      | [] => some (0 : Int)
      | _ :: r =>
        let (sign, ds) := signed r
        (joined? Char.isDigit ds).map fun ds =>
          let n : Int := digitsValue ds
          if sign = some true then -n else n
    let x := Binary64.ofDecimal negative (digitsValue (whole ++ places)) (exponent - places.length)
    if x.isFinite && body.any (fun c => c = '.' || isMark c) then some (.float x) else none

/-- Exactly `n` digits and what follows them. -/
def fixedDigits? (n : Nat) (cs : List Char) : Option (Nat × List Char) :=
  let ds := cs.take n
  if ds.length = n && ds.all Char.isDigit then some (digitsValue ds, cs.drop n) else none

/-- Takes a character off the front. -/
def take? (c : Char) : List Char → Option (List Char)
  | d :: r => if d = c then some r else none
  | [] => none

/-- Whether a day of the calendar exists. -/
def isDay (year month day : Nat) : Bool :=
  let leap := year % 4 == 0 && (year % 100 != 0 || year % 400 == 0)
  let days := if month = 2 then (if leap then 29 else 28)
    else if month = 4 ∨ month = 6 ∨ month = 9 ∨ month = 11 then 30 else 31
  decide (1 ≤ month ∧ month ≤ 12 ∧ 1 ≤ day ∧ day ≤ days)

/-- A date in its written form, and what follows it. -/
def date? (cs : List Char) : Option (List Char × List Char) := do
  let (year, r) ← fixedDigits? 4 cs
  let (month, r) ← fixedDigits? 2 (← take? '-' r)
  let (day, r) ← fixedDigits? 2 (← take? '-' r)
  if isDay year month day then some (cs.take 10, r) else none

/-- A time of day in its usual form, and what follows it: nine places at most, and no zeros behind
    the last other place. -/
def time? (cs : List Char) : Option (List Char × List Char) := do
  let (hour, r) ← fixedDigits? 2 cs
  let (minute, r) ← fixedDigits? 2 (← take? ':' r)
  let (second, r) ← fixedDigits? 2 (← take? ':' r)
  let places := match r with
    | '.' :: ds => (ds.takeWhile Char.isDigit)
    | _ => []
  let r ← match r with
    | '.' :: ds => if places.isEmpty then none else some (ds.dropWhile Char.isDigit)
    | r => some r
  let kept := ((places.take 9).reverse.dropWhile (· = '0')).reverse
  if hour ≤ 23 ∧ minute ≤ 59 ∧ second ≤ 60 then
    some (cs.take 8 ++ (if kept.isEmpty then [] else '.' :: kept), r)
  else none

/-- An offset in its usual form. -/
def offset? (cs : List Char) : Option (List Char) :=
  match cs with
  | ['Z'] | ['z'] => some ['Z']
  | s :: r =>
    if s = '+' ∨ s = '-' then do
      let (hours, r) ← fixedDigits? 2 r
      let (minutes, r) ← fixedDigits? 2 (← take? ':' r)
      if r.isEmpty ∧ hours ≤ 23 ∧ minutes ≤ 59 then
        let sign := if hours = 0 ∧ minutes = 0 then '+' else s
        some (sign :: paddedDigits 2 hours ++ ':' :: paddedDigits 2 minutes)
      else none
    else none
  | [] => none

/-- A date, a time, or both with an optional offset. -/
def moment? (cs : List Char) : Option Setting :=
  let made (cs : List Char) : Setting := .text (String.ofList cs)
  match date? cs with
  | some (d, []) => some (made d)
  | some (d, c :: r) =>
    if c = 'T' ∨ c = 't' ∨ c = ' ' then
      match time? r with
      | some (t, []) => some (made (d ++ 'T' :: t))
      | some (t, r) => (offset? r).map fun o => made (d ++ 'T' :: (t ++ o))
      | none => none
    else none
  | none =>
    match time? cs with
    | some (t, []) => some (made t)
    | _ => none

/-- A scalar that is written as one word. -/
def word? (cs : List Char) : Option Setting :=
  if cs = ['t', 'r', 'u', 'e'] then some (.bool true)
  else if cs = ['f', 'a', 'l', 's', 'e'] then some (.bool false)
  else (integer? cs).orElse fun _ => (float? cs).orElse fun _ => moment? cs

end LoyaltyPoints.Toml
