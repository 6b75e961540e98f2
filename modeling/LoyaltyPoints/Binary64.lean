import LoyaltyPoints.Decimal.Rounding
import LoyaltyPoints.Text.Digits

/-! # Binary64: floating-point numbers of 64 bits

    A finite number is `± mantissa · 2 ^ exponent` in one form each: the mantissa has 53 bits, or
    fewer at the least exponent. Every operation takes the exact rational result and rounds it once,
    to the nearest number, a tie going to the even mantissa. The shortest text of a number has the
    fewest digits that read back as it and, among those, the ones nearest to it, the larger of two
    that are. -/

namespace LoyaltyPoints

/-- A floating-point number of 64 bits. -/
inductive Binary64 where
  | nan
  | infinite (negative : Bool)
  | finite (negative : Bool) (mantissa : Nat) (exponent : Int)
deriving DecidableEq, Inhabited, Repr

namespace Binary64

open Decimal (divHalfEven)

/-- The least exponent of a finite number. -/
def minExponent : Int := -1074

/-- The largest exponent of a finite number. -/
def maxExponent : Int := 971

/-- The first mantissa with too many bits. -/
def mantissaBound : Nat := Nat.pow 2 53

/-- Zero. -/
def zero : Binary64 := .finite false 0 minExponent

/-- `n · 2 ^ e` as a quotient of natural numbers. -/
def scaled (n : Nat) (e : Int) : Nat × Nat :=
  if 0 ≤ e then (n * Nat.pow 2 e.toNat, 1) else (n, Nat.pow 2 (-e).toNat)

/-- The exponent at which `num / den` has a mantissa of 53 bits, or the least exponent. -/
def exponentFor (num den : Nat) : Int :=
  let e : Int := (Nat.log2 num : Int) - Nat.log2 den - 52
  let (a, b) := scaled den e
  -- `num / (den · 2 ^ e)` lies between `2 ^ 51` and `2 ^ 53`
  let e := if num * b < Nat.pow 2 52 * a then e - 1 else e
  max e minExponent

/-- The number nearest to `± num / den`. -/
def ofRatio (negative : Bool) (num den : Nat) : Binary64 :=
  if num = 0 then .finite negative 0 minExponent
  else
    let e := exponentFor num den
    let (a, b) := scaled den e
    let m := divHalfEven (num * b) a
    let (m, e) := if m = mantissaBound then (m / 2, e + 1) else (m, e)
    if maxExponent < e then .infinite negative else .finite negative m e

/-- The number nearest to a natural number. -/
def ofNat (n : Nat) : Binary64 := ofRatio false n 1

/-- The number nearest to `± digits · 10 ^ exponent`. Exponents far outside the range are cut off
    before the power is taken. -/
def ofDecimal (negative : Bool) (digits : Nat) (exponent : Int) : Binary64 :=
  if digits = 0 then .finite negative 0 minExponent
  else
    let size : Int := exponent + (Nat.toDigits 10 digits).length
    if 400 < size then .infinite negative
    else if size < -400 then .finite negative 0 minExponent
    else if 0 ≤ exponent then ofRatio negative (digits * Nat.pow 10 exponent.toNat) 1
    else ofRatio negative digits (Nat.pow 10 (-exponent).toNat)

/-- Whether a number is zero, of either sign. -/
def isZero : Binary64 → Bool
  | .finite _ 0 _ => true
  | _ => false

/-- Whether a number is neither infinite nor undefined. -/
def isFinite : Binary64 → Bool
  | .finite .. => true
  | _ => false

/-- The product. -/
def mul : Binary64 → Binary64 → Binary64
  | .nan, _ => .nan
  | _, .nan => .nan
  | .infinite s, .infinite t => .infinite (s != t)
  | .infinite s, .finite t m _ => if m = 0 then .nan else .infinite (s != t)
  | .finite s m _, .infinite t => if m = 0 then .nan else .infinite (s != t)
  | .finite s m e, .finite t n f =>
    let (a, b) := scaled (m * n) (e + f)
    ofRatio (s != t) a b

/-- The quotient. -/
def div : Binary64 → Binary64 → Binary64
  | .nan, _ => .nan
  | _, .nan => .nan
  | .infinite _, .infinite _ => .nan
  | .infinite s, .finite t _ _ => .infinite (s != t)
  | .finite s _ _, .infinite t => .finite (s != t) 0 minExponent
  | .finite s m e, .finite t n f =>
    if n = 0 then if m = 0 then .nan else .infinite (s != t)
    else
      let (a, b) := scaled m (e - f)
      ofRatio (s != t) a (b * n)

/-- The signed numerator of a finite number over `2 ^ 1074`. -/
def units (negative : Bool) (m : Nat) (e : Int) : Int :=
  let n : Nat := m * Nat.pow 2 (e - minExponent).toNat
  if negative then -Int.ofNat n else Int.ofNat n

/-- The sum. A sum of opposite numbers is positive zero. -/
def add : Binary64 → Binary64 → Binary64
  | .nan, _ => .nan
  | _, .nan => .nan
  | .infinite s, .infinite t => if s = t then .infinite s else .nan
  | .infinite s, .finite .. => .infinite s
  | .finite .., .infinite t => .infinite t
  | .finite s m e, .finite t n f =>
    let total := units s m e + units t n f
    if total = 0 then .finite (s && t) 0 minExponent
    else ofRatio (decide (total < 0)) total.natAbs (Nat.pow 2 1074)

/-- The number with its sign turned. -/
def neg : Binary64 → Binary64
  | .nan => .nan
  | .infinite s => .infinite (!s)
  | .finite s m e => .finite (!s) m e

/-- The power by repeated squaring, where `n ≥ 1` is what is left of the exponent and `r` what has
    been gathered. Each product is rounded. -/
def powAux (a r : Binary64) (n : Nat) : Binary64 :=
  let r := if n % 2 = 1 then r.mul a else r
  if h : n / 2 = 0 then r else powAux (a.mul a) r (n / 2)
termination_by n
decreasing_by omega

/-- The power with a natural exponent. -/
def pow (a : Binary64) (n : Nat) : Binary64 := powAux a (ofNat 1) n

/-! ## Shortest text -/

/-- The significant digits of a number and the power of ten they are multiplied with. -/
structure Digits where
  digits : Nat
  exponent : Int
deriving DecidableEq, Repr

/-- The interval of the numbers that read as `mantissa · 2 ^ exponent`, in quarters of its unit:
    lower end, value, upper end; and whether the ends belong to it. -/
def readingInterval (mantissa : Nat) (exponent : Int) : Nat × Nat × Nat × Bool :=
  let v := 4 * mantissa
  let lower := if mantissa = Nat.pow 2 52 ∧ minExponent < exponent then v - 1 else v - 2
  (lower, v, v + 2, mantissa % 2 == 0)

/-- The grid point of power `p` nearest to the value inside its reading interval, if there is one;
    the upper one of two that are equally near. `v`, `lower` and `upper` are numerators over
    `unit`. -/
def gridPoint? (lower v upper : Nat) (closed : Bool) (unit : Nat) (p : Int) : Option Nat :=
  let (num, den) := if 0 ≤ p then (unit * Nat.pow 10 p.toNat, 1) else (unit, Nat.pow 10 (-p).toNat)
  -- the grid point `k` is `k · num / den` over `unit`
  let below := v * den / num
  let inside (k : Nat) : Bool :=
    let x := k * num
    if closed then lower * den ≤ x && x ≤ upper * den else lower * den < x && x < upper * den
  let lowOk := inside below && below != 0
  let highOk := inside (below + 1)
  if lowOk && highOk then
    let low := v * den - below * num
    let high := (below + 1) * num - v * den
    if low < high then some below else some (below + 1)
  else if lowOk then some below
  else if highOk then some (below + 1)
  else none

/-- The shortest digits of a positive finite number. Seventeen digits always suffice. -/
def shortest (mantissa : Nat) (exponent : Int) : Digits :=
  let (lower, v, upper, closed) := readingInterval mantissa exponent
  let e := exponent - 2
  let (f, unit) := if 0 ≤ e then (Nat.pow 2 e.toNat, 1) else (1, Nat.pow 2 (-e).toNat)
  let (lower, v, upper) := (lower * f, v * f, upper * f)
  -- the value is `v / unit`; `top` is the power of ten above its first digit
  let top : Int :=
    if unit ≤ v then (Nat.toDigits 10 (v / unit)).length
    else 1 - (Nat.toDigits 10 (unit / v)).length + 1
  let found := (List.range 19).findSome? fun (n : Nat) =>
    let p : Int := top - n
    (gridPoint? lower v upper closed unit p).map fun k => (⟨k, p⟩ : Digits)
  found.getD ⟨v / unit, 0⟩

/-- Drops the zeros at the end of the digits, at most `fuel` of them. -/
def Digits.strip : (fuel : Nat) → Digits → Digits
  | 0, d => d
  | fuel + 1, d =>
    if d.digits ≠ 0 ∧ d.digits % 10 = 0 then strip fuel ⟨d.digits / 10, d.exponent + 1⟩ else d

/-- Digits written without an exponent, and without a point where there are no places. -/
def Digits.positional (d : Digits) : List Char :=
  let ds := Nat.toDigits 10 d.digits
  if 0 ≤ d.exponent then ds ++ List.replicate d.exponent.toNat '0'
  else
    let places := (-d.exponent).toNat
    if places < ds.length then
      ds.take (ds.length - places) ++ '.' :: ds.drop (ds.length - places)
    else '0' :: '.' :: (List.replicate (places - ds.length) '0' ++ ds)

/-- The shortest text that reads back as the number, never with an exponent. -/
def toChars : Binary64 → List Char
  | .nan => ['N', 'a', 'N']
  | .infinite s => (if s then ['-'] else []) ++ ['i', 'n', 'f']
  | .finite s m e =>
    (if s then ['-'] else []) ++
      if m = 0 then ['0'] else ((shortest m e).strip 400).positional

/-- The shortest text that reads back as the number, never with an exponent. -/
def toText (x : Binary64) : String := String.ofList x.toChars

/-! ## Reading and rounding to integers -/

/-- An exponent as readers take it: optional sign, digits. -/
def exponentText? (cs : List Char) : Option Int := Text.integer? cs

/-- Reads a decimal number without its sign: digits with at most one point, at least one digit, and
    an optional exponent. -/
def ofUnsignedText? (negative : Bool) (cs : List Char) : Option Binary64 :=
  let whole := cs.takeWhile Char.isDigit
  let rest := cs.dropWhile Char.isDigit
  let (places, rest) := match rest with
    | '.' :: r => (r.takeWhile Char.isDigit, r.dropWhile Char.isDigit)
    | r => ([], r)
  if whole.isEmpty && places.isEmpty then none
  else
    let exponent : Option Int := match rest with
      | [] => some 0
      | c :: r => if c = 'e' || c = 'E' then exponentText? r else none
    exponent.map fun e =>
      ofDecimal negative (Text.digitsValue (whole ++ places)) (e - places.length)

/-- The names of the numbers that are not finite, in lower case. -/
def special? (cs : List Char) : Option (Bool → Binary64) :=
  let name := String.ofList (cs.map Char.toLower)
  if name = "inf" || name = "infinity" then some .infinite
  else if name = "nan" then some fun _ => .nan
  else none

/-- Reads a decimal number, an infinity or `nan`, with an optional sign. -/
def ofChars? (cs : List Char) : Option Binary64 :=
  let (negative, body) := match cs with
    | '-' :: r => (true, r)
    | '+' :: r => (false, r)
    | r => (false, r)
  match special? body with
  | some make => some (make negative)
  | none => ofUnsignedText? negative body

/-- The integer nearest to a finite number, a half going away from zero. -/
def roundHalfAway (negative : Bool) (m : Nat) (e : Int) : Int :=
  let (a, b) := scaled m e
  let n := Decimal.divHalfUp a b
  if negative then -Int.ofNat n else Int.ofNat n

/-- The integer nearest to the number, a half going away from zero, held within the bounds. What is
    not a number gives zero. -/
def toBoundedInt (low high : Int) : Binary64 → Int
  | .nan => 0
  | .infinite s => if s then low else high
  | .finite s m e => max low (min high (roundHalfAway s m e))

end Binary64

end LoyaltyPoints
