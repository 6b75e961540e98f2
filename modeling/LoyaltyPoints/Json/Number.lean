import LoyaltyPoints.Binary64
import LoyaltyPoints.Decimal.Text
import LoyaltyPoints.Json.Basic

/-! # JSON: what a number stands for

    A number without places and exponent that fits 64 bits is an integer. Every other number is read
    as a binary floating-point number, in two roundings: the first digits that fit 64 bits are
    gathered to an integer, which is rounded, and then multiplied with or divided by one power of
    ten. An amount takes the shortest text of that number. -/

namespace LoyaltyPoints.Json.Number

open Text (digitValue digitsValue)

/-- What a number is read as. -/
inductive Reading where
  | integer (n : Int)
  | float (x : Binary64)
deriving DecidableEq, Repr

/-- Gathers digits while the integer fits 64 bits; the digits that do not fit are handed back. -/
def gather (n : Nat) : List Char → Nat × List Char
  | [] => (n, [])
  | c :: cs =>
    let n' := 10 * n + digitValue c
    if n' < Nat.pow 2 64 then gather n' cs else (n, c :: cs)

/-- The power of ten as a floating-point number. -/
def powerOfTen (k : Nat) : Binary64 := Binary64.ofDecimal false 1 k

/-- The quotient by a power of ten, taken in steps of 308 places. -/
def dividePower (x : Binary64) (k : Nat) : Binary64 :=
  if k ≤ 308 then x.div (powerOfTen k)
  else if x.isZero then x
  else dividePower (x.div (powerOfTen 308)) (k - 308)
termination_by k

/-- The number `significand · 10 ^ exponent` in two roundings, unless it is out of range. -/
def scale? (significand : Nat) (exponent : Int) : Option Binary64 :=
  let x := Binary64.ofNat significand
  if exponent < 0 then some (dividePower x (-exponent).toNat)
  else if x.isZero then some x
  else if 308 < exponent then none
  else
    let y := x.mul (powerOfTen exponent.toNat)
    if y.isFinite then some y else none

/-- The floating-point number, unless it is out of range. An exponent that does not fit 32 bits
    gives zero or nothing. -/
def toFloat? (n : Number) : Option Binary64 :=
  let (s, beyond) := gather 0 n.whole
  let (s, rest) := gather s n.places
  let start : Int := beyond.length - (n.places.length - rest.length : Nat)
  let magnitude : Option Binary64 := match n.exponent with
    | none => scale? s start
    | some (negative, ds) =>
      let e := digitsValue ds
      if e < Nat.pow 2 31 then scale? s (if negative then start - e else start + e)
      else if negative || s == 0 then some Binary64.zero
      else none
  magnitude.map fun x => if n.negative then x.neg else x

/-- What the number is read as, unless it is out of range. -/
def read? (n : Number) : Option Reading :=
  match n.places, n.exponent, gather 0 n.whole with
  | [], none, (s, []) =>
    if !n.negative then some (.integer s)
    else if s = 0 ∨ Nat.pow 2 63 < s then some (.float (Binary64.ofNat s).neg)
    else some (.integer (-(s : Int)))
  | _, _, _ => n.toFloat?.map .float

/-- The amount a number stands for. -/
def toDecimal? (n : Number) : Option Decimal :=
  n.read?.bind fun
    | .integer i => Decimal.ofParts? i 0
    | .float x => Decimal.ofPlain? x.toChars

/-- The integer a number is written as, if it has neither places nor exponent. -/
def toInt? (n : Number) : Option Int :=
  match n.places, n.exponent with
  | [], none =>
    let m : Int := digitsValue n.whole
    some (if n.negative then -m else m)
  | _, _ => none

/-- The number as it is written. -/
def toChars (n : Number) : List Char :=
  (if n.negative then ['-'] else []) ++ n.whole ++
    (if n.places.isEmpty then [] else '.' :: n.places) ++
    match n.exponent with
    | none => []
    | some (negative, ds) => 'e' :: (if negative then '-' :: ds else ds)

end LoyaltyPoints.Json.Number
