import LoyaltyPoints.Decimal.Sum
import LoyaltyPoints.Text.Digits

/-! # Database: numbers without bounds

    The database holds decimal numbers of any length, as digits in base ten thousand, and one that
    is no number. A decimal of the ledger is made by adding the digits up from the highest; the
    result has the places the number was written with, as far as they fit. -/

namespace LoyaltyPoints.Database

/-- A number of the database. -/
inductive Numeric where
  | notANumber
  /-- The number `± coefficient / 10 ^ scale`. -/
  | number (negative : Bool) (coefficient scale : Nat)
deriving DecidableEq

namespace Numeric

/-- Reads a number: a sign, digits with at most one point, or `NaN`. -/
def ofText? (s : String) : Option Numeric :=
  let (negative, body) : Bool × List Char := match s.toList with
    | '-' :: r => (true, r)
    | '+' :: r => (false, r)
    | r => (false, r)
  let whole := body.takeWhile (· != '.')
  let places := (body.dropWhile (· != '.')).drop 1
  if s = "NaN" then some .notANumber
  else
    (Text.natural? (whole ++ places)).map fun n => .number negative n places.length

/-- The number that a decimal is. -/
def ofDecimal (d : Decimal) : Numeric :=
  .number (decide (d.coefficient < 0)) d.coefficient.natAbs d.scale

/-- The lowest `count` digits in base ten thousand, the lowest first. -/
def lowGroups : (count : Nat) → (n : Nat) → List Nat
  | 0, _ => []
  | count + 1, n => n % 10000 :: lowGroups count (n / 10000)

/-- The digits in base ten thousand from the highest down, each with its power; zeros are left out
    at both ends. -/
def groups (coefficient scale : Nat) : List (Nat × Int) :=
  let behind := (scale + 3) / 4
  let n := coefficient * Nat.pow 10 (4 * behind - scale)
  let count := ((Text.digits n).length + 3) / 4
  let all := ((lowGroups count n).zipIdx).map fun (d, i) => (d, (i : Int) - behind)
  let isZero (g : Nat × Int) : Bool := g.1 == 0
  ((all.dropWhile isZero).reverse).dropWhile isZero

/-- What a digit stands for, if its power is within bounds. -/
def groupValue? (g : Nat × Int) : Option Decimal :=
  if 0 ≤ g.2 then
    if g.2 ≤ 7 then Decimal.ofParts? (g.1 * Nat.pow 10 (4 * g.2.toNat)) 0 else none
  else Decimal.ofParts? g.1 (4 * (-g.2).toNat)

/-- Adds places to a decimal as long as its digits fit. -/
def widen : (places : Nat) → Decimal → Decimal
  | 0, d => d
  | n + 1, d =>
    match Decimal.ofParts? (d.coefficient * 10) (d.scale + 1) with
    | some e => widen n e
    | none => d

/-- The decimal written with so many places, or with as many as fit. -/
def withScale (d : Decimal) (scale : Nat) : Decimal :=
  if d.scale ≤ scale then widen (scale - d.scale) d else d.roundTo scale

/-- Why a number is no decimal of the ledger. -/
def unrepresentable : String := "value not representable as rust_decimal::Decimal"

/-- The decimal that a number is; zero has no places. -/
def toDecimal : Numeric → Except String Decimal
  | .notANumber => .error "Decimal does not support NaN values"
  | .number negative coefficient scale =>
    if coefficient = 0 then .ok .zero
    else
      let sum := (groups coefficient scale).foldlM
        (fun acc g => (groupValue? g).bind fun v => Decimal.add? acc v) Decimal.zero
      match sum with
      | none => .error unrepresentable
      | some d => .ok (withScale (if negative then -d else d) scale)

end Numeric

end LoyaltyPoints.Database
