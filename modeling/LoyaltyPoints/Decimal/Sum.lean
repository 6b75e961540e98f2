import LoyaltyPoints.Decimal.Rounding

/-! # Decimals: sums and differences

    The result has the larger of the two scales, rounded to fewer places only if its digits do not
    fit otherwise. A zero operand hands the other one through as it is. An operation that fits at no
    scale overflows, and says which operation it was. -/

namespace LoyaltyPoints

/-- The decimal operation that left the range. -/
inductive Overflow where
  | addition
  | subtraction
deriving DecidableEq, Repr

/-- The text an overflow is reported with. -/
def Overflow.message : Overflow → String
  | .addition => "Addition overflowed"
  | .subtraction => "Subtraction overflowed"

namespace Decimal

/-- The sum, or nothing if it does not fit. -/
def add? (a b : Decimal) : Option Decimal :=
  if a.coefficient = 0 then some b
  else if b.coefficient = 0 then some a
  else
    let places := max a.scale b.scale
    fit? (a.coefficientAt places + b.coefficientAt places) places

/-- The difference, or nothing if it does not fit. -/
def sub? (a b : Decimal) : Option Decimal := add? a (-b)

/-- The sum. -/
def add (a b : Decimal) : Except Overflow Decimal :=
  match add? a b with
  | some c => .ok c
  | none => .error .addition

/-- The difference. -/
def sub (a b : Decimal) : Except Overflow Decimal :=
  match sub? a b with
  | some c => .ok c
  | none => .error .subtraction

end Decimal

end LoyaltyPoints
