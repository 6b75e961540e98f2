/-! # Decimals

    A decimal is a signed integer coefficient of at most 96 bits over a power of ten of at most 28
    places. The scale belongs to the value: `1.5` and `1.50` are different decimals that stand for
    the same number. Zero has no sign. -/

namespace LoyaltyPoints

/-- The first magnitude with more than 96 bits: `2 ^ 96`. -/
def Decimal.bound : Nat := 79228162514264337593543950336

/-- A decimal number `coefficient / 10 ^ scale`. -/
structure Decimal where
  /-- The digits of the number, with its sign. -/
  coefficient : Int
  /-- How many of the digits stand behind the point. -/
  scale : Nat
  /-- The digits fit 96 bits. -/
  coefficient_lt : coefficient.natAbs < Decimal.bound
  /-- No more than 28 places. -/
  scale_le : scale ≤ 28
deriving DecidableEq

namespace Decimal

/-- The most places a decimal has. -/
def maxScale : Nat := 28

/-- The decimal with this coefficient and scale, if both are in range. -/
def ofParts? (coefficient : Int) (scale : Nat) : Option Decimal :=
  if h : coefficient.natAbs < bound ∧ scale ≤ 28 then
    some ⟨coefficient, scale, h.1, h.2⟩
  else none

/-- Zero without places. -/
def zero : Decimal := ⟨0, 0, by decide, by decide⟩

instance : Inhabited Decimal := ⟨zero⟩

/-- Whether the number is zero, at any scale. -/
def isZero (a : Decimal) : Bool := a.coefficient == 0

/-- The number with the other sign. -/
def neg (a : Decimal) : Decimal :=
  ⟨-a.coefficient, a.scale, by simpa using a.coefficient_lt, a.scale_le⟩

instance : Neg Decimal := ⟨neg⟩

/-- The coefficient the number has when it is written with `places ≥ scale` places. -/
def coefficientAt (a : Decimal) (places : Nat) : Int :=
  a.coefficient * Int.ofNat (Nat.pow 10 (places - a.scale))

/-- Compares two decimals as numbers: their scales do not matter. -/
def compare (a b : Decimal) : Ordering :=
  let places := max a.scale b.scale
  Ord.compare (a.coefficientAt places) (b.coefficientAt places)

/-- Whether one number is smaller than another. -/
def lt (a b : Decimal) : Bool := a.compare b == .lt

end Decimal

end LoyaltyPoints
