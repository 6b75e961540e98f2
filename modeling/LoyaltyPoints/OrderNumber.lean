import LoyaltyPoints.Text.Digits

/-! # Order numbers

    An order number is a non-empty run of ASCII digits whose Luhn checksum is a multiple of ten:
    from the right end every second digit is doubled, a doubled value above nine loses nine, and the
    sum of all of them is taken in 32 bits. -/

namespace LoyaltyPoints.OrderNumber

open Text (digitValue)

/-- What a doubled digit counts: twice its value, less nine if that has two digits. -/
def doubledValue (d : Nat) : Nat :=
  if 2 * d > 9 then 2 * d - 9 else 2 * d

/-- The Luhn sum of digits listed from the right end; `doubling` says whether the first one listed
    is doubled, and it alternates from there. -/
def luhnSum (doubling : Bool) : List Nat → UInt32
  | [] => 0
  | d :: ds => UInt32.ofNat (if doubling then doubledValue d else d) + luhnSum (!doubling) ds

/-- The checksum of a run of digits. -/
def checksum (cs : List Char) : UInt32 :=
  luhnSum false (cs.reverse.map digitValue)

/-- Whether a text is an order number. -/
def isValid (number : String) : Bool :=
  let cs := number.toList
  !cs.isEmpty && cs.all Char.isDigit && checksum cs % 10 == 0

end LoyaltyPoints.OrderNumber
