import LoyaltyPoints.Decimal.Sum
import LoyaltyPoints.Order

/-! # Balances and withdrawals

    A user's balance holds the points that can be spent and the sum of those that have been. Each
    withdrawal names the order it pays for. -/

namespace LoyaltyPoints

/-- The points of a user. -/
structure Balance where
  id : Uuid
  user : String
  /-- Points that can be spent. -/
  current : Decimal
  /-- Points spent so far. -/
  withdrawn : Decimal
  createdAt : Instant
  updatedAt : Instant
deriving DecidableEq, Inhabited

namespace Balance

/-- The balance of a user who has no points yet. -/
def opened (id : Uuid) (user : String) (now : Instant) : Balance :=
  ⟨id, user, .zero, .zero, now, now⟩

/-- All points the user ever got. -/
def totalAccrued (b : Balance) : Except Overflow Decimal := b.current.add b.withdrawn

end Balance

/-- Points spent on an order. -/
structure Withdrawal where
  id : Uuid
  user : String
  number : String
  sum : Decimal
  processedAt : Instant
deriving DecidableEq, Inhabited

/-- Whether an amount can be withdrawn: positive, and written exactly with the places of the
    ledger. -/
def isWithdrawable (amount : Decimal) : Bool :=
  decide (0 < amount.coefficient) && decide (amount.neededScale ≤ moneyScale)

end LoyaltyPoints
