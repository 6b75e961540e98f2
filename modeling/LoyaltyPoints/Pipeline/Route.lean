import LoyaltyPoints.Oracle.Answer
import LoyaltyPoints.Store

/-! # Pipeline: what an oracle's answer does to an order

    A processed order becomes a credit for the second stage. `PROCESSING` and `INVALID` are written
    down at once. Every other answer, and a failure, leaves the order as it is. -/

namespace LoyaltyPoints

/-- What became of an order after the oracle was asked. -/
inductive Route where
  /-- The points are known and have to be credited. -/
  | accrue (c : Credit)
  | markedProcessing
  | markedInvalid
  /-- The oracle has no verdict yet. -/
  | unchanged
  | oracleFailed
  /-- The status could not be written down. -/
  | storeFailed
deriving DecidableEq

namespace Route

/-- The name under which the route is counted. -/
def label : Route → String
  | .accrue _ => "accrue"
  | .markedProcessing => "processing"
  | .markedInvalid => "invalid"
  | .unchanged => "unchanged"
  | .oracleFailed => "oracle_error"
  | .storeFailed => "store_error"

variable {σ : Type}

/-- Marks an order, and tells whether that went well. -/
def mark (store : Store σ) (o : Order) (status : OrderStatus) (route : Route) :
    Action σ Route := do
  match ← (store.markOrders [o.id] status).attempt with
  | .ok _ => pure route
  | .error _ => pure .storeFailed

/-- The route of an order, from what the oracle said. -/
def ofAnswer (store : Store σ) (o : Order) (answer : Except Error Oracle.Answer) :
    Action σ Route :=
  match answer with
  | .error _ => pure .oracleFailed
  | .ok a =>
    match a.status with
    | .processed => pure (.accrue (Credit.forOrder o (a.accrual.getD .zero)))
    | .processing => mark store o .processing .markedProcessing
    | .invalid => mark store o .invalid .markedInvalid
    | .registered | .unknown => pure .unchanged

end Route

/-- How a credit ended. -/
inductive Settlement where
  | credited
  /-- The order was settled before, or is not there. -/
  | alreadySettled
  | failed
deriving DecidableEq

namespace Settlement

/-- The name under which the settlement is counted, and reported. -/
def label : Settlement → String
  | .credited => "credited"
  | .alreadySettled => "already_settled"
  | .failed => "failed"

/-- Applies a credit. A failure of the store drops it. -/
def apply {σ : Type} (store : Store σ) (c : Credit) : Action σ Settlement := do
  match ← (store.accrue c).attempt with
  | .ok true => pure .credited
  | .ok false => pure .alreadySettled
  | .error _ => pure .failed

end Settlement

end LoyaltyPoints
