import LoyaltyPoints.Decimal.Rounding
import LoyaltyPoints.Time.Instant
import LoyaltyPoints.Uuid

/-! # Orders and their credits

    An order belongs to the user who submitted it and moves from `new`, possibly by way of
    `processing`, to one of two terminal statuses: `invalid`, or `processed` with the points it
    earned. The orders that are not terminal yet are listed by upload time, then by id. -/

namespace LoyaltyPoints

/-- Where an order stands. -/
inductive OrderStatus where
  /-- Submitted, and nothing more is known. -/
  | new
  /-- The oracle is at work on it. -/
  | processing
  /-- The oracle gives no points for it. -/
  | invalid
  /-- Its points have been credited. -/
  | processed
deriving DecidableEq, Repr, Inhabited

namespace OrderStatus

/-- All statuses. -/
def all : List OrderStatus := [.new, .processing, .invalid, .processed]

/-- The written form. -/
def toText : OrderStatus → String
  | .new => "NEW"
  | .processing => "PROCESSING"
  | .invalid => "INVALID"
  | .processed => "PROCESSED"

/-- The form used inside error messages. -/
def label : OrderStatus → String
  | .new => "New"
  | .processing => "Processing"
  | .invalid => "Invalid"
  | .processed => "Processed"

/-- Reads the written form. -/
def ofText? (s : String) : Option OrderStatus := all.find? (·.toText == s)

/-- A terminal status is never left. -/
def isTerminal : OrderStatus → Bool
  | .invalid | .processed => true
  | .new | .processing => false

/-- Whether an order may go from one status to another. -/
def canBecome : OrderStatus → OrderStatus → Bool
  | .new, _ => true
  | .processing, next => next != .new
  | _, _ => false

/-- The statuses that may be set without a credit. -/
def isMarkable : OrderStatus → Bool
  | .processing | .invalid => true
  | .new | .processed => false

end OrderStatus

/-- A submitted order. -/
structure Order where
  id : Uuid
  user : String
  number : String
  status : OrderStatus
  /-- The points earned; zero until the order is processed. -/
  accrual : Decimal
  uploadedAt : Instant
deriving DecidableEq, Inhabited

/-- The place of an order in the list of pending orders. -/
structure Position where
  uploadedAt : Instant
  id : Uuid
deriving DecidableEq

namespace Position

/-- The upload time decides, then the id. -/
def compare (a b : Position) : Ordering :=
  (a.uploadedAt.compare b.uploadedAt).then (a.id.compare b.id)

/-- Whether one place comes strictly before another. -/
def before (a b : Position) : Bool := a.compare b == .lt

end Position

namespace Order

/-- A fresh order. -/
def submitted (id : Uuid) (user number : String) (now : Instant) : Order :=
  ⟨id, user, number, .new, .zero, now⟩

/-- Whether the order still waits for its points. -/
def isPending (o : Order) : Bool := !o.status.isTerminal

/-- The place of the order in the list of pending orders. -/
def position (o : Order) : Position := ⟨o.uploadedAt, o.id⟩

end Order

/-- The places that amounts in the ledger have. -/
def moneyScale : Nat := 2

/-- Points to be credited to a user for an order. -/
structure Credit where
  user : String
  number : String
  amount : Decimal
deriving DecidableEq

/-- The credit for an order: the amount is rounded to the places of the ledger, a half away from
    zero. -/
def Credit.forOrder (o : Order) (amount : Decimal) : Credit :=
  ⟨o.user, o.number, amount.roundTo moneyScale⟩

end LoyaltyPoints
