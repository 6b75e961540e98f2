import LoyaltyPoints.Decimal.Basic

/-! # Oracle: its answers

    The accrual oracle computes the points of an order. It answers with the order's number, a
    status, and the points if there are any. A status it does not share with this service counts as
    unknown. -/

namespace LoyaltyPoints.Oracle

/-- Where an order stands with the oracle. -/
inductive Status where
  | registered
  | processing
  | invalid
  | processed
  /-- Every other status. -/
  | unknown
deriving DecidableEq, Repr, Inhabited

namespace Status

/-- The statuses with a name of their own. -/
def named : List Status := [.registered, .processing, .invalid, .processed]

/-- The written form. -/
def toText : Status → String
  | .registered => "REGISTERED"
  | .processing => "PROCESSING"
  | .invalid => "INVALID"
  | .processed => "PROCESSED"
  | .unknown => "UNKNOWN"

/-- The form used inside log lines. -/
def label : Status → String
  | .registered => "Registered"
  | .processing => "Processing"
  | .invalid => "Invalid"
  | .processed => "Processed"
  | .unknown => "Unknown"

/-- The status of this name. -/
def ofText (s : String) : Status := (named.find? (·.toText == s)).getD .unknown

end Status

/-- What the oracle says about an order. -/
structure Answer where
  order : String
  status : Status
  accrual : Option Decimal
deriving DecidableEq, Inhabited

/-- What is taken for an order that the oracle does not know. -/
def Answer.unregistered (number : String) : Answer := ⟨number, .unknown, none⟩

end LoyaltyPoints.Oracle
