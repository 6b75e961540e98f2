import LoyaltyPoints.OrderNumber
import LoyaltyPoints.Store

/-! # Withdrawing points

    The order number is judged first, then the amount, then the balance. Only amounts that the
    ledger holds exactly are let through, so that none is cut off silently. -/

namespace LoyaltyPoints

/-- How a withdrawal ended. -/
inductive WithdrawalOutcome where
  | success (w : Withdrawal)
  | invalidOrder (number : String)
  | invalidAmount (amount : Decimal)
  | insufficientFunds (requested available : Decimal)
  /-- The store failed. -/
  | failed (e : Error)

namespace WithdrawalOutcome

/-- The name under which the outcome is counted. -/
def label : WithdrawalOutcome → String
  | .success _ => "success"
  | .invalidOrder _ => "invalid_order"
  | .invalidAmount _ => "invalid_amount"
  | .insufficientFunds .. => "insufficient_funds"
  | .failed _ => "error"

/-- The answer to the user. -/
def result : WithdrawalOutcome → Except Error Withdrawal
  | .success w => .ok w
  | .invalidOrder n => .error (.invalidOrderNumber n)
  | .invalidAmount a => .error (.invalidAmount a)
  | .insufficientFunds r a => .error (.insufficientFunds r a)
  | .failed e => .error e

end WithdrawalOutcome

/-- Withdraws points. Only an overflow breaks the action off. -/
def withdraw {σ : Type} (store : Store σ) (user number : String) (amount : Decimal) :
    Action σ WithdrawalOutcome :=
  if OrderNumber.isValid number then
    if isWithdrawable amount then do
      match ← (store.debit user number amount).attempt with
      | .ok w => pure (.success w)
      | .error (.insufficientFunds r a) => pure (.insufficientFunds r a)
      | .error e => pure (.failed e)
    else pure (.invalidAmount amount)
  else pure (.invalidOrder number)

end LoyaltyPoints
