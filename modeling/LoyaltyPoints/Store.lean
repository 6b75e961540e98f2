import LoyaltyPoints.Balance
import LoyaltyPoints.Error

/-! # Stores: what the services ask of a ledger

    An action reads and changes a state and ends with a value or a fault. What it changed before the
    fault stays changed: whether a store takes its writes back is for the store to say. A store is
    the list of the actions that the services, the workers and the sweeper use. -/

namespace LoyaltyPoints

/-- How an action breaks off. -/
inductive Fault where
  | error (e : Error)
  /-- An amount left the range of decimals. -/
  | overflow (o : Overflow)
deriving DecidableEq

/-- A step on a state that ends with a value or a fault. -/
abbrev Action (σ : Type) := ExceptT Fault (StateM σ)

namespace Action

variable {σ τ α : Type}

/-- The action that a function of the state describes. -/
def ofFun (f : σ → Except Fault α × σ) : Action σ α := fun s => f s

/-- What the action does to a state. -/
def perform (a : Action σ α) (s : σ) : Except Fault α × σ := a s

/-- Breaks off with an error. -/
def fail (e : Error) : Action σ α := throw (.error e)

/-- The value of a decimal operation. -/
def ofSum (r : Except Overflow α) : Action σ α :=
  match r with
  | .ok x => pure x
  | .error o => throw (.overflow o)

/-- Turns an error into a value; an overflow still breaks off. -/
def attempt (a : Action σ α) : Action σ (Except Error α) := ofFun fun s =>
  match a.perform s with
  | (.ok x, s) => (.ok (.ok x), s)
  | (.error (.error e), s) => (.ok (.error e), s)
  | (.error (.overflow o), s) => (.error (.overflow o), s)

@[simp] theorem perform_ofFun (f : σ → Except Fault α × σ) (s : σ) :
    (ofFun f).perform s = f s := rfl

@[simp] theorem perform_pure (x : α) (s : σ) : (pure x : Action σ α).perform s = (.ok x, s) := rfl

/-- What follows an action sees the state the action left, unless it broke off. -/
theorem perform_bind {β : Type} (a : Action σ α) (f : α → Action σ β) (s : σ) :
    (a >>= f).perform s =
      match a.perform s with
      | (.ok x, s) => (f x).perform s
      | (.error e, s) => (.error e, s) := by
  show (ExceptT.bind a f) s = _
  unfold ExceptT.bind ExceptT.mk perform
  show (match a s with | (r, t) => ExceptT.bindCont f r t) = _
  cases h : a s with
  | mk r t => cases r <;> rfl

/-- Runs an action on a part of the state. -/
def focus (get : σ → τ) (set : τ → σ → σ) (a : Action τ α) : Action σ α := ofFun fun s =>
  let (r, t) := a.perform (get s)
  (r, set t s)

end Action

/-- A ledger as the services see it. -/
structure Store (σ : Type) where
  /-- Stores a new order; its number has to be new as well. -/
  createOrder : (user number : String) → Action σ Order
  orderByNumber : (number : String) → Action σ (Option Order)
  userOrder : (user number : String) → Action σ (Option Order)
  /-- A user's orders by upload time. -/
  userOrders : (user : String) → Action σ (List Order)
  /-- The pending orders behind a position, at most `limit` of them. -/
  pendingOrders : (after : Option Position) → (limit : Int) → Action σ (List Order)
  /-- Sets the status of those of the orders that are pending, and counts them. -/
  markOrders : (ids : List Uuid) → (status : OrderStatus) → Action σ Nat
  /-- Settles an order and credits its points, unless it is settled or not there. -/
  accrue : (c : Credit) → Action σ Bool
  /-- A user's balance, which is opened if there is none. -/
  balance : (user : String) → Action σ Balance
  /-- Takes points from a balance and writes down what for. -/
  debit : (user number : String) → (amount : Decimal) → Action σ Withdrawal
  /-- A user's withdrawals by time. -/
  withdrawals : (user : String) → Action σ (List Withdrawal)

end LoyaltyPoints
