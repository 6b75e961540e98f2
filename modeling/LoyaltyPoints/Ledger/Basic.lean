import LoyaltyPoints.Store

/-! # The ledger in memory

    Orders and withdrawals stand in the order they were created in; there is at most one balance per
    user, opened when it is first needed. Each operation is one step. A credit settles the order
    before it adds the points, and a debit lowers the balance before it adds to the withdrawn sum:
    an overflow leaves what was written before it. -/

namespace LoyaltyPoints

/-- The ledger. -/
structure Ledger where
  orders : List Order := []
  balances : List Balance := []
  withdrawals : List Withdrawal := []
deriving DecidableEq, Inhabited

/-- The fresh ids and the time that an operation may use: one id for the record it adds, one for a
    balance it opens. -/
structure Stamp where
  recordId : Uuid
  balanceId : Uuid
  now : Instant
deriving DecidableEq

namespace Ledger

/-! ## Balances -/

/-- The balance of a user, if it has been opened. -/
def balance? (l : Ledger) (user : String) : Option Balance :=
  l.balances.find? (·.user == user)

/-- The balance of a user, opened if there is none. -/
def openBalance (s : Stamp) (user : String) (l : Ledger) : Balance × Ledger :=
  match l.balance? user with
  | some b => (b, l)
  | none =>
    let b := Balance.opened s.balanceId user s.now
    (b, { l with balances := l.balances ++ [b] })

/-- Replaces the balance of the user it belongs to. -/
def putBalance (b : Balance) (l : Ledger) : Ledger :=
  { l with balances := l.balances.map fun a => if a.user == b.user then b else a }

/-! ## Orders -/

/-- The order with this number. -/
def orderByNumber (number : String) (l : Ledger) : Option Order :=
  l.orders.find? (·.number == number)

/-- The order with this number, if it is the user's. -/
def userOrder (user number : String) (l : Ledger) : Option Order :=
  l.orders.find? fun o => o.number == number && o.user == user

/-- The orders of a user by upload time; orders of one time stay in the order of creation. -/
def userOrders (user : String) (l : Ledger) : List Order :=
  (l.orders.filter (·.user == user)).mergeSort fun a b => a.uploadedAt.compare b.uploadedAt != .gt

/-- Whether an order comes behind a position; without a position every order does. -/
def isBehind (after : Option Position) (o : Order) : Bool :=
  match after with
  | none => true
  | some p => p.before o.position

/-- The pending orders behind a position, in the order of their positions. -/
def pendingBehind (after : Option Position) (l : Ledger) : List Order :=
  (l.orders.filter fun o => o.isPending && isBehind after o).mergeSort
    fun a b => a.position.compare b.position != .gt

/-- The first `limit` pending orders behind a position; a negative limit gives none. -/
def pendingOrders (after : Option Position) (limit : Int) (l : Ledger) : List Order :=
  (l.pendingBehind after).take limit.toNat

/-- Stores a new order, unless there is one with this number. -/
def createOrder (s : Stamp) (user number : String) (l : Ledger) : Except Fault Order × Ledger :=
  if l.orders.any (·.number == number) then
    (.error (.error (.duplicateOrderNumber number)), l)
  else
    let o := Order.submitted s.recordId user number s.now
    (.ok o, { l with orders := l.orders ++ [o] })

/-- Whether a mark with this status changes an order. -/
def isMarked (ids : List Uuid) (status : OrderStatus) (o : Order) : Bool :=
  ids.contains o.id && o.status.canBecome status

/-- Sets the status of the orders with these ids that are pending. Only `processing` and `invalid`
    can be set in this way. -/
def markOrders (ids : List Uuid) (status : OrderStatus) (l : Ledger) :
    Except Fault Nat × Ledger :=
  if status.isMarkable then
    (.ok (l.orders.countP (isMarked ids status)),
      { l with orders :=
          l.orders.map fun o => if isMarked ids status o then { o with status } else o })
  else (.error (.error (.invalidTransition status)), l)

/-- Changes the first order with this number. -/
def updateOrder (number : String) (f : Order → Order) : List Order → List Order
  | [] => []
  | o :: os => if o.number == number then f o :: os else o :: updateOrder number f os

/-- Whether a credit settles an order: it names the owner, and the order is pending. -/
def settles (c : Credit) (o : Order) : Bool :=
  o.user == c.user && o.status.canBecome .processed

/-- Settles an order and credits its points. -/
def accrue (s : Stamp) (c : Credit) (l : Ledger) : Except Fault Bool × Ledger :=
  match l.orderByNumber c.number with
  | none => (.ok false, l)
  | some o =>
    if settles c o then
      let settle (o : Order) : Order := { o with status := .processed, accrual := c.amount }
      let settled : Ledger := { l with orders := updateOrder c.number settle l.orders }
      let (b, opened) := settled.openBalance s c.user
      match b.current.add c.amount with
      | .error e => (.error (.overflow e), opened)
      | .ok current => (.ok true, opened.putBalance { b with current, updatedAt := s.now })
    else (.ok false, l)

/-! ## Withdrawals -/

/-- The withdrawals of a user by time; those of one time stay in the order of creation. -/
def userWithdrawals (user : String) (l : Ledger) : List Withdrawal :=
  (l.withdrawals.filter (·.user == user)).mergeSort
    fun a b => a.processedAt.compare b.processedAt != .gt

/-- Takes points from a balance that holds enough of them, and appends the withdrawal. -/
def debit (s : Stamp) (user number : String) (amount : Decimal) (l : Ledger) :
    Except Fault Withdrawal × Ledger :=
  let (b, opened) := l.openBalance s user
  if b.current.lt amount then
    (.error (.error (.insufficientFunds amount b.current)), opened)
  else
    match b.current.sub amount with
    | .error e => (.error (.overflow e), opened)
    | .ok current =>
      let lowered := { b with current }
      match b.withdrawn.add amount with
      | .error e => (.error (.overflow e), opened.putBalance lowered)
      | .ok withdrawn =>
        let w : Withdrawal := ⟨s.recordId, user, number, amount, s.now⟩
        let paid := opened.putBalance { lowered with withdrawn, updatedAt := s.now }
        (.ok w, { paid with withdrawals := paid.withdrawals ++ [w] })

end Ledger

end LoyaltyPoints
