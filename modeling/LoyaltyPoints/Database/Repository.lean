import LoyaltyPoints.Database.Row
import LoyaltyPoints.Database.Statement
import LoyaltyPoints.Store

/-! # Database: the ledger in a database

    The operations of a ledger as statements. A credit and a debit are one transaction each: both
    lock the balance before they change anything, in the same order, and nothing is committed unless
    every statement went well. A transaction that fails is rolled back; so is one that has nothing
    to do. -/

namespace LoyaltyPoints.Database

/-- A server as the ledger uses it. -/
structure Server (σ : Type) where
  execute : Statement → Action σ Reply
  begin : Action σ Unit
  commit : Action σ Unit
  rollback : Action σ Unit
  /-- Rolls back a transaction that failed, as far as that is possible. -/
  abandon : Action σ Unit
  freshId : Action σ Uuid
  now : Action σ Instant

/-- How a transaction ends that did not fail, and what follows its end. -/
inductive Ending (α : Type) where
  | commit (x : α)
  | rollback (r : Except Fault α)

variable {σ α : Type}

/-- The value of a reading. -/
def ofRead (r : Except DatabaseError α) : Action σ α :=
  match r with
  | .ok x => pure x
  | .error e => .fail (.database e)

namespace Server

variable (db : Server σ)

/-- All rows of an answer. -/
def fetchAll (read : Row → Except DatabaseError α) (s : Statement) : Action σ (List α) := do
  let reply ← db.execute s
  ofRead (reply.rows.mapM read)

/-- The first row of an answer, if there is one. -/
def fetchOptional (read : Row → Except DatabaseError α) (s : Statement) :
    Action σ (Option α) := do
  let reply ← db.execute s
  match reply.rows with
  | [] => pure none
  | r :: _ => return some (← ofRead (read r))

/-- The first row of an answer, which has to be there. -/
def fetchOne (read : Row → Except DatabaseError α) (s : Statement) : Action σ α := do
  match ← db.fetchOptional read s with
  | some x => pure x
  | none => .fail (.database .rowNotFound)

/-- Runs a transaction. One that fails, or whose end fails, is abandoned. -/
def transaction (body : Action σ (Ending α)) : Action σ α := do
  db.begin
  let ended : Action σ (Except Fault α) := do
    match ← body with
    | .commit x => do db.commit; pure (.ok x)
    | .rollback r => do db.rollback; pure r
  match ← ended.attempt with
  | .ok (.ok x) => pure x
  | .ok (.error f) => throw f
  | .error e => do db.abandon; .fail e

/-- Opens the balance of a user if there is none, and reads it. -/
def openedBalance (user : String) : Action σ Balance := do
  let id ← db.freshId
  let _ ← db.execute (.openBalance id user)
  db.fetchOne Row.toBalance (.balance user)

/-- Stores a new order. -/
def createOrder (user number : String) : Action σ Order := do
  let id ← db.freshId
  let now ← db.now
  match ← (db.fetchOne Row.toOrder (.insertOrder (.submitted id user number now))).attempt with
  | .ok o => pure o
  | .error (.database e) =>
    if e.isUniqueViolation then .fail (.duplicateOrderNumber number) else .fail (.database e)
  | .error e => .fail e

/-- Sets the status of pending orders. Statuses are judged before the statement is sent, and an
    empty list needs none. -/
def markOrders (ids : List Uuid) (status : OrderStatus) : Action σ Nat :=
  if status.isMarkable then
    if ids.isEmpty then pure 0
    else do
      let reply ← db.execute (.markOrders ids status)
      pure reply.affected
  else .fail (.invalidTransition status)

/-- Settles an order and credits its points, in one transaction. -/
def accrue (c : Credit) : Action σ Bool :=
  db.transaction do
    let _ ← db.openedBalance c.user
    let _ ← db.fetchOne Row.toBalance (.lockBalance c.user)
    match ← db.fetchOptional Row.toOrderId (.settleOrder c.number c.user c.amount) with
    | none => pure (.rollback (.ok false))
    | some _ => do
      let _ ← db.execute (.creditBalance c.user c.amount)
      pure (.commit true)

/-- The refusal of a debit. -/
def refused (requested : Decimal) (available : Except Overflow Decimal) : Except Fault α :=
  match available with
  | .ok a => .error (.error (.insufficientFunds requested a))
  | .error o => .error (.overflow o)

/-- Takes points from a balance and writes down what for, in one transaction. The balance is judged
    before and after it is lowered. -/
def debit (user number : String) (amount : Decimal) : Action σ Withdrawal :=
  db.transaction do
    let _ ← db.openedBalance user
    let locked ← db.fetchOne Row.toBalance (.lockBalance user)
    if locked.current.lt amount then pure (.rollback (refused amount (.ok locked.current)))
    else do
      let lowered ← db.fetchOne Row.toBalance (.debitBalance user amount)
      if lowered.current.lt .zero then
        pure (.rollback (refused amount (lowered.current.add amount)))
      else do
        let id ← db.freshId
        let w ← db.fetchOne Row.toWithdrawal (.insertWithdrawal id user number amount)
        pure (.commit w)

/-- The ledger in a database as a store. -/
def store : Store σ where
  createOrder := db.createOrder
  orderByNumber number := db.fetchOptional Row.toOrder (.orderByNumber number)
  userOrder user number := db.fetchOptional Row.toOrder (.userOrder user number)
  userOrders user := db.fetchAll Row.toOrder (.userOrders user)
  pendingOrders after limit := db.fetchAll Row.toOrder (.pendingOrders after limit)
  markOrders := db.markOrders
  accrue := db.accrue
  balance := db.openedBalance
  debit := db.debit
  withdrawals user := db.fetchAll Row.toWithdrawal (.withdrawals user)

end Server

end LoyaltyPoints.Database
