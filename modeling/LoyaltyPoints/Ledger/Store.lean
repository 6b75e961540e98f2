import LoyaltyPoints.Ledger.Basic

/-! # The ledger as a store

    Every operation that writes takes the next stamp of a supply. A supply can hold any ids and
    times. In the usual one the stamps are distinct and their times rise, so the order of creation
    is the order by time. -/

namespace LoyaltyPoints

/-- A ledger and the number of stamps handed out. -/
structure LedgerState where
  ledger : Ledger := {}
  stamps : Nat := 0

/-- The stamp with this number. -/
def Stamp.number (n : Nat) : Stamp :=
  ⟨Uuid.ofNat (2 * n + 1), Uuid.ofNat (2 * n + 2), Instant.ofMicros (n + 1)⟩

namespace LedgerState

/-- An operation that uses a stamp of a supply. -/
def stamped {α : Type} (supply : Nat → Stamp) (f : Stamp → Ledger → Except Fault α × Ledger) :
    Action LedgerState α := .ofFun fun s =>
  let (r, ledger) := f (supply s.stamps) s.ledger
  (r, ⟨ledger, s.stamps + 1⟩)

/-- An operation that reads the ledger. -/
def reading {α : Type} (f : Ledger → α) : Action LedgerState α :=
  .ofFun fun s => (.ok (f s.ledger), s)

/-- The ledger as a store that takes its stamps from a supply. -/
def storeOf (supply : Nat → Stamp) : Store LedgerState where
  createOrder user number := stamped supply fun s => Ledger.createOrder s user number
  orderByNumber number := reading (Ledger.orderByNumber number)
  userOrder user number := reading (Ledger.userOrder user number)
  userOrders user := reading (Ledger.userOrders user)
  pendingOrders after limit := reading (Ledger.pendingOrders after limit)
  markOrders ids status := stamped supply fun _ => Ledger.markOrders ids status
  accrue c := stamped supply fun s => Ledger.accrue s c
  balance user := stamped supply fun s l =>
    let (b, l) := l.openBalance s user
    (.ok b, l)
  debit user number amount := stamped supply fun s => Ledger.debit s user number amount
  withdrawals user := reading (Ledger.userWithdrawals user)

/-- The ledger as a store with the usual supply. -/
def store : Store LedgerState := storeOf .number

end LedgerState

end LoyaltyPoints
