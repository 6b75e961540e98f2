import LoyaltyPoints.Database.Script
import LoyaltyPoints.Pipeline.Queue
import LoyaltyPoints.Pipeline.Route
import LoyaltyPoints.Pipeline.Sweep
import LoyaltyPoints.Submission
import LoyaltyPoints.Withdrawing

/-! # Database: the services on a scripted server

    The services work on a ledger in a database. The intake of the pipeline is filled by submissions
    and sweeps, and nobody empties it. -/

namespace LoyaltyPoints.Database

/-- A scripted server, the intake in front of it, and the cursor of its sweeper. -/
structure Backend where
  script : Script
  intake : Queue Order
  cursor : Option Position := none

namespace Backend

/-- An action on the server. -/
def onScript {α : Type} (a : Action Script α) : Action Backend α :=
  .focus Backend.script (fun s b => { b with script := s }) a

/-- The ledger as the services see it. -/
def store : Store Backend :=
  let s := Script.store
  { createOrder := fun user number => onScript (s.createOrder user number)
    orderByNumber := fun number => onScript (s.orderByNumber number)
    userOrder := fun user number => onScript (s.userOrder user number)
    userOrders := fun user => onScript (s.userOrders user)
    pendingOrders := fun after limit => onScript (s.pendingOrders after limit)
    markOrders := fun ids status => onScript (s.markOrders ids status)
    accrue := fun c => onScript (s.accrue c)
    balance := fun user => onScript (s.balance user)
    debit := fun user number amount => onScript (s.debit user number amount)
    withdrawals := fun user => onScript (s.withdrawals user) }

/-- Offers an order to the intake. -/
def offer (o : Order) : Action Backend Bool := .ofFun fun b =>
  match b.intake.offer o with
  | .taken q => (.ok true, { b with intake := q })
  | .full => (.ok false, b)
  | .closed => (.error (.error .pipelineClosed), b)

/-- Submits an order and puts it into the intake. -/
def submit (user number : String) : Action Backend Order := do
  let o ← Submission.submit store user number
  let _ ← (offer o).attempt
  pure o

/-- Sweeps once from the cursor, and moves it. -/
def sweep (batch : Int) : Action Backend Sweep.Report := do
  let cursor ← Action.ofFun fun b => (.ok b.cursor, b)
  let r ← Sweep.once store offer batch cursor
  Action.ofFun fun b => (.ok r, { b with cursor := r.cursor })

/-- Runs an action and tells what it sent. -/
def observe {α : Type} (a : Action Backend α) (b : Backend) :
    Except Fault α × List Sent × Backend :=
  let before := b.script.sent.length
  let (r, b) := a.perform b
  (r, b.script.sent.drop before, b)

end Backend

end LoyaltyPoints.Database
