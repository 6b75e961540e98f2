import LoyaltyPoints.Simulation.Step

/-! # Simulation: sessions and what they show

    A session takes its steps one after another and shows the result of each. At the end, and behind
    each step if asked, it shows every user named so far with balance, orders and withdrawals, and
    the levels of the pipeline's queues. -/

namespace LoyaltyPoints.Simulation

/-- How a session is set up. -/
structure Setup where
  queueCapacity : Nat := 10
  routers : Nat := 1
  settlers : Nat := 1

/-- The world at the start; there is one worker of each stage at least. -/
def Setup.world (s : Setup) : World :=
  { lines := [{ flow := Flow.ofCapacity s.queueCapacity }]
    routers := max s.routers 1
    settlers := max s.settlers 1 }

/-- What is shown of a user. -/
structure UserView where
  user : String
  current : Decimal
  withdrawn : Decimal
  orders : List Order
  withdrawals : Nat

/-- What is shown of the world. -/
structure View where
  users : List UserView
  intake : Nat
  processing : Nat

namespace World

/-- What is shown of a user; without a balance there are zeros. -/
def viewUser (w : World) (user : String) : UserView :=
  let l := w.book.ledger
  let b := l.balance? user
  { user
    current := (b.map (·.current)).getD .zero
    withdrawn := (b.map (·.withdrawn)).getD .zero
    orders := l.userOrders user
    withdrawals := (l.userWithdrawals user).length }

/-- What is shown of the world. -/
def view (w : World) : View :=
  { users := w.users.map w.viewUser
    intake := ((w.line? 0).map (·.flow.intake.size)).getD 0
    processing := ((w.line? 0).map (·.flow.processing.size)).getD 0 }

/-- Remembers a user who was named. -/
def meet (user : Option String) (w : World) : World :=
  match user with
  | none => w
  | some u => if w.users.contains u then w else { w with users := w.users ++ [u] }

end World

/-- A step as it was asked for: the user it names, and the step, if it is one. -/
structure Request where
  user : Option String
  step : Option Step

/-- The result of a step, and what was shown behind it. -/
structure Shown where
  result : Except Failure Value
  view : Option View

/-- Takes one request; `traced` says whether the world is shown behind it. -/
def serve (traced : Bool) (r : Request) (w : World) : Shown × World :=
  let w := w.meet r.user
  let (result, w) := match r.step with
    | some s => w.take s
    | none => (.error .unusable, w)
  (⟨result, if traced then some w.view else none⟩, w)

/-- Takes all requests in order. -/
def serveAll (traced : Bool) : List Request → World → List Shown × World
  | [], w => ([], w)
  | r :: rs, w =>
    let (x, w) := serve traced r w
    let (xs, w) := serveAll traced rs w
    (x :: xs, w)

end LoyaltyPoints.Simulation
