import LoyaltyPoints.Store

/-! # Pipeline: sweeping up pending orders

    A sweep lists a page of pending orders behind the cursor and offers them to the intake, until
    one finds it full. The cursor moves behind the last order taken. It goes back to the start when
    a page was shorter than a whole one and taken completely; and a page that is empty behind the
    cursor is looked for from the start at once. If the listing fails nothing moves. -/

namespace LoyaltyPoints

namespace Sweep

variable {σ : Type}

/-- Offers orders until one is not taken: how many were, and the place of the last of them. -/
def offerAll (offer : Order → Action σ Bool) :
    List Order → (last : Option Position) → Action σ (Nat × Option Position)
  | [], last => pure (0, last)
  | o :: os, last => do
    if ← offer o then
      let (n, last) ← offerAll offer os (some o.position)
      pure (n + 1, last)
    else pure (0, last)

/-- What a sweep came to. -/
structure Report where
  /-- The number of orders taken. -/
  registered : Nat
  /-- The new cursor. -/
  cursor : Option Position
  /-- Whether nothing was behind the cursor, so that the sweep began anew. -/
  wrapped : Bool
  /-- Whether an order found the intake full. -/
  full : Bool
deriving DecidableEq

/-- The page to sweep up: behind the cursor, or from the start where nothing is behind it. Tells
    which of both it was. -/
def page (store : Store σ) (batch : Int) (after : Option Position) :
    Action σ (Bool × List Order) := do
  let pending ← store.pendingOrders after batch
  if pending.isEmpty && after.isSome then return (true, ← store.pendingOrders none batch)
  else return (false, pending)

/-- One sweep from a cursor. -/
def once (store : Store σ) (offer : Order → Action σ Bool) (batch : Int)
    (after : Option Position) : Action σ Report := do
  let (wrapped, pending) ← page store batch after
  let (registered, last) ← offerAll offer pending after
  let complete := registered == pending.length
  let exhausted := complete && decide ((pending.length : Int) < batch)
  return { registered, cursor := if exhausted then none else last, wrapped, full := !complete }

end Sweep

end LoyaltyPoints
