/-! # Bounded queues

    A queue gives its items back in the order they were put in and holds no more than its capacity.
    A closed queue takes nothing more, and gives what it still holds. -/

namespace LoyaltyPoints

/-- A bounded queue, oldest item first. -/
structure Queue (α : Type) where
  capacity : Nat
  items : List α := []
  closed : Bool := false

/-- What became of an item that was offered to a queue. -/
inductive Offer (α : Type) where
  | taken (q : Queue α)
  | full
  | closed

namespace Queue

variable {α : Type}

/-- An empty queue; it has room for one item at least. -/
def ofCapacity (n : Nat) : Queue α := ⟨max n 1, [], false⟩

/-- The number of items held. -/
def size (q : Queue α) : Nat := q.items.length

/-- Offers an item. -/
def offer (x : α) (q : Queue α) : Offer α :=
  if q.closed then .closed
  else if q.items.length < q.capacity then .taken { q with items := q.items ++ [x] }
  else .full

/-- The oldest item and the queue without it. -/
def pop? (q : Queue α) : Option (α × Queue α) :=
  match q.items with
  | [] => none
  | x :: xs => some (x, { q with items := xs })

/-- The queue that takes nothing more. -/
def close (q : Queue α) : Queue α := { q with closed := true }

end Queue

end LoyaltyPoints
