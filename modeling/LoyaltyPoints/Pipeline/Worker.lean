import LoyaltyPoints.Pipeline.Queue
import LoyaltyPoints.Pipeline.Route

/-! # Pipeline: its workers

    Two queues join two stages. A worker of the first stage takes an order, asks the oracle, and
    offers the credit, if there is one, to the second queue. A worker of the second stage takes a
    credit and applies it. Whenever a worker waits, the stop signal goes first: it then takes and
    forwards nothing more. A question to the oracle is always waited for.

    A step function gives `none` where the worker has to wait on. -/

namespace LoyaltyPoints

/-- The two queues of a pipeline. -/
structure Flow where
  intake : Queue Order
  processing : Queue Credit

/-- The empty queues of a pipeline, both of one capacity. -/
def Flow.ofCapacity (n : Nat) : Flow := ⟨.ofCapacity n, .ofCapacity n⟩

/-- Where a worker of the first stage stands. -/
inductive Router where
  /-- Waits for an order. -/
  | idle
  /-- Waits for the oracle's answer. -/
  | asking (o : Order)
  /-- Waits for room in the second queue. -/
  | holding (c : Credit)
  | stopped

namespace Router

/-- What an idle worker does next. -/
def receive (stop : Bool) (f : Flow) : Option (Router × Flow) :=
  if stop then some (.stopped, f)
  else
    match f.intake.pop? with
    | some (o, q) => some (.asking o, { f with intake := q })
    | none => if f.intake.closed then some (.stopped, f) else none

/-- Where a worker stands once its order has been routed. -/
def afterRoute : Route → Router
  | .accrue c => .holding c
  | _ => .idle

/-- What a worker with a credit does next. When the pipeline stops the credit is given up. -/
def forward (stop : Bool) (c : Credit) (f : Flow) : Option (Router × Flow) :=
  if stop then some (.stopped, f)
  else
    match f.processing.offer c with
    | .taken q => some (.idle, { f with processing := q })
    | .full => none
    | .closed => some (.stopped, f)

end Router

/-- Where a worker of the second stage stands. -/
inductive Settler where
  /-- Waits for a credit. -/
  | idle
  /-- Has a credit to apply. -/
  | applying (c : Credit)
  | stopped
  /-- A credit overflowed; it is lost, and so is the worker. -/
  | panicked

namespace Settler

/-- What an idle worker does next. -/
def receive (stop : Bool) (f : Flow) : Option (Settler × Flow) :=
  if stop then some (.stopped, f)
  else
    match f.processing.pop? with
    | some (c, q) => some (.applying c, { f with processing := q })
    | none => if f.processing.closed then some (.stopped, f) else none

/-- Where a worker stands once it has applied a credit. -/
def afterApply {α : Type} : Except Fault α → Settler
  | .ok _ => .idle
  | .error _ => .panicked

end Settler

end LoyaltyPoints
