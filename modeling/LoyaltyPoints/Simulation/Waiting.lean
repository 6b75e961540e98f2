import LoyaltyPoints.Simulation.World

/-! # Simulation: waiting in turn

    Tasks that can run stand in a row and run in turn. A task that finds a queue empty or full waits
    at that side of it. An item put in or taken out notifies the waiter that has waited longest and
    has not been notified yet. A notified waiter that leaves without having looked again hands its
    notice on; one that looked and found nothing goes to the end of the row. The session itself is
    waiter zero: it goes on only when no task can run. -/

namespace LoyaltyPoints.Simulation.World

/-- The session among the waiters. -/
def session : Nat := 0

/-- Lets a task run, unless it stands in the row already. -/
def wake (id : Nat) (w : World) : World :=
  if id = session then { w with called := true }
  else if w.ready.contains id then w
  else { w with ready := w.ready ++ [id] }

/-- The waiters at a place. -/
def waitersAt (p : Place) (w : World) : List Waiter :=
  match w.waiting.find? (·.1 == p) with
  | some (_, ws) => ws
  | none => []

/-- Replaces the waiters at a place. -/
def setWaiters (p : Place) (ws : List Waiter) (w : World) : World :=
  { w with waiting := (p, ws) :: w.waiting.filter (·.1 != p) }

/-- Marks the first waiter without a notice. -/
def notifyFirst : List Waiter → Option Nat × List Waiter
  | [] => (none, [])
  | x :: xs =>
    if x.notified then
      let (t, xs) := notifyFirst xs
      (t, x :: xs)
    else (some x.task, { x with notified := true } :: xs)

/-- Notifies one waiter at a place. -/
def notify (p : Place) (w : World) : World :=
  match notifyFirst (w.waitersAt p) with
  | (some t, ws) => (w.setWaiters p ws).wake t
  | (none, _) => w

/-- Notifies all waiters at a place. -/
def notifyAll (p : Place) (w : World) : World :=
  let ws := w.waitersAt p
  let w := w.setWaiters p (ws.map fun x => { x with notified := true })
  (ws.filter (!·.notified)).foldl (fun w x => w.wake x.task) w

/-- Takes a task out of the waiters at a place; its notice, if it has one, goes to the next. -/
def leave (p : Place) (id : Nat) (w : World) : World :=
  let ws := w.waitersAt p
  match ws.find? (·.task == id) with
  | none => w
  | some x =>
    let w := w.setWaiters p (ws.filter (·.task != id))
    if x.notified then w.notify p else w

/-- Puts a task among the waiters at a place. One with a notice has looked in vain and goes to the
    end; one without keeps its turn. -/
def await (p : Place) (id : Nat) (w : World) : World :=
  let ws := w.waitersAt p
  match ws.find? (·.task == id) with
  | some x =>
    if x.notified then w.setWaiters p (ws.filter (·.task != id) ++ [{ task := id }]) else w
  | none => w.setWaiters p (ws ++ [{ task := id }])

/-! ## Ends of a line -/

/-- The ends that a job holds. -/
def endsOf : Job → Option (Nat × List LineEnd)
  | .router i phase _ =>
    match phase with
    | .stopped => none
    | _ => some (i, [.intakeReceiver, .processingSender])
  | .settler i phase =>
    match phase with
    | .stopped | .panicked => none
    | _ => some (i, [.processingReceiver])
  | _ => none

/-- Whether anyone holds an end of a line. -/
def isHeld (i : Nat) (e : LineEnd) (w : World) : Bool :=
  (match w.line? i with | some l => l.held.contains e | none => false) ||
    w.tasks.any fun t =>
      match endsOf t.job with
      | some (j, es) => j == i && es.contains e
      | none => false

/-- Closes a queue that has lost all senders or all receivers, and tells everyone who waits. -/
def closeIfLost (i : Nat) (stage : Stage) (w : World) : World :=
  let (sender, receiver) : LineEnd × LineEnd := match stage with
    | .intake => (.intakeSender, .intakeReceiver)
    | .processing => (.processingSender, .processingReceiver)
  match w.line? i with
  | none => w
  | some l =>
    let isClosed := match stage with
      | .intake => l.flow.intake.closed
      | .processing => l.flow.processing.closed
    if isClosed || (w.isHeld i sender && w.isHeld i receiver) then w
    else
      let flow : Flow := match stage with
        | .intake => { l.flow with intake := l.flow.intake.close }
        | .processing => { l.flow with processing := l.flow.processing.close }
      ((w.setFlow i flow).notifyAll ⟨i, stage, .senders⟩).notifyAll ⟨i, stage, .receivers⟩

/-- Closes what has lost its last holder on a line. -/
def settleEnds (i : Nat) (w : World) : World :=
  (w.closeIfLost i .intake).closeIfLost i .processing

/-! ## Taking and putting -/

/-- What follows an item taken out by a task: the queue's level is written down, a sender is
    notified, and the task waits no more. -/
def afterTake (i : Nat) (stage : Stage) (id : Nat) (depth : Nat) (w : World) : World :=
  ((w.notify ⟨i, stage, .senders⟩).leave ⟨i, stage, .receivers⟩ id).noteDepth stage depth

/-- What follows an item put in by a task. -/
def afterPut (i : Nat) (stage : Stage) (id : Nat) (depth : Nat) (w : World) : World :=
  ((w.notify ⟨i, stage, .receivers⟩).leave ⟨i, stage, .senders⟩ id).noteDepth stage depth

/-- Offers an order to the pipeline for a task: `none` if it has to wait, which it then does. -/
def offerOrder (id : Nat) (o : Order) (w : World) : Option (Except Error Unit) × World :=
  match w.line? 0 with
  | none => (some (.error .pipelineClosed), w)
  | some l =>
    match l.flow.intake.offer o with
    | .taken q =>
      (some (.ok ()), (w.setFlow 0 { l.flow with intake := q }).afterPut 0 .intake id q.size)
    | .full => (none, w.await ⟨0, .intake, .senders⟩ id)
    | .closed => (some (.error .pipelineClosed), w.leave ⟨0, .intake, .senders⟩ id)

/-- Offers an order to the pipeline without waiting. -/
def tryOffer (o : Order) : Action World Bool := .ofFun fun w =>
  match w.line? 0 with
  | none => (.error (.error .pipelineClosed), w)
  | some l =>
    match l.flow.intake.offer o with
    | .taken q =>
      (.ok true,
        ((w.setFlow 0 { l.flow with intake := q }).notify ⟨0, .intake, .receivers⟩).noteDepth
          .intake q.size)
    | .full => (.ok false, w)
    | .closed => (.error (.error .pipelineClosed), w)

end LoyaltyPoints.Simulation.World
