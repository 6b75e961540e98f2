import LoyaltyPoints.Simulation.Waiting

/-! # Simulation: running the tasks

    A task runs until it has to wait: for an item, for room, for the oracle or for its next sweep.
    The clock moves only when every task waits, and then to the next time one of them waits for. -/

namespace LoyaltyPoints.Simulation.World

/-! ## The oracle -/

/-- Takes the next reply of a script; the last one stays. -/
def nextReply : List Reply → Option (Reply × List Reply)
  | [] => none
  | [r] => some (r, [r])
  | r :: rs => some (r, rs)

/-- What a reply says about an order. -/
def Reply.answer (number : String) (r : Reply) : Except Error Oracle.Answer :=
  match r.failure with
  | some e => .error e
  | none => .ok ⟨number, r.status, r.accrual⟩

/-- Asks the oracle: its answer, and the time it comes at. An order without a script is not
    registered. -/
def ask (number : String) (w : World) : (Except Error Oracle.Answer × Nat) × World :=
  let w := { w with asked := w.asked ++ [number] }
  match (w.scripts.find? (·.1 == number)).bind fun s => nextReply s.2 with
  | none => ((.ok (.unregistered number), w.now), w)
  | some (r, rest) =>
    ((Reply.answer number r, w.now + r.delay),
      { w with scripts := w.scripts.map fun s => if s.1 == number then (number, rest) else s })

/-- Routes an order and counts the route. Marking an order cannot overflow. -/
def route (o : Order) (answer : Except Error Oracle.Answer) (w : World) : Route × World :=
  match (Route.ofAnswer store o answer).perform w with
  | (.ok r, w) => (r, w.countRoute r)
  | (.error _, w) => (.storeFailed, w)

/-! ## Workers -/

/-- Ends a worker: it waits nowhere any more, and lets go of its ends. -/
def finish (id : Nat) (i : Nat) (job : Job) (w : World) : World :=
  (((w.leave ⟨i, .intake, .receivers⟩ id).leave ⟨i, .processing, .senders⟩ id).leave
    ⟨i, .processing, .receivers⟩ id |>.setJob id job).settleEnds i

/-- Runs a worker of the first stage until it waits. -/
def runRouter (id i : Nat) :
    (fuel : Nat) → Router → Option (Except Error Oracle.Answer × Nat) → World → World
  | 0, phase, answer, w => w.setJob id (.router i phase answer)
  | fuel + 1, phase, answer, w =>
    match w.line? i with
    | none => w
    | some l =>
      match phase with
      | .idle =>
        match Router.receive w.stop l.flow with
        | none => (w.await ⟨i, .intake, .receivers⟩ id).setJob id (.router i .idle none)
        | some (.asking o, flow) =>
          let w := (w.setFlow i flow).afterTake i .intake id flow.intake.size
          let (answer, w) := w.ask o.number
          runRouter id i fuel (.asking o) (some answer) w
        | some (phase, _) => w.finish id i (.router i phase none)
      | .asking o =>
        match answer with
        | none => w
        | some (a, due) =>
          if due ≤ w.now then
            let (r, w) := w.route o a
            runRouter id i fuel (.afterRoute r) none w
          else w.setJob id (.router i (.asking o) answer)
      | .holding c =>
        match Router.forward w.stop c l.flow with
        | none => (w.await ⟨i, .processing, .senders⟩ id).setJob id (.router i (.holding c) none)
        | some (.idle, flow) =>
          let w := (w.setFlow i flow).afterPut i .processing id flow.processing.size
          runRouter id i fuel .idle none w
        | some (phase, _) => w.finish id i (.router i phase none)
      | .stopped => w

/-- Runs a worker of the second stage until it waits. -/
def runSettler (id i : Nat) : (fuel : Nat) → Settler → World → World
  | 0, phase, w => w.setJob id (.settler i phase)
  | fuel + 1, phase, w =>
    match w.line? i with
    | none => w
    | some l =>
      match phase with
      | .idle =>
        match Settler.receive w.stop l.flow with
        | none => (w.await ⟨i, .processing, .receivers⟩ id).setJob id (.settler i .idle)
        | some (.applying c, flow) =>
          let w := (w.setFlow i flow).afterTake i .processing id flow.processing.size
          runSettler id i fuel (.applying c) w
        | some (phase, _) => w.finish id i (.settler i phase)
      | .applying c =>
        let (r, w) := (Settlement.apply store c).perform w
        match r with
        | .ok s => runSettler id i fuel .idle (w.countSettlement s)
        | .error _ => w.finish id i (.settler i (.afterApply r))
      | .stopped | .panicked => w

/-- Runs the sweeper until it waits. A sweep that fails leaves the cursor where it is. -/
def runSweeper (id : Nat) (batch : Int) (interval : Nat) (cursor : Option Position)
    (due : Option Nat) (w : World) : World :=
  if w.stop then w.setJob id .sweeperStopped
  else
    match due with
    | none => w.setJob id (.sweeper batch interval cursor (some (w.now + interval)))
    | some t =>
      if t ≤ w.now then
        let (r, w) := (Sweep.once store tryOffer batch cursor).perform w
        let cursor := match r with
          | .ok r => r.cursor
          | .error _ => cursor
        w.setJob id (.sweeper batch interval cursor (some (w.now + interval)))
      else w

/-- Runs a task until it waits. A worker takes at most four steps for each item it can reach. -/
def runTask (id : Nat) (w : World) : World :=
  let reach := match w.lines with
    | ls => ls.foldl (fun n l => n + l.flow.intake.size + l.flow.processing.size) 0
  let fuel := 4 * reach + 8
  match w.task? id with
  | none => w
  | some t =>
    match t.job with
    | .router i phase answer => runRouter id i fuel phase answer w
    | .settler i phase => runSettler id i fuel phase w
    | .sweeper batch interval cursor due => runSweeper id batch interval cursor due w
    | .sweeperStopped => w
    | .registering o none =>
      match w.offerOrder id o with
      | (none, w) => w
      | (some r, w) => w.setJob id (.registering o (some r))
    | .registering _ (some _) => w

/-- Adds a task, which can run at once. -/
def spawn (job : Job) (w : World) : World :=
  let id := w.tasks.length + 1
  { w with tasks := w.tasks ++ [⟨id, job, false⟩], ready := w.ready ++ [id] }

/-! ## The clock -/

/-- The time a task waits for. -/
def dueOf : Job → Option Nat
  | .router _ (.asking _) (some (_, due)) => some due
  | .sweeper _ _ _ due => due
  | _ => none

/-- The next time behind now that a task waits for. -/
def nextDue (w : World) : Option Nat :=
  (w.tasks.filterMap fun t => (dueOf t.job).filter (w.now < ·)).min?

/-- Lets the tasks run whose time is now. -/
def wakeDue (w : World) : World :=
  (w.tasks.filter fun t => dueOf t.job == some w.now).foldl (fun w t => w.wake t.id) w

/-- Runs the tasks that can run, in turn, until all of them wait. -/
def drain : (fuel : Nat) → World → World
  | 0, w => w
  | fuel + 1, w =>
    match w.ready with
    | [] => w
    | id :: rest => drain fuel (runTask id { w with ready := rest })

/-- Runs until every task waits. Each run of a task is called for by an item, an end, a time or the
    start of the task; the bound is far above what those can call for at one time. -/
def settle (w : World) : World :=
  let items := w.lines.foldl (fun n l => n + l.flow.intake.size + l.flow.processing.size) 0
  let orders := w.book.ledger.orders.length
  drain ((items + orders + w.tasks.length + 8) * (w.tasks.length + 8) * 4) w

/-- Whether a wait of the session is over before its time. -/
abbrev Attempt (α : Type) := World → Option α × World

/-- Lets the world go on until `deadline`. Whenever the session is called it makes its attempt, and
    goes on as soon as that succeeds; at the deadline it makes the last one, before any task whose
    time has come runs. -/
def waitUntil {α : Type} (attempt : Attempt α) (deadline : Nat) :
    (fuel : Nat) → World → Option α × World
  | 0, w => attempt { w with now := deadline }
  | fuel + 1, w =>
    let w := w.settle
    let (r, w) := if w.called then attempt { w with called := false } else (none, w)
    match r with
    | some x => (some x, w)
    | none =>
      if !w.ready.isEmpty || w.called then waitUntil attempt deadline fuel w
      else
        match w.nextDue with
        | some t =>
          if t < deadline then waitUntil attempt deadline fuel ({ w with now := t }.wakeDue)
          else attempt ({ w with now := deadline }.wakeDue)
        | none => attempt { w with now := deadline }

/-- Waits for an attempt to succeed, at most `ms` milliseconds. -/
def waitFor {α : Type} (attempt : Attempt α) (ms : Nat) (w : World) : Option α × World :=
  waitUntil attempt (w.now + ms) (4 * ms + w.tasks.length + 64) w

/-- Lets `ms` milliseconds pass. -/
def pass (ms : Nat) (w : World) : World :=
  (waitFor (α := Unit) (fun w => (none, w)) ms w).2

end LoyaltyPoints.Simulation.World
