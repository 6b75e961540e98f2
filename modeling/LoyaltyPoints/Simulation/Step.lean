import LoyaltyPoints.Simulation.Tasks
import LoyaltyPoints.Submission
import LoyaltyPoints.Withdrawing

/-! # Simulation: the steps of a session

    A session is a list of steps. Each step has one result, and the session goes on after a failure.
    Time passes, and tasks run, only in the steps that wait. -/

namespace LoyaltyPoints.Simulation

/-- A step of a session. Where a step names an order by number, the stored order is meant, if it
    belongs to the user who is named; else it is a fresh order that is not in the ledger. -/
inductive Step where
  | createOrder (user number : String)
  | userOrders (user : String)
  | userOrder (user number : String)
  | balance (user : String)
  | total (user : String)
  | withdraw (user number : String) (amount : Decimal)
  | withdrawals (user : String)
  /-- The operations of the ledger without the services. -/
  | storeOrder (user number : String)
  | lookUp (number : String)
  | lookUpOwn (user number : String)
  | debit (user number : String) (amount : Decimal)
  | listPending (after : Option String) (limit : Int)
  | mark (numbers : List String) (status : OrderStatus)
  | accrue (c : Credit)
  | orderCount
  /-- Tells the oracle what to answer. -/
  | script (number : String) (replies : List Reply)
  | oracleCalls
  | interfere (call : Call) (i : Interference)
  /-- The parts of the pipeline by themselves. -/
  | route (number : String) (user : Option String)
  | apply (c : Credit)
  | register (number : String) (user : Option String)
  | tryRegister (number : String) (user : Option String)
  | spawnRegister (number : String) (user : Option String)
  | registrations
  | queues
  | settle
  | advance (ms : Nat)
  | start
  | shutdown (value : Bool)
  | dropShutdown
  | workers
  | sweeper (batch : Int) (interval : Nat)
  | sweep
  | runSweeper
  /-- A line of the session's own. -/
  | line (intake processing : Nat)
  | lineRouter
  | lineSettler
  | send (number : String) (user : Option String)
  | sendCredit (c : Credit)
  | receive
  | dropEnd (e : LineEnd)

/-- What a step results in. -/
inductive Value where
  | nothing
  | flag (b : Bool)
  | count (n : Nat)
  | word (s : String)
  | words (ss : List String)
  | amount (d : Decimal)
  | order (o : Order)
  | orders (os : List Order)
  | balance (b : Balance)
  | withdrawal (w : Withdrawal)
  | withdrawals (ws : List Withdrawal)
  | levels (intake processing : Nat)
  | route (r : Route)
  | credit (c : Credit)

/-- How a step fails. -/
inductive Failure where
  | fault (f : Fault)
  /-- The step is none, or cannot be taken now. -/
  | unusable

namespace World

/-- What a step came to, and the world behind it. -/
abbrev Taken := Except Failure Value × World

/-- A step that is one action. -/
def act {α : Type} (a : Action World α) (value : α → Value) (w : World) : Taken :=
  match a.perform w with
  | (.ok x, w) => (.ok (value x), w)
  | (.error f, w) => (.error (.fault f), w)

/-- A step that succeeds. -/
def done (v : Value) (w : World) : Taken := (.ok v, w)

/-- A fresh id or time. -/
def freshStamp (w : World) : Stamp × World :=
  (Stamp.number w.book.stamps, { w with book.stamps := w.book.stamps + 1 })

/-- The owner of an order that belongs to nobody. -/
def ghost : String := "ghost"

/-- The order that a step names by number. -/
def orderNamed (number : String) (user : Option String) (w : World) : Order × World :=
  let fresh : Order × World :=
    let (s, w) := w.freshStamp
    (Order.submitted s.recordId (user.getD ghost) number s.now, w)
  match w.book.ledger.orderByNumber number with
  | some o => if user.all (· == o.user) then (o, w) else fresh
  | none => fresh

/-- The id of the order with this number, or one that no order has. -/
def idNamed (number : String) (w : World) : Uuid × World :=
  match w.book.ledger.orderByNumber number with
  | some o => (o.id, w)
  | none =>
    let (s, w) := w.freshStamp
    (s.recordId, w)

/-- The ids of the orders with these numbers. -/
def idsNamed : List String → World → List Uuid × World
  | [], w => ([], w)
  | n :: ns, w =>
    let (i, w) := idNamed n w
    let (is, w) := idsNamed ns w
    (i :: is, w)

/-- How long the session waits for room in the pipeline, in milliseconds. -/
def patience : Nat := 10

/-- Hands an order to the pipeline, waiting for room. `none` if there was none in time; the order is
    taken back then. -/
def handOver (o : Order) (w : World) : Option (Except Error Unit) × World :=
  match w.offerOrder session o with
  | (some r, w) => (some r, w)
  | (none, w) =>
    match waitFor (fun w => w.offerOrder session o) patience { w with called := false } with
    | (some r, w) => (some r, w)
    | (none, w) => (none, { w.leave ⟨0, .intake, .senders⟩ session with called := false })

/-- The word for a step that waited in vain. -/
def blocked : Value := .word "BLOCKED"

/-- Submits an order and hands it over. A failure to hand it over is passed over. -/
def createOrder (user number : String) (w : World) : Taken :=
  match (Submission.submit store user number).perform w with
  | (.error f, w) => (.error (.fault f), w)
  | (.ok o, w) =>
    match takeFault .register w.faults with
    | some (_, faults) => ({ w with faults }).done (.order o)
    | none =>
      match w.handOver o with
      | (some _, w) => w.done (.order o)
      | (none, w) => w.done blocked

/-- Asks the oracle about an order, waits for the answer and routes the order. -/
def routeNow (o : Order) (w : World) : Taken :=
  let ((answer, due), w) := w.ask o.number
  let w := if due ≤ w.now then w else w.pass (due - w.now)
  let (r, w) := w.route o answer
  w.done (.route r)

/-- Lets the tasks that wait for the stop signal look at it. -/
def signalStop (w : World) : World :=
  let waits (t : Task) : Bool := match t.job with
    | .router _ .idle _ | .router _ (.holding _) _ | .settler _ .idle | .sweeper .. => true
    | _ => false
  (w.tasks.filter waits).foldl (fun w t => w.wake t.id) w

/-- How a worker stands, in a word; other tasks have none. -/
def standing : Job → Option String
  | .router _ .stopped _ | .settler _ .stopped | .sweeperStopped => some "stopped"
  | .settler _ .panicked => some "panicked"
  | .router .. | .settler .. | .sweeper .. => some "running"
  | .registering .. => none

/-- How all workers stand that have not been reported as ended, in the order of the words. -/
def reportWorkers (w : World) : Taken :=
  let words := (w.tasks.filter (!·.reported)).filterMap (standing ·.job)
  let tasks := w.tasks.map fun t =>
    if (standing t.job).isSome && Job.isOver t.job then { t with reported := true } else t
  ({ w with tasks }).done (.words (words.mergeSort fun a b => decide (a ≤ b)))

/-- How the tasks stand that hand over an order. -/
def registrationOf : Job → Option String
  | .registering _ none => some "pending"
  | .registering _ (some (.ok _)) => some "registered"
  | .registering _ (some (.error e)) => some e.code
  | _ => none

/-- The levels of the pipeline's queues. -/
def levels (w : World) : Value :=
  match w.line? 0 with
  | some l => .levels l.flow.intake.size l.flow.processing.size
  | none => .levels 0 0

/-- Starts the workers of the pipeline. -/
def start (w : World) : Taken :=
  let w := (List.range w.routers).foldl (fun w _ => w.spawn (.router 0 .idle none)) w
  let w := (List.range w.settlers).foldl (fun w _ => w.spawn (.settler 0 .idle)) w
  w.done (.count (w.routers + w.settlers))

/-- The index of the session's own line. -/
def ownLine? (w : World) : Option Nat :=
  if 1 < w.lines.length then some (w.lines.length - 1) else none

/-- Drops an end of a line. -/
def dropEnd (i : Nat) (e : LineEnd) (w : World) : World :=
  (w.modifyLine i fun l => { l with held := l.held.filter (· != e) }).settleEnds i

/-- Sets up a line of the session's own; the ends of the one before are dropped. -/
def newLine (intake processing : Nat) (w : World) : World :=
  let w := match w.ownLine? with
    | none => w
    | some i =>
      [LineEnd.intakeSender, .intakeReceiver, .processingSender, .processingReceiver].foldl
        (fun w e => w.dropEnd i e) w
  { w with lines := w.lines ++ [{ flow := ⟨.ofCapacity intake, .ofCapacity processing⟩ }] }

/-- Whether the session holds an end of a line. -/
def holds (i : Nat) (e : LineEnd) (w : World) : Bool :=
  match w.line? i with
  | some l => l.held.contains e
  | none => false

/-- Starts a worker on the session's own line, if the session holds the ends that it needs. -/
def spawnOn (needed : List LineEnd) (job : Nat → Job) (w : World) : Taken :=
  match w.ownLine? with
  | some i =>
    if needed.all fun e => w.holds i e then (w.spawn (job i)).done .nothing
    else (.error .unusable, w)
  | none => (.error .unusable, w)

/-- Puts an item into a queue of the session's own line; `put` says what became of it. -/
def sendOn (e : LineEnd) (stage : Stage) (put : Flow → Option (Option Flow)) (w : World) : Taken :=
  match w.ownLine?, w.ownLine?.bind w.line? with
  | some i, some l =>
    if w.holds i e then
      match put l.flow with
      | some (some flow) =>
        ((w.setFlow i flow).notify ⟨i, stage, .receivers⟩).done (.word "sent")
      | some none => w.done (.word "full")
      | none => w.done (.word "closed")
    else w.done (.word "gone")
  | _, _ => (.error .unusable, w)

/-- What became of an offer, for `sendOn`. -/
def offered {α : Type} (o : Offer α) (f : Queue α → Flow) : Option (Option Flow) :=
  match o with
  | .taken q => some (some (f q))
  | .full => some none
  | .closed => none

/-- Takes a credit from the session's own line. -/
def receiveOwn (w : World) : Taken :=
  match w.ownLine?, w.ownLine?.bind w.line? with
  | some i, some l =>
    if w.holds i .processingReceiver then
      match l.flow.processing.pop? with
      | some (c, q) =>
        ((w.setFlow i { l.flow with processing := q }).notify ⟨i, .processing, .senders⟩).done
          (.credit c)
      | none => w.done (.word (if l.flow.processing.closed then "closed" else "empty"))
    else w.done (.word "gone")
  | _, _ => (.error .unusable, w)

/-- Sweeps once by hand. -/
def sweepOnce (w : World) : Taken :=
  match w.sweeper with
  | none => (.error .unusable, w)
  | some s =>
    match (Sweep.once store tryOffer s.batch s.cursor).perform w with
    | (.ok r, w) =>
      ({ w with sweeper := some { s with cursor := r.cursor } }).done (.count r.registered)
    | (.error f, w) => (.error (.fault f), w)

/-- Lets the sweeper run as a task. -/
def spawnSweeper (w : World) : Taken :=
  match w.sweeper with
  | none => (.error .unusable, w)
  | some s =>
    let w := { w with sweeper := none }
    ((w.spawn (.sweeper s.batch s.interval s.cursor none)).pass 1).done .nothing

/-- The position behind the order with this number. -/
def positionNamed (after : Option String) (w : World) : Option Position × World :=
  match after with
  | none => (none, w)
  | some number =>
    let (o, w) := w.orderNamed number none
    (some o.position, w)

/-- Takes a step. -/
def take (s : Step) (w : World) : Taken :=
  match s with
  | .createOrder user number => w.createOrder user number
  | .userOrders user => w.act (store.userOrders user) .orders
  | .userOrder user number => w.act (Submission.find store user number) .order
  | .balance user => w.act (store.balance user) .balance
  | .total user =>
    w.act (do let b ← store.balance user; Action.ofSum b.totalAccrued) .amount
  | .withdraw user number amount =>
    match (LoyaltyPoints.withdraw store user number amount).perform w with
    | (.ok r, w) =>
      let w := w.countWithdrawal r.label
      match r.result with
      | .ok x => w.done (.withdrawal x)
      | .error e => (.error (.fault (.error e)), w)
    | (.error f, w) => (.error (.fault f), w)
  | .withdrawals user => w.act (store.withdrawals user) .withdrawals
  | .storeOrder user number => w.act (store.createOrder user number) .order
  | .lookUp number =>
    w.act (store.orderByNumber number) fun o => (o.map Value.order).getD .nothing
  | .lookUpOwn user number =>
    w.act (store.userOrder user number) fun o => (o.map Value.order).getD .nothing
  | .debit user number amount => w.act (store.debit user number amount) .withdrawal
  | .listPending after limit =>
    let (p, w) := w.positionNamed after
    w.act (store.pendingOrders p limit) fun os => .words (os.map (·.number))
  | .mark numbers status =>
    let (ids, w) := idsNamed numbers w
    w.act (store.markOrders ids status) .count
  | .accrue c => w.act (store.accrue c) .flag
  | .orderCount => w.done (.count w.book.ledger.orders.length)
  | .script number replies =>
    ({ w with scripts := (number, replies) :: w.scripts.filter (·.1 != number) }).done .nothing
  | .oracleCalls => w.done (.words w.asked)
  | .interfere call i => ({ w with faults := w.faults ++ [(call, i)] }).done .nothing
  | .route number user =>
    let (o, w) := w.orderNamed number user
    w.routeNow o
  | .apply c =>
    match (Settlement.apply store c).perform w with
    | (.ok s, w) => (w.countSettlement s).done (.word s.label)
    | (.error f, w) => (.error (.fault f), w)
  | .register number user =>
    let (o, w) := w.orderNamed number user
    match w.handOver o with
    | (some (.ok _), w) => w.done (.word "registered")
    | (some (.error e), w) => (.error (.fault (.error e)), w)
    | (none, w) => w.done blocked
  | .tryRegister number user =>
    let (o, w) := w.orderNamed number user
    w.act (tryOffer o) .flag
  | .spawnRegister number user =>
    let (o, w) := w.orderNamed number user
    ((w.spawn (.registering o none)).pass 1).done .nothing
  | .registrations => w.done (.words (w.tasks.filterMap (registrationOf ·.job)))
  | .queues => w.done w.levels
  | .settle =>
    let w := w.pass 1
    w.done w.levels
  | .advance ms =>
    let w := w.pass ms
    w.done w.levels
  | .start => w.start
  | .shutdown value =>
    if w.stopDropped then w.done (.flag false)
    else (({ w with stopValue := value }).signalStop).done (.flag true)
  | .dropShutdown => (({ w with stopDropped := true }).signalStop).done .nothing
  | .workers => (w.pass 1).reportWorkers
  | .sweeper batch interval =>
    ({ w with sweeper := some { batch, interval } }).done .nothing
  | .sweep => w.sweepOnce
  | .runSweeper => w.spawnSweeper
  | .line intake processing => (w.newLine intake processing).done .nothing
  | .lineRouter =>
    w.spawnOn [.intakeReceiver, .processingSender] fun i => .router i .idle none
  | .lineSettler => w.spawnOn [.processingReceiver] fun i => .settler i .idle
  | .send number user =>
    let (o, w) := w.orderNamed number user
    w.sendOn .intakeSender .intake fun f =>
      offered (f.intake.offer o) fun q => { f with intake := q }
  | .sendCredit c =>
    w.sendOn .processingSender .processing fun f =>
      offered (f.processing.offer c) fun q => { f with processing := q }
  | .receive => w.receiveOwn
  | .dropEnd e =>
    match w.ownLine? with
    | some i => (w.dropEnd i e).done .nothing
    | none => (.error .unusable, w)

end World

end LoyaltyPoints.Simulation
