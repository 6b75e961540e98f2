import LoyaltyPoints.Ledger.Store
import LoyaltyPoints.Pipeline.Sweep
import LoyaltyPoints.Pipeline.Worker

/-! # Simulation: the world a session acts on

    A session acts on one ledger, one pipeline and a scripted oracle, under a clock that stands
    still while anything can run. Calls of the ledger can be made to fail once. Beside the pipeline
    there can be lines of the session's own, whose ends it holds and drops. -/

namespace LoyaltyPoints.Simulation

/-- The calls that can be made to fail. -/
inductive Call where
  | createOrder
  | orderByNumber
  | userOrder
  | userOrders
  | pendingOrders
  | markOrders
  | accrue
  | balance
  | debit
  | withdrawals
  /-- The pipeline's intake, as a submission sees it. -/
  | register
deriving DecidableEq, Repr

/-- What a call does instead of its work. -/
inductive Interference where
  | error (e : Error)
  /-- A look-up finds nothing. -/
  | absent

/-- An answer the oracle is told to give, some milliseconds after it was asked. -/
structure Reply where
  status : Oracle.Status
  accrual : Option Decimal
  failure : Option Error := none
  delay : Nat := 0

/-- The ends of a line of queues. -/
inductive LineEnd where
  | intakeSender
  | intakeReceiver
  | processingSender
  | processingReceiver
deriving DecidableEq, Repr

/-- A line of queues and the ends that its owner holds. -/
structure Line where
  flow : Flow
  held : List LineEnd :=
    [.intakeSender, .intakeReceiver, .processingSender, .processingReceiver]

/-- The two queues of a line. -/
inductive Stage where
  | intake
  | processing
deriving DecidableEq, Repr

/-- The two sides of a queue on which tasks wait. -/
inductive Side where
  | receivers
  | senders
deriving DecidableEq, Repr

/-- A place where tasks wait. -/
structure Place where
  line : Nat
  stage : Stage
  side : Side
deriving DecidableEq, Repr

/-- A task that waits at a place; it may have been told to look again. -/
structure Waiter where
  task : Nat
  notified : Bool := false

/-- What a task does. -/
inductive Job where
  /-- A worker of the first stage; while it asks, the answer and the time it comes at. -/
  | router (line : Nat) (phase : Router) (answer : Option (Except Error Oracle.Answer × Nat))
  /-- A worker of the second stage. -/
  | settler (line : Nat) (phase : Settler)
  /-- The sweeper: batch, interval, cursor and the time of the next sweep. -/
  | sweeper (batch : Int) (interval : Nat) (cursor : Option Position) (due : Option Nat)
  /-- A sweeper that has stopped. -/
  | sweeperStopped
  /-- Hands an order to the pipeline; the result once it is known. -/
  | registering (o : Order) (result : Option (Except Error Unit))

/-- A task; one that has ended is reported once. -/
structure Task where
  id : Nat
  job : Job
  reported : Bool := false

/-- A sweeper that is called by hand. -/
structure Sweeper where
  batch : Int
  interval : Nat
  cursor : Option Position := none

/-- Counts and levels by name. -/
abbrev Tally := List (String × Nat)

/-- Changes the number of a name; a name not met before starts from zero. -/
def Tally.modify (name : String) (f : Nat → Nat) : Tally → Tally
  | [] => [(name, f 0)]
  | (k, n) :: t => if k == name then (k, f n) :: t else (k, n) :: modify name f t

/-- The world. -/
structure World where
  book : LedgerState := {}
  faults : List (Call × Interference) := []
  scripts : List (String × List Reply) := []
  /-- The numbers the oracle was asked for, in order. -/
  asked : List String := []
  /-- The pipeline's line, and behind it the session's own. -/
  lines : List Line
  waiting : List (Place × List Waiter) := []
  tasks : List Task := []
  /-- The tasks that can run, in turn. -/
  ready : List Nat := []
  /-- Whether the session itself was told to look again. -/
  called : Bool := false
  /-- The time in milliseconds. -/
  now : Nat := 0
  stopValue : Bool := false
  stopDropped : Bool := false
  sweeper : Option Sweeper := none
  tally : Tally := []
  /-- The users named so far. -/
  users : List String := []
  routers : Nat
  settlers : Nat

namespace World

/-! ## The ledger, and interference with it -/

/-- Takes the first interference with a call. -/
def takeFault (call : Call) :
    List (Call × Interference) → Option (Interference × List (Call × Interference))
  | [] => none
  | (c, i) :: fs =>
    if c = call then some (i, fs) else (takeFault call fs).map fun (j, fs) => (j, (c, i) :: fs)

/-- An action on the ledger, unless it is interfered with. `absent` is the answer of a look-up that
    finds nothing. -/
def interfered {α : Type} (call : Call) (absent : Option α) (a : Action LedgerState α) :
    Action World α := .ofFun fun w =>
  let go := (Action.focus World.book (fun b w => { w with book := b }) a).perform
  match takeFault call w.faults with
  | none => go w
  | some (.error e, faults) => (.error (.error e), { w with faults })
  | some (.absent, faults) =>
    match absent with
    | some x => (.ok x, { w with faults })
    | none => go { w with faults }

/-- The ledger that the services, the workers and the sweeper see. -/
def store : Store World :=
  let s := LedgerState.store
  { createOrder := fun user number => interfered .createOrder none (s.createOrder user number)
    orderByNumber := fun number => interfered .orderByNumber (some none) (s.orderByNumber number)
    userOrder := fun user number => interfered .userOrder (some none) (s.userOrder user number)
    userOrders := fun user => interfered .userOrders none (s.userOrders user)
    pendingOrders := fun after limit =>
      interfered .pendingOrders none (s.pendingOrders after limit)
    markOrders := fun ids status => interfered .markOrders none (s.markOrders ids status)
    accrue := fun c => interfered .accrue none (s.accrue c)
    balance := fun user => interfered .balance none (s.balance user)
    debit := fun user number amount => interfered .debit none (s.debit user number amount)
    withdrawals := fun user => interfered .withdrawals none (s.withdrawals user) }

/-! ## Counting -/

/-- Counts one more under a name and a label. -/
def count (name label value : String) (w : World) : World :=
  { w with tally := w.tally.modify (name ++ "\x7b" ++ label ++ "=" ++ value ++ "\x7d") (· + 1) }

/-- Counts a route. -/
def countRoute (r : Route) : World → World := count "accrual_pipeline_orders_total" "route" r.label

/-- Counts a settlement, and a measurement of how long it took. -/
def countSettlement (s : Settlement) (w : World) : World :=
  let w := count "accruals_total" "status" s.label w
  { w with tally := w.tally.modify "accrual_duration_seconds\x7b\x7d" (· + 1) }

/-- Counts a withdrawal. -/
def countWithdrawal (label : String) : World → World := count "withdrawals_total" "status" label

/-- The name of a stage in reports. -/
def stageName : Stage → String
  | .intake => "intake"
  | .processing => "processing"

/-- Writes down how many items a queue holds. -/
def noteDepth (s : Stage) (depth : Nat) (w : World) : World :=
  let name := "accrual_pipeline_queue_depth\x7bqueue=" ++ stageName s ++ "\x7d"
  { w with tally := w.tally.modify name fun _ => depth }

/-! ## Tasks and lines -/

/-- Whether the workers have been told to stop; a dropped signal counts as one. -/
def stop (w : World) : Bool := w.stopValue || w.stopDropped

/-- The task with this id. -/
def task? (id : Nat) (w : World) : Option Task := w.tasks.find? (·.id == id)

/-- Gives a task another job. -/
def setJob (id : Nat) (job : Job) (w : World) : World :=
  { w with tasks := w.tasks.map fun t => if t.id == id then { t with job } else t }

/-- The line with this index. -/
def line? (i : Nat) (w : World) : Option Line := w.lines[i]?

/-- Changes a line. -/
def modifyLine (i : Nat) (f : Line → Line) (w : World) : World :=
  { w with lines := w.lines.modify i f }

/-- Changes the queues of a line. -/
def setFlow (i : Nat) (flow : Flow) : World → World := modifyLine i fun l => { l with flow }

/-- Whether a job has ended. -/
def Job.isOver : Job → Bool
  | .router _ .stopped _ => true
  | .settler _ .stopped => true
  | .settler _ .panicked => true
  | .sweeperStopped => true
  | .registering _ (some _) => true
  | _ => false

end World

end LoyaltyPoints.Simulation
