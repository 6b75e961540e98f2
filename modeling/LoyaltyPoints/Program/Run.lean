import LoyaltyPoints.Database.Backend
import LoyaltyPoints.Journal.Line
import LoyaltyPoints.Observability
import LoyaltyPoints.Program.Events
import LoyaltyPoints.Program.Failure
import LoyaltyPoints.Settings.Load

/-! # Program: one run of the service

    The service sets up its journal, connects to the database, brings the schema up to date, starts
    the pipeline, and sweeps up the pending orders of earlier runs. Then it works until it is told
    to stop. The database follows a script and the oracle is out of reach, so every order that is
    swept up stays as it is. -/

namespace LoyaltyPoints.Program

open Journal Database

/-- The name of the service. -/
def serviceName : String := "accrual-service"

/-- How a run is told to stop. -/
inductive Signal where
  | interrupt
  | terminate

/-- What is told of a signal. -/
def Signal.event : Signal → Event
  | .interrupt =>
    Part.program.event .info "Received Ctrl+C, starting graceful shutdown..." []
  | .terminate =>
    Part.program.event .info "Received SIGTERM, starting graceful shutdown..." []

/-- What a run begins with. -/
structure Launch where
  files : Settings.Files := []
  environment : Settings.Environment := []
  /-- Where the database is. -/
  databaseUrl : String
  script : Script
  /-- The texts after which the signal comes, and in how many lines each has to be seen. -/
  awaited : List (String × Nat) := []
  signal : Signal := .terminate

/-- The settings of a run: the defaults if they cannot be loaded. -/
def Launch.settings (l : Launch) : Settings :=
  (Settings.load? serviceName l.files l.environment).getD {}

/-- The settings of journal and metrics. -/
def Launch.observability (l : Launch) : ObservabilitySettings :=
  l.settings.observability.withServiceName l.settings.serviceName

/-- The state of a run. -/
structure State where
  watch : Observability
  backend : Backend

/-- What a run leaves behind. -/
structure Outcome where
  exitCode : Nat
  entries : List Entry
  sent : List Sent
  /-- What is reported of a failure. -/
  failure : List String

/-! ## Steps -/

/-- Tells of events. -/
def tell (es : List Event) : Action State Unit := .ofFun fun s =>
  (.ok (), { s with watch := s.watch.writeAll (es.map .ofEvent) })

/-- An action on the database inside of a span, and what is told when it went well. -/
def inSpan (span : Span) (done : Event) (a : Action Backend Unit) : Action State Unit :=
  .ofFun fun s =>
    let (r, backend) := a.perform s.backend
    let es := match r with
      | .ok _ => [done]
      | .error _ => []
    (r, { watch := s.watch.writeAll (span.enclose es), backend })

/-- Connects to the database that the settings name. -/
def connect (l : Launch) : Action Backend Unit :=
  let url := l.settings.database.url
  if l.databaseUrl.toList.isPrefixOf url.toList then Backend.onScript Script.connect
  else match Url.read url with
    | .error e => .fail (.database (.configuration e.message))
    | .ok _ => .fail (.database .poolTimedOut)

/-- Sweeps once. -/
def sweep (l : Launch) : Action State Unit := do
  let r ← Action.focus State.backend (fun b s => { s with backend := b })
    (Backend.sweep l.settings.pipeline.sweepBatchSize)
  tell (sweepEvents r)

/-- Sweeps once, and tells of a failure. -/
def sweepOr (l : Launch) (failed : Error → Event) : Action State Unit := do
  match ← (sweep l).attempt with
  | .ok () => pure ()
  | .error e => tell [failed e]

/-- Everything up to the point where the service works. -/
def setUp (l : Launch) : Action State Unit := do
  let s := l.settings
  tell [starting s.environment]
  inSpan (connectSpan s.database) connected (connect l)
  if s.database.runMigrations then
    inSpan migrateSpan (migrated Migration.all) (Backend.onScript (Script.migrate Migration.all))
  tell [clientReady (Oracle.baseAddress s.oracle.baseUrl) s.oracle, pipelineStarted s.pipeline]
  tell (workersStarted s.pipeline)
  match s.pipeline.sweepInterval with
  | some interval => do
    sweepOr l firstSweepFailed
    tell [sweeperStarted interval s.pipeline]
  | none => tell [sweeperOff]
  tell [running]

/-- Asks the oracle about all orders in the intake. -/
def drain (l : Launch) : Action State Unit := do
  let oracle := l.settings.oracle
  let orders ← Action.ofFun fun s =>
    let intake := s.backend.intake
    (.ok intake.items, { s with backend.intake := { intake with items := [] } })
  let base := Oracle.baseAddress oracle.baseUrl
  tell (orders.flatMap fun o =>
    let run := (Oracle.ask oracle.retryPolicy none base 0 o.number).run
    askEvents o.number run ++
      match run.result with
      | .ok _ => []
      | .error e => routeFailed 0 o.number e)

/-! ## Waiting for the signal -/

/-- The number of lines that hold a text. -/
def linesWith (text : String) (json : Bool) (es : List Entry) : Nat :=
  (es.filterMap (·.line? json)).countP fun line => Oracle.contains text.toList line.toList

/-- Whether all that is awaited has been seen. -/
def isSeen (l : Launch) (s : State) : Bool :=
  l.awaited.all fun (text, n) => n ≤ linesWith text l.observability.jsonLogs s.watch.kept

/-- Works until all that is awaited has been seen, for at most `rounds` rounds of the sweeper. -/
def work (l : Launch) : (rounds : Nat) → Action State Unit
  | 0 => drain l
  | rounds + 1 => do
    drain l
    let seen ← Action.ofFun fun s => (.ok (isSeen l s), s)
    if seen || l.settings.pipeline.sweepInterval.isNone then pure ()
    else do
      sweepOr l sweepFailed
      work l rounds

/-- A bound for the rounds: beyond it the script is used up, and nothing new is seen. -/
def Launch.rounds (l : Launch) : Nat :=
  l.awaited.foldl (fun n a => n + a.2) (l.script.replies.length + 1)

/-- Everything after the signal. -/
def tearDown (l : Launch) : Action State Unit := do
  let pipeline := l.settings.pipeline
  tell [l.signal.event]
  tell (workersStopped pipeline)
  if pipeline.sweepInterval.isSome then tell [sweeperStopped]
  Action.focus State.backend (fun b s => { s with backend := b }) (Backend.onScript Script.close)
  tell [disconnected, complete]

/-! ## The run -/

/-- All steps of a run whose journal is open. -/
def steps (l : Launch) : Action State Unit := do
  setUp l
  work l l.rounds
  tearDown l

/-- How a run ends in this state; `failure` is empty if it ends well. -/
def State.outcome (s : State) (failure : List String) : Outcome where
  exitCode := if failure.isEmpty then 0 else 1
  entries := s.watch.entries
  sent := s.backend.script.sent
  failure := failure

/-- What is reported when the steps break off. -/
def breakLines : Fault → List String
  | .error e => failureLines e.message e.sources
  | .overflow o => failureLines o.message []

/-- A whole run. -/
def run (l : Launch) : Outcome :=
  let s := l.observability
  let filter := Observability.filterOf (Settings.valueOf? l.environment "RUST_LOG") s
  let (failed, watch) := Observability.start filter true s {}
  let backend : Backend :=
    { script := l.script, intake := .ofCapacity l.settings.pipeline.queueCapacity }
  match failed with
  | some e => State.outcome ⟨watch, backend⟩ (failureLines e.message [])
  | none =>
    let (r, s) := (steps l).perform ⟨watch, backend⟩
    let s := { s with watch := s.watch.letGo }
    match r with
    | .ok () => s.outcome []
    | .error f => s.outcome (breakLines f)

end LoyaltyPoints.Program
