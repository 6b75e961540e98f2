import LoyaltyPoints.Journal.Filter
import LoyaltyPoints.Metrics.Exposition
import LoyaltyPoints.Settings.Basic
import LoyaltyPoints.Withdrawing

/-! # Observability: journal and metrics of the service

    The journal is opened first, then the metrics are set up if they are wanted: a recorder, and a
    port where they are read. Each of these can be had only once. Nothing is taken back when a later
    step fails. -/

namespace LoyaltyPoints

open Journal

/-- Why observability could not be set up. -/
inductive ObservabilityError where
  /-- The journal is open already. -/
  | journalTaken
  /-- There is a recorder already. -/
  | recorderTaken
  | portTaken
deriving DecidableEq

/-- The text of the cause. -/
def ObservabilityError.message : ObservabilityError → String
  | .journalTaken => "a global default trace dispatcher has already been set"
  | .recorderTaken =>
    "failed to install exporter as global recorder: attempted to set a recorder after the metrics system was already initialized"
  | .portTaken => "Address already in use (os error 98)"

/-- What of journal and metrics is set up, and what they hold. -/
structure Observability where
  filter : Option Filter := none
  /-- The entries that were kept, the newest first. -/
  kept : List Entry := []
  recorder : Option Recorder := none
  /-- Whether the metrics can be read at their port. -/
  serving : Bool := false

namespace Observability

/-- The part of the program that sets observability up. -/
def target : String := "loyalty_shared::observability"

/-- The filter of the journal: what the variable says if it can be read, or else the settings, or
    else down to `info`. -/
def filterOf (variableText : Option String) (s : ObservabilitySettings) : Filter :=
  ((variableText.bind Filter.ofText?).or (Filter.ofText? s.logLevel)).getD (.ofLevel .info)

/-- The entries that were kept, the oldest first. -/
def entries (o : Observability) : List Entry := o.kept.reverse

/-- Writes an entry, if the journal is open and keeps it. -/
def write (x : Entry) (o : Observability) : Observability :=
  match o.filter.bind fun f => f.sift? x with
  | some x => { o with kept := x :: o.kept }
  | none => o

/-- Writes entries. -/
def writeAll (xs : List Entry) (o : Observability) : Observability :=
  xs.foldl (fun o x => o.write x) o

/-- Writes an event outside of all spans. -/
def tell (level : Level) (target message : String) (fields : Fields) (o : Observability) :
    Observability :=
  o.write (.ofEvent ⟨level, target, message, fields⟩)

/-- Takes a measurement in, if there is a recorder. -/
def record (m : Measurement) (o : Observability) : Observability :=
  { o with recorder := o.recorder.map (Recorder.record m) }

/-! ## Setting up -/

/-- Opens the journal. -/
def openJournal (f : Filter) (o : Observability) : Except ObservabilityError Observability :=
  match o.filter with
  | some _ => .error .journalTaken
  | none => .ok { o with filter := some f }

/-- Sets the metrics up; gives what is set up even if something is missing at the end. -/
def serveMetrics (portFree : Bool) (s : ObservabilitySettings) (o : Observability) :
    Option ObservabilityError × Observability :=
  match o.recorder with
  | some _ => (some .recorderTaken, o)
  | none =>
    let o := { o with recorder := some (Recorder.record (.serviceStart s.serviceName) []) }
    if portFree then
      let line := "Metrics server listening on 0.0.0.0:" ++ toString s.metricsPort
      (none, { o.tell .info (target ++ "::metrics") line [] with serving := true })
    else (some .portTaken, o)

/-- Sets everything up. -/
def start (f : Filter) (portFree : Bool) (s : ObservabilitySettings) (o : Observability) :
    Option ObservabilityError × Observability :=
  match o.openJournal f with
  | .error e => (some e, o)
  | .ok o =>
    let o := o.tell .info target "Observability initialized"
      [("service", .plain s.serviceName), ("metrics_enabled", .flag s.metricsEnabled),
        ("metrics_port", .number s.metricsPort)]
    if s.metricsEnabled then o.serveMetrics portFree s else (none, o)

/-- What is told when a guard of the set-up is let go. -/
def letGo (o : Observability) : Observability :=
  o.tell .info target "Shutting down observability..." []

/-! ## Reading the metrics -/

/-- What the port of the metrics answers to a path, if anything is there. -/
def page? (path : String) (o : Observability) : Option (List String) :=
  if path = "/metrics" then some (Exposition.lines (o.recorder.getD []))
  else if path = "/health" then some ["OK"]
  else none

/-- The first line of an answer. -/
def statusLine {α : Type} : Option α → String
  | some _ => "HTTP/1.1 200 OK"
  | none => "HTTP/1.1 404 Not Found"

/-! ## Withdrawals -/

/-- The part of the program that withdraws. -/
def withdrawalTarget : String := "accrual_service::service::balance_service"

/-- What is told of a withdrawal. -/
def withdrawalEvents (user number : String) (amount : Decimal) (r : WithdrawalOutcome) :
    List Event :=
  let sum : Value := .plain amount.toText
  match r with
  | .success _ =>
    [⟨.info, withdrawalTarget, "提现成功",
      [("user_id", .plain user), ("order_number", .plain number), ("sum", sum)]⟩]
  | .insufficientFunds .. =>
    [⟨.info, withdrawalTarget, "余额不足，提现被拒绝", [("user_id", .plain user), ("sum", sum)]⟩]
  | _ => []

/-- The span of a withdrawal. -/
def withdrawalSpan (user number : String) (amount : Decimal) : Span where
  name := "withdraw"
  target := withdrawalTarget
  fields := [("user_id", .quoted user), ("order_number", .quoted number),
    ("amount", .plain amount.toText)]

/-- Tells of a withdrawal and counts it. -/
def noteWithdrawal (user number : String) (amount : Decimal) (r : WithdrawalOutcome)
    (o : Observability) : Observability :=
  let es := withdrawalEvents user number amount r
  (o.writeAll ((withdrawalSpan user number amount).enclose es)).record (.withdrawal r.label)

end Observability

end LoyaltyPoints
