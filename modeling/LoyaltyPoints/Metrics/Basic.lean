import LoyaltyPoints.Binary64

/-! # Metrics: what is counted

    A series is a metric under one value of its label. A counter counts, a gauge keeps the last
    value, and a summary keeps every sample. -/

namespace LoyaltyPoints

/-- What a part of the service reports. -/
inductive Measurement where
  | serviceStart (service : String)
  | oracleCall (outcome : String) (seconds : Binary64)
  | orderRouted (route : String)
  | accrual (status : String) (seconds : Binary64)
  | withdrawal (status : String)
  | queueDepth (queue : String) (depth : Nat)

/-- How the values of a metric are kept. -/
inductive MetricKind where
  | counter
  | gauge
  | summary
deriving DecidableEq

/-- A metric: its name, its kind, and what it is for. -/
structure Metric where
  name : String
  kind : MetricKind
  help : Option String
deriving DecidableEq

namespace Metric

def serviceStarts : Metric := ⟨"service_starts_total", .counter, none⟩

def oracleCalls : Metric :=
  ⟨"accrual_oracle_calls_total", .counter, some "Total number of accrual oracle lookups"⟩

def oracleSeconds : Metric :=
  ⟨"accrual_oracle_call_duration_seconds", .summary,
    some "Accrual oracle lookup duration in seconds"⟩

def ordersRouted : Metric :=
  ⟨"accrual_pipeline_orders_total", .counter, some "Orders routed by the preprocessing stage"⟩

def accruals : Metric :=
  ⟨"accruals_total", .counter, some "Total number of accrual credit attempts"⟩

def accrualSeconds : Metric :=
  ⟨"accrual_duration_seconds", .summary, some "Accrual credit transaction duration in seconds"⟩

def withdrawals : Metric :=
  ⟨"withdrawals_total", .counter, some "Total number of withdrawal attempts"⟩

def queueDepth : Metric :=
  ⟨"accrual_pipeline_queue_depth", .gauge, some "Items waiting in a pipeline queue"⟩

/-- All metrics. -/
def all : List Metric :=
  [serviceStarts, oracleCalls, oracleSeconds, ordersRouted, accruals, accrualSeconds, withdrawals,
    queueDepth]

end Metric

/-- The values of a series, the newest last. -/
structure Series where
  metric : Metric
  /-- Name and value of the label, if the metric has one. -/
  label : Option (String × String)
  values : List Binary64

/-- The series that have values. -/
abbrev Recorder := List Series

namespace Recorder

/-- Adds a value to a series. -/
def add (metric : Metric) (label : Option (String × String)) (value : Binary64) :
    Recorder → Recorder
  | [] => [⟨metric, label, [value]⟩]
  | s :: ss =>
    if s.metric = metric ∧ s.label = label then { s with values := s.values ++ [value] } :: ss
    else s :: add metric label value ss

/-- Counts one more. -/
def count (metric : Metric) (name value : String) (r : Recorder) : Recorder :=
  r.add metric (some (name, value)) (.ofNat 1)

/-- Takes a measurement in. -/
def record (m : Measurement) (r : Recorder) : Recorder :=
  match m with
  | .serviceStart service => r.count .serviceStarts "service" service
  | .oracleCall outcome seconds =>
    (r.count .oracleCalls "outcome" outcome).add .oracleSeconds (some ("outcome", outcome)) seconds
  | .orderRouted route => r.count .ordersRouted "route" route
  | .accrual status seconds =>
    (r.count .accruals "status" status).add .accrualSeconds none seconds
  | .withdrawal status => r.count .withdrawals "status" status
  | .queueDepth queue depth => r.add .queueDepth (some ("queue", queue)) (.ofNat depth)

end Recorder

end LoyaltyPoints
