import LoyaltyPoints.Database.Schema
import LoyaltyPoints.Journal.Basic
import LoyaltyPoints.Oracle.Client
import LoyaltyPoints.Pipeline.Queue
import LoyaltyPoints.Pipeline.Route
import LoyaltyPoints.Pipeline.Sweep
import LoyaltyPoints.Settings.Basic

/-! # Program: what its parts tell

    Each event names the part of the program that tells of it. -/

namespace LoyaltyPoints.Program

open Journal

/-- The parts of the program. -/
inductive Part where
  | program
  | database
  | retry
  | client
  | pipeline
  | router
  | settler
  | sweeper

/-- The name of a part in the journal. -/
def Part.target : Part → String
  | .program => "accrual_service"
  | .database => "loyalty_shared::database"
  | .retry => "loyalty_shared::retry"
  | .client => "accrual_service::accrual_client"
  | .pipeline => "accrual_service::pipeline"
  | .router => "accrual_service::pipeline::preprocessing"
  | .settler => "accrual_service::pipeline::processing"
  | .sweeper => "accrual_service::pipeline::sweeper"

/-- An event of a part. -/
def Part.event (p : Part) (level : Level) (message : String) (fields : Fields) : Event :=
  ⟨level, p.target, message, fields⟩

/-- A number of things. -/
def count (n : Nat) : Value := .number n

/-! ## The program itself -/

def starting (environment : String) : Event :=
  Part.program.event .info "Starting accrual-service..." [("environment", .plain environment)]

def running : Event := Part.program.event .info "accrual-service is running" []

def sweeperOff : Event := Part.program.event .info "补偿轮询已关闭" []

def firstSweepFailed (e : Error) : Event :=
  Part.program.event .warn "启动时补偿轮询失败" [("error", .plain e.message)]

def complete : Event := Part.program.event .info "Service shutdown complete" []

/-! ## The database -/

def connectSpan (s : DatabaseSettings) : Span where
  name := "connect"
  target := Part.database.target
  fields := [("max_connections", count s.maxConnections)]

def connected : Event := Part.database.event .info "数据库连接池已就绪" []

def migrateSpan : Span where
  name := "run_migrations"
  target := Part.database.target

def migrated (ms : List Migration) : Event :=
  Part.database.event .info "数据库迁移已应用" [("count", count ms.length)]

def disconnected : Event := Part.database.event .info "数据库连接池已关闭" []

/-! ## The oracle's client -/

def clientReady (base : String) (s : OracleSettings) : Event :=
  Part.client.event .info "accrual oracle 客户端已初始化"
    [("base_url", .plain base), ("retry_count", count s.retryCount)]

/-- The failures of a repeated call that were followed by another attempt, from number `n` on. -/
def retriedFrom {ε : Type} (operation : String) (message : ε → String) :
    (n : Nat) → List (ε × Duration) → List Event
  | _, [] => []
  | n, (e, wait) :: rest =>
    Part.retry.event .debug "调用失败，退避后重试"
      [("operation", .quoted operation), ("retry", count n),
        ("delay_ms", count (wait.secs * 1000 + wait.subsecNanos / 1000000)),
        ("error", .plain (message e))] ::
    retriedFrom operation message (n + 1) rest

/-- What a repeated call tells. -/
def retryEvents {ε α : Type} (operation : String) (message : ε → String) (r : Retry.Run ε α) :
    List Event :=
  let n := r.retried.length
  let named : Fields := [("operation", .quoted operation), ("retry", count n)]
  retriedFrom operation message 0 r.retried ++
    match r.result with
    | .ok _ => if 0 < n then [Part.retry.event .debug "重试后成功" named] else []
    | .error e =>
      [Part.retry.event .warn "调用失败，不再重试" (named ++ [("error", .plain (message e))])]

/-- What asking for an order tells. -/
def askEvents (number : String) (r : Retry.Run SystemError Oracle.Answer) : List Event :=
  retryEvents "accrual.get_order" SystemError.message r ++
    match r.result with
    | .ok a =>
      let accrual := match a.accrual with
        | some d => "Some(" ++ d.toText ++ ")"
        | none => "None"
      [Part.client.event .debug "oracle 查询完成"
        [("number", .plain number), ("status", .plain a.status.label),
          ("accrual", .plain accrual)]]
    | .error _ => []

/-! ## The pipeline -/

/-- The workers of a stage: at least one. -/
def workers (n : Nat) : List Nat := List.range (max n 1)

def pipelineStarted (s : PipelineSettings) : Event :=
  let capacity := (Queue.ofCapacity (α := Unit) s.queueCapacity).capacity
  Part.pipeline.event .info "积分流水线已启动"
    [("preprocessing_workers", count (workers s.routers).length),
      ("processing_workers", count (workers s.settlers).length), ("queue_capacity", count capacity)]

/-- What the workers tell when they begin. -/
def workersStarted (s : PipelineSettings) : List Event :=
  (workers s.routers).map (fun n =>
    Part.router.event .debug "预处理 worker 已启动" [("worker", count n)]) ++
  (workers s.settlers).map fun n =>
    Part.settler.event .debug "处理 worker 已启动" [("worker", count n)]

/-- What the workers tell when they are told to stop. -/
def workersStopped (s : PipelineSettings) : List Event :=
  (workers s.routers).map (fun n =>
    Part.router.event .debug "收到关闭信号，预处理 worker 退出" [("worker", count n)]) ++
  (workers s.settlers).map fun n =>
    Part.settler.event .debug "收到关闭信号，处理 worker 退出" [("worker", count n)]

/-- What a worker tells of an order that the oracle failed on. -/
def routeFailed (worker : Nat) (number : String) (e : SystemError) : List Event :=
  let named : Fields := [("worker", count worker), ("number", .plain number)]
  [Part.router.event .warn "查询 oracle 失败，本轮跳过该订单" (named ++ [("error", .plain e.message)]),
    Part.router.event .debug "订单分流完成" (named ++ [("route", .quoted Route.oracleFailed.label)])]

/-! ## The sweeper -/

def sweeperStarted (interval : Duration) (s : PipelineSettings) : Event :=
  Part.sweeper.event .info "未决订单补偿轮询已启动"
    [("interval_secs", count interval.secs), ("batch_size", .number s.sweepBatchSize)]

def sweeperStopped : Event := Part.sweeper.event .info "收到关闭信号，补偿轮询退出" []

def sweepFailed (e : Error) : Event :=
  Part.sweeper.event .warn "补偿轮询失败" [("error", .plain e.message)]

/-- What a sweep tells. -/
def sweepEvents (r : Sweep.Report) : List Event :=
  let registered : Fields := [("registered", count r.registered)]
  (if r.wrapped then [Part.sweeper.event .debug "补偿扫描到达末尾，从头开始" []] else []) ++
    (if r.full then [Part.sweeper.event .debug "intake 队列已满，本轮补偿提前结束" registered]
      else []) ++
    (if 0 < r.registered then [Part.sweeper.event .info "未决订单已重新登记" registered] else [])

end LoyaltyPoints.Program
