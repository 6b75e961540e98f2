import LoyaltyPoints.Decimal.Text
import LoyaltyPoints.Order

/-! # Errors: causes, codes and messages

    A cause is a constructor; its wording is in one function per type. Business errors answer a
    user's request, the others tell of trouble in the service or around it. Retryable errors may
    pass. -/

namespace LoyaltyPoints

/-- What went wrong with the database. -/
inductive DatabaseError where
  /-- No connection became free in time. -/
  | poolTimedOut
  /-- The pool was closed. -/
  | poolClosed
  /-- The thread that serves a connection is gone. -/
  | workerCrashed
  /-- A statement had to return a row and did not. -/
  | rowNotFound
  /-- The server refused a statement. -/
  | server (code message : String)
  /-- The server closed the connection. -/
  | disconnected
  /-- A value of a row cannot be read; `column` is its name in quotes or its index. -/
  | column (column detail : String)
  /-- The address is no address of a database. -/
  | configuration (detail : String)
deriving DecidableEq, Repr

namespace DatabaseError

/-- What a lost connection is reported with. -/
def endOfStream : String := "expected to read 5 bytes, got 0 bytes at EOF"

/-- The text of the cause. -/
def message : DatabaseError → String
  | .poolTimedOut => "pool timed out while waiting for an open connection"
  | .poolClosed => "attempted to acquire a connection on a closed pool"
  | .workerCrashed => "attempted to communicate with a crashed background worker"
  | .rowNotFound =>
    "no rows returned by a query that expected to return at least one row"
  | .server _ m => "error returned from database: " ++ m
  | .disconnected => "error communicating with database: " ++ endOfStream
  | .column c d => "error occurred while decoding column " ++ c ++ ": " ++ d
  | .configuration d => "error with configuration: " ++ d

/-- The texts of what lies behind the cause, outermost first. -/
def sources : DatabaseError → List String
  | .server _ m => [m]
  | .disconnected => [endOfStream]
  | .column _ d => [d]
  | .configuration d => [d]
  | _ => []

/-- Whether a value was refused because one like it is stored already. -/
def isUniqueViolation : DatabaseError → Bool
  | .server code _ => code == "23505"
  | _ => false

end DatabaseError

/-- What went wrong with the schema's migrations. -/
inductive MigrationError where
  /-- An applied migration is not known here. -/
  | missing (version : Int)
  /-- A migration was interrupted. -/
  | dirty (version : Int)
  /-- An applied migration had another text. -/
  | changed (version : Int)
  /-- The script of a migration failed. -/
  | script (version : Int) (cause : DatabaseError)
  /-- Another statement failed. -/
  | statement (cause : DatabaseError)
deriving DecidableEq, Repr

namespace MigrationError

/-- The text of the cause. -/
def message : MigrationError → String
  | .missing v =>
    "migration " ++ toString v ++
      " was previously applied but is missing in the resolved migrations"
  | .dirty v =>
    "migration " ++ toString v ++
      " is partially applied; fix and remove row from `_sqlx_migrations` table"
  | .changed v =>
    "migration " ++ toString v ++ " was previously applied but has been modified"
  | .script v e => "while executing migration " ++ toString v ++ ": " ++ e.message
  | .statement e => "while executing migrations: " ++ e.message

/-- The texts of what lies behind the cause, outermost first. -/
def sources : MigrationError → List String
  | .script _ e | .statement e => e.message :: e.sources
  | _ => []

end MigrationError

/-- Trouble with what surrounds the ledger. -/
inductive SystemError where
  | database (cause : DatabaseError)
  | migration (cause : MigrationError)
  /-- A record of this kind does not exist. -/
  | notFound (entity id : String)
  | config (detail : String)
  /-- A call to another service failed on the way. -/
  | external (service detail : String)
  /-- Another service answered with this status. -/
  | externalStatus (service : String) (status : Nat)
  /-- Another service did not answer in time. -/
  | externalTimeout (service : String)
  | validation (detail : String)
  | internal (detail : String)
deriving DecidableEq, Repr

namespace SystemError

/-- The code of the cause. -/
def code : SystemError → String
  | .database _ => "DATABASE_ERROR"
  | .migration _ => "MIGRATION_ERROR"
  | .notFound .. => "NOT_FOUND"
  | .config _ => "CONFIG_ERROR"
  | .external .. => "EXTERNAL_SERVICE_ERROR"
  | .externalStatus .. => "EXTERNAL_SERVICE_STATUS"
  | .externalTimeout _ => "EXTERNAL_SERVICE_TIMEOUT"
  | .validation _ => "VALIDATION_ERROR"
  | .internal _ => "INTERNAL_ERROR"

/-- The text of the cause. -/
def message : SystemError → String
  | .database e => "数据库错误: " ++ e.message
  | .migration e => "数据库迁移失败: " ++ e.message
  | .notFound entity id => "记录未找到: " ++ entity ++ " id=" ++ id
  | .config d => "配置错误: " ++ d
  | .external service d => "外部服务错误: " ++ service ++ " - " ++ d
  | .externalStatus service status =>
    "外部服务响应异常: " ++ service ++ " status=" ++ toString status
  | .externalTimeout service => "外部服务超时: " ++ service
  | .validation d => "参数验证失败: " ++ d
  | .internal d => "内部错误: " ++ d

/-- Of the answers of another service only 429 and those from 500 on may pass. -/
def isRetryable : SystemError → Bool
  | .database _ | .external .. | .externalTimeout _ => true
  | .externalStatus _ status => status == 429 || decide (500 ≤ status)
  | _ => false

/-- The texts of what lies behind the cause, outermost first. -/
def sources : SystemError → List String
  | .database e => e.message :: e.sources
  | .migration e => e.message :: e.sources
  | .config d => [d]
  | _ => []

end SystemError

/-- Why a request or a step of the service failed. -/
inductive Error where
  /-- The user has submitted this order before. -/
  | alreadyAccepted (number : String)
  /-- Another user has submitted this order. -/
  | alreadyRegistered (number : String)
  | orderNotFound (number : String)
  | invalidOrderNumber (number : String)
  /-- The store holds an order with this number. -/
  | duplicateOrderNumber (number : String)
  /-- The status cannot be set without a credit. -/
  | invalidTransition (status : OrderStatus)
  | insufficientFunds (requested available : Decimal)
  | invalidAmount (amount : Decimal)
  | pipelineClosed
  | database (cause : DatabaseError)
  | shared (cause : SystemError)
  | internal (detail : String)
deriving DecidableEq

namespace Error

/-- The code of the cause. -/
def code : Error → String
  | .alreadyAccepted _ => "ORDER_ALREADY_ACCEPTED"
  | .alreadyRegistered _ => "ORDER_ALREADY_REGISTERED"
  | .orderNotFound _ => "ORDER_NOT_FOUND"
  | .invalidOrderNumber _ => "INVALID_ORDER_NUMBER"
  | .duplicateOrderNumber _ => "DUPLICATE_ORDER_NUMBER"
  | .invalidTransition _ => "INVALID_STATUS_TRANSITION"
  | .insufficientFunds .. => "INSUFFICIENT_FUNDS"
  | .invalidAmount _ => "INVALID_AMOUNT"
  | .pipelineClosed => "PIPELINE_CLOSED"
  | .database _ => "DATABASE_ERROR"
  | .shared e => e.code
  | .internal _ => "INTERNAL_ERROR"

/-- The text of the cause. -/
def message : Error → String
  | .alreadyAccepted n => "订单已由当前用户提交: " ++ n
  | .alreadyRegistered n => "订单已被其他用户提交: " ++ n
  | .orderNotFound n => "订单不存在: " ++ n
  | .invalidOrderNumber n => "订单号格式错误: " ++ n
  | .duplicateOrderNumber n => "订单号重复: " ++ n
  | .invalidTransition s => "不允许手动设置的订单状态: " ++ s.label
  | .insufficientFunds requested available =>
    "余额不足: 需要 " ++ requested.toText ++ ", 可用 " ++ available.toText
  | .invalidAmount a => "提现金额必须大于 0 且最多两位小数: " ++ a.toText
  | .pipelineClosed => "积分流水线已关闭"
  | .database e => "数据库错误: " ++ e.message
  | .shared e => e.message
  | .internal d => "内部错误: " ++ d

/-- The texts of what lies behind the cause, outermost first. -/
def sources : Error → List String
  | .database e => e.message :: e.sources
  | .shared e => e.sources
  | _ => []

/-- Whether the trouble may pass. -/
def isRetryable : Error → Bool
  | .database _ => true
  | .shared e => e.isRetryable
  | _ => false

/-- Whether the error answers a user's request. -/
def isBusiness : Error → Bool
  | .database _ | .shared _ | .internal _ | .pipelineClosed => false
  | _ => true

end Error

end LoyaltyPoints
