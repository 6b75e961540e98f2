import LoyaltyPoints.Balance
import LoyaltyPoints.Database.Numeric
import LoyaltyPoints.Error

/-! # Database: rows

    A row gives values to columns; a column without a value is null. Reading a record takes its
    columns in the order of the fields, and the first that cannot be read is reported. -/

namespace LoyaltyPoints.Database

/-- A value of a column. -/
inductive Cell where
  | text (s : String)
  | uuid (u : Uuid)
  | time (t : Instant)
  | numeric (n : Numeric)
deriving DecidableEq

/-- A row: columns and their values. -/
abbrev Row := List (String × Cell)

/-- The answer to a statement: rows, and the number of rows it changed. -/
structure Reply where
  rows : List Row := []
  affected : Nat := 0
deriving DecidableEq

namespace Row

/-- A value that is null where none can be. -/
def unexpectedNull : String := "unexpected null; try decoding as an `Option`"

/-- The report of a column by name. -/
def quoted (column : String) : String := "\"" ++ column ++ "\""

/-- The value of a column, made by `read`. -/
def get {α : Type} (r : Row) (column : String) (read : Cell → Except String α) :
    Except DatabaseError α :=
  match r.find? (·.1 == column) with
  | none => .error (.column (quoted column) unexpectedNull)
  | some (_, c) =>
    match read c with
    | .ok x => .ok x
    | .error detail => .error (.column (quoted column) detail)

/-- What a value of another type is reported with. -/
def mismatched : String := "mismatched types"

/-- A text. -/
def asText : Cell → Except String String
  | .text s => .ok s
  | _ => .error mismatched

/-- An id. -/
def asUuid : Cell → Except String Uuid
  | .uuid u => .ok u
  | _ => .error mismatched

/-- A time. -/
def asTime : Cell → Except String Instant
  | .time t => .ok t
  | _ => .error mismatched

/-- An amount. -/
def asAmount : Cell → Except String Decimal
  | .numeric n => n.toDecimal
  | _ => .error mismatched

/-- A status. -/
def asStatus : Cell → Except String OrderStatus
  | .text s =>
    match OrderStatus.ofText? s with
    | some t => .ok t
    | none => .error ("invalid value " ++ quoted s ++ " for enum OrderStatus")
  | _ => .error mismatched

/-- An order. -/
def toOrder (r : Row) : Except DatabaseError Order := do
  return ⟨← r.get "order_id" asUuid, ← r.get "user_id" asText, ← r.get "number" asText,
    ← r.get "status" asStatus, ← r.get "accrual" asAmount, ← r.get "uploaded_at" asTime⟩

/-- A balance. -/
def toBalance (r : Row) : Except DatabaseError Balance := do
  return ⟨← r.get "balance_id" asUuid, ← r.get "user_id" asText, ← r.get "current" asAmount,
    ← r.get "withdrawn" asAmount, ← r.get "created_at" asTime, ← r.get "updated_at" asTime⟩

/-- A withdrawal. -/
def toWithdrawal (r : Row) : Except DatabaseError Withdrawal := do
  return ⟨← r.get "withdrawal_id" asUuid, ← r.get "user_id" asText,
    ← r.get "order_number" asText, ← r.get "sum" asAmount, ← r.get "processed_at" asTime⟩

/-- The id of the order in the only column of a row, which is reported by its place. -/
def toOrderId (r : Row) : Except DatabaseError Uuid :=
  match r.get "order_id" asUuid with
  | .ok u => .ok u
  | .error (.column _ detail) => .error (.column "0" detail)
  | .error e => .error e

end Row

end LoyaltyPoints.Database
