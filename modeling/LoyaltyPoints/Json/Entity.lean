import LoyaltyPoints.Balance
import LoyaltyPoints.Json.Printer
import LoyaltyPoints.Json.Record

/-! # JSON: orders, balances and withdrawals

    Each is written as an object of its fields in order: ids and times as texts, amounts as texts
    with their own places. Each is read from an object or an array of exactly its fields. -/

namespace LoyaltyPoints

open Json (ofMembers ofText)

/-- Reads a status by its name. -/
def OrderStatus.ofJson? (j : Json) : Option OrderStatus := j.caseName?.bind OrderStatus.ofText?

/-- Reads an id. -/
def Uuid.ofJson? (j : Json) : Option Uuid := j.asText?.bind Uuid.ofText?

/-- Reads an instant. -/
def Instant.ofJson? (j : Json) : Option Instant := j.asText?.bind Instant.ofText?

namespace Order

/-- The names of the fields, in order. -/
def fieldNames : List String := ["id", "userId", "number", "status", "accrual", "uploadedAt"]

/-- Reads an order. -/
def ofJson? (j : Json) : Option Order := do
  match ← j.fields? fieldNames with
  | [some id, some user, some number, some status, some accrual, some uploadedAt] =>
    some ⟨← Uuid.ofJson? id, ← user.asText?, ← number.asText?, ← OrderStatus.ofJson? status,
      ← accrual.asDecimal?, ← Instant.ofJson? uploadedAt⟩
  | _ => none

/-- Reads an order from a text. -/
def ofText? (s : String) : Option Order := (Json.ofString? s).bind ofJson?

/-- The order as JSON. -/
def toJson (o : Order) : Json :=
  ofMembers [("id", ofText o.id.toText), ("userId", ofText o.user), ("number", ofText o.number),
    ("status", ofText o.status.toText), ("accrual", ofText o.accrual.toText),
    ("uploadedAt", ofText o.uploadedAt.toText)]

/-- The written form. -/
def toText (o : Order) : String := o.toJson.toText

end Order

namespace Balance

/-- The names of the fields, in order. -/
def fieldNames : List String :=
  ["id", "userId", "current", "withdrawn", "createdAt", "updatedAt"]

/-- Reads a balance. -/
def ofJson? (j : Json) : Option Balance := do
  match ← j.fields? fieldNames with
  | [some id, some user, some current, some withdrawn, some createdAt, some updatedAt] =>
    some ⟨← Uuid.ofJson? id, ← user.asText?, ← current.asDecimal?, ← withdrawn.asDecimal?,
      ← Instant.ofJson? createdAt, ← Instant.ofJson? updatedAt⟩
  | _ => none

/-- Reads a balance from a text. -/
def ofText? (s : String) : Option Balance := (Json.ofString? s).bind ofJson?

/-- The balance as JSON. -/
def toJson (b : Balance) : Json :=
  ofMembers [("id", ofText b.id.toText), ("userId", ofText b.user),
    ("current", ofText b.current.toText), ("withdrawn", ofText b.withdrawn.toText),
    ("createdAt", ofText b.createdAt.toText), ("updatedAt", ofText b.updatedAt.toText)]

/-- The written form. -/
def toText (b : Balance) : String := b.toJson.toText

end Balance

namespace Withdrawal

/-- The names of the fields, in order. -/
def fieldNames : List String := ["id", "userId", "orderNumber", "sum", "processedAt"]

/-- Reads a withdrawal. -/
def ofJson? (j : Json) : Option Withdrawal := do
  match ← j.fields? fieldNames with
  | [some id, some user, some number, some sum, some processedAt] =>
    some ⟨← Uuid.ofJson? id, ← user.asText?, ← number.asText?, ← sum.asDecimal?,
      ← Instant.ofJson? processedAt⟩
  | _ => none

/-- Reads a withdrawal from a text. -/
def ofText? (s : String) : Option Withdrawal := (Json.ofString? s).bind ofJson?

/-- The withdrawal as JSON. -/
def toJson (w : Withdrawal) : Json :=
  ofMembers [("id", ofText w.id.toText), ("userId", ofText w.user),
    ("orderNumber", ofText w.number), ("sum", ofText w.sum.toText),
    ("processedAt", ofText w.processedAt.toText)]

/-- The written form. -/
def toText (w : Withdrawal) : String := w.toJson.toText

end Withdrawal

end LoyaltyPoints
