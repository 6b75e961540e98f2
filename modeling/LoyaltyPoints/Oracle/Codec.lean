import LoyaltyPoints.Json.Printer
import LoyaltyPoints.Json.Record
import LoyaltyPoints.Oracle.Answer

/-! # Oracle: its answers as JSON

    An answer is written as an object of its three fields, the amount as a text or null. It is read
    from an object or an array; the amount may be missing, null, a number or a text. -/

namespace LoyaltyPoints.Oracle

/-- Reads a status. -/
def Status.ofJson? (j : Json) : Option Status := j.caseName?.map Status.ofText

/-- Reads an amount that may be null. -/
def accrualOfJson? : Json → Option (Option Decimal)
  | .null => some none
  | j => j.asDecimal?.map some

namespace Answer

/-- The names of the fields, in order. -/
def fieldNames : List String := ["order", "status", "accrual"]

/-- Reads an answer. -/
def ofJson? (j : Json) : Option Answer := do
  match ← j.fields? fieldNames with
  | [some order, some status, accrual] =>
    let order ← order.asText?
    let status ← Status.ofJson? status
    let accrual ← match accrual with
      | none => some none
      | some a => accrualOfJson? a
    some ⟨order, status, accrual⟩
  | _ => none

/-- Reads an answer from the bytes of a text. -/
def ofSymbols? (s : List Json.Symbol) : Option Answer := (Json.ofSymbols? s).bind ofJson?

/-- Reads an answer from a text. -/
def ofText? (s : String) : Option Answer := (Json.ofString? s).bind ofJson?

/-- The answer as JSON. -/
def toJson (a : Answer) : Json :=
  .ofMembers [("order", .ofText a.order), ("status", .ofText a.status.toText),
    ("accrual", .orNull (a.accrual.map fun d => .ofText d.toText))]

/-- The written form. -/
def toText (a : Answer) : String := a.toJson.toText

end Answer

end LoyaltyPoints.Oracle
