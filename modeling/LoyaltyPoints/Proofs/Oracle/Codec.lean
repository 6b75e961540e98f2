import LoyaltyPoints.Oracle.Codec
import LoyaltyPoints.Proofs.Decimal.Text
import LoyaltyPoints.Proofs.Json.Writing

/-! # Oracle: answers are read as they were written

    An answer is written as a record of texts, with null for an amount that is not there. The main
    statement says that the reader gives the answer back: its order text with all characters, its
    status, and its amount with all its places. Zero has no sign that could be lost. -/

namespace LoyaltyPoints

namespace Oracle

theorem Status.ofText_toText (s : Status) : Status.ofText s.toText = s := by
  cases s <;> rfl

theorem Status.ofJson?_rereadText (s : Status) :
    Status.ofJson? (Json.rereadText s.toText) = some s := by
  rw [Status.ofJson?, Json.caseName?_rereadText, Option.map_some, Status.ofText_toText]

namespace Answer

/-- The field of an amount that may be missing. -/
def accrualField : Option Decimal → Json.Field
  | none => .null "accrual"
  | some d => .ofText "accrual" d.toText

/-- The fields of an answer behind the first one. -/
def moreFields (a : Answer) : List Json.Field :=
  [.ofText "status" a.status.toText, accrualField a.accrual]

theorem toText_eq (a : Answer) : a.toText =
    Json.toText (.object ((.ofText "order" a.order :: a.moreFields).map Json.Field.toMember)) := by
  unfold toText toJson moreFields
  cases a.accrual <;> rfl

theorem name_fields (a : Answer) :
    (Json.Field.ofText "order" a.order :: a.moreFields).map (·.name) = fieldNames := by
  unfold moreFields
  cases a.accrual <;> rfl

/-- The amount is read back, and so is that there is none. -/
theorem accrualOfJson?_read (accrual : Option Decimal) :
    accrualOfJson? (accrualField accrual).read = some accrual := by
  cases accrual with
  | none => rfl
  | some d =>
    show (Json.rereadText d.toText).asDecimal?.map some = _
    rw [Json.asDecimal?_rereadText, Option.map_some]

/-- An answer that is written is read as it was. -/
theorem read_back (a : Answer) : ofText? a.toText = some a := by
  obtain ⟨j, hj, hfields⟩ := Json.fields?_written (.ofText "order" a.order) a.moreFields
    (by rw [name_fields]; decide)
  rw [name_fields] at hfields
  rw [ofText?, toText_eq, hj, Option.bind_some, ofJson?, hfields]
  simp [moreFields, Json.Field.ofText, Status.ofJson?_rereadText, accrualOfJson?_read]

end Answer

end Oracle

end LoyaltyPoints
