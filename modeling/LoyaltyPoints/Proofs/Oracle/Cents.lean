import Mathlib
import LoyaltyPoints.Ledger.Store
import LoyaltyPoints.Pipeline.Route
import LoyaltyPoints.Proofs.Json.Cents
import LoyaltyPoints.Proofs.Oracle.Acceptance

/-! # Oracle: amounts in cents

    An oracle may write the amount of a processed order as a number with two places. The main
    statement says what becomes of it, from the body to the credit, for every amount that the
    columns of the ledger can hold (`cents_survive_iff`). The amount is read, and the credit carries
    what was read. Up to `70 368 744 177 663.99` points that is the amount that was written. Above,
    it is that amount if the sixty-fourth of a point next to it is written as these cents again, and
    else another amount, which nothing reports (`cent_lost_on_the_wire`). -/

namespace LoyaltyPoints

namespace Oracle

open Json (Piece valuesOf Named)

/-- An object that grants so many cents for an order, as a number with two places. -/
structure GrantsCents (ms : List (List Piece × Json)) (order : String) (k : ℕ) : Prop where
  named : Named ms
  order : ∃ ps, valuesOf "order" ms = [.text ps] ∧ Piece.text? ps = some order
  status : ∃ j, valuesOf "status" ms = [j] ∧ NamesStatus j "PROCESSED"
  accrual : valuesOf "accrual" ms = [.number (.ofCents k)]

/-- An object that grants cents is read as what becomes of them. -/
theorem GrantsCents.isSaidBy {ms : List (List Piece × Json)} {order : String} {k : ℕ}
    (h : GrantsCents ms order k) {d : Decimal} (hd : (Json.Number.ofCents k).toDecimal? = some d) :
    Answer.IsSaidBy ms ⟨order, .processed, some d⟩ := by
  obtain ⟨j, hstatus, hname⟩ := h.status
  refine ⟨h.named, h.order, ⟨j, "PROCESSED", hstatus, hname, ?_⟩, ?_⟩
  · exact Status.isOf_ofText "PROCESSED"
  · show SaysAccrual (valuesOf "accrual" ms) (some d)
    rw [h.accrual]
    exact .number hd

/-- The credit for a processed order carries an amount of at most two places as it is. -/
theorem ofAnswer_of_scale_le {σ : Type} (store : Store σ) (o : Order) (order : String) {d : Decimal}
    (hd : d.scale ≤ 2) : Route.ofAnswer store o (.ok ⟨order, .processed, some d⟩) =
      pure (.accrue ⟨o.user, o.number, d⟩) := by
  have hround : d.roundTo moneyScale = d := dif_pos hd
  show (pure (Route.accrue (Credit.forOrder o d)) : Action σ Route) = _
  rw [Credit.forOrder, hround]

/-- An amount in cents is granted, read and credited. It comes through as it was written if and
    only if it is below the limit or is the one that its sixty-fourths are written as. -/
theorem cents_survive_iff {σ : Type} (store : Store σ) (o : Order) {k : ℕ} (hk : k < 10 ^ 16)
    {s : List Json.Symbol} {ms : List (List Piece × Json)} {order : String}
    (hs : Json.IsDocument (.object ms) s) (hgrants : GrantsCents ms order k) :
    ∃ d, Answer.ofSymbols? s = some ⟨order, .processed, some d⟩ ∧
      Route.ofAnswer store o (.ok ⟨order, .processed, some d⟩) =
        pure (.accrue ⟨o.user, o.number, d⟩) ∧
      d.value = Cents.carried k / 100 ∧
      (d.value = k / 100 ↔ k < Cents.limit ∨ Cents.shown (Cents.sixtyFourths k) = k) := by
  obtain ⟨d, hread, hvalue, hscale⟩ := Json.Number.toDecimal?_ofCents hk
  refine ⟨d, ?_, ofAnswer_of_scale_le store o order hscale, hvalue, ?_⟩
  · rw [Answer.ofSymbols?_of_isDocument hs, Answer.ofJson?_object_iff]
    exact hgrants.isSaidBy hread
  · rw [hvalue, div_left_inj' (by norm_num), Nat.cast_inj]
    unfold Cents.carried
    by_cases hless : k < Cents.limit
    · simp [hless]
    · simp [hless]

/-- The members of an answer that grants cents for order 18. -/
def grantingMembers (k : ℕ) : List (List Piece × Json) :=
  [("order".toList.map .char, .text ("18".toList.map .char)),
   ("status".toList.map .char, .text ("PROCESSED".toList.map .char)),
   ("accrual".toList.map .char, .number (.ofCents k))]

/-- A text of these members, where the amount is written like this. -/
def grantingText (amount : String) : List Json.Symbol :=
  ("\x7b\"order\":\"18\",\"status\":\"PROCESSED\",\"accrual\":" ++ amount ++
    "\x7d").toList.map some

theorem grantsCents_grantingMembers (k : ℕ) : GrantsCents (grantingMembers k) "18" k where
  named := by
    intro m hm
    simp only [grantingMembers, List.mem_cons, List.not_mem_nil, or_false] at hm
    obtain rfl | rfl | rfl := hm
    · exact ⟨"order", by cbv⟩
    · exact ⟨"status", by cbv⟩
    · exact ⟨"accrual", by cbv⟩
  order := ⟨"18".toList.map .char, by cbv, by cbv⟩
  status := ⟨.text ("PROCESSED".toList.map .char), by cbv, .text (by cbv)⟩
  accrual := by cbv

/-- An order of one user. -/
def annsOrder : Order := .submitted default "ann" "18" default

theorem cents_survive_iff_of_small_amount :
    72998 < 10 ^ 16 ∧ Json.IsDocument (.object (grantingMembers 72998)) (grantingText "729.98") ∧
      ∃ d, Answer.ofSymbols? (grantingText "729.98") = some ⟨"18", .processed, some d⟩ ∧
        Route.ofAnswer LedgerState.store annsOrder (.ok ⟨"18", .processed, some d⟩) =
          pure (.accrue ⟨"ann", "18", d⟩) ∧ d.value = (72998 : ℕ) / 100 := by
  have hs : Json.IsDocument (.object (grantingMembers 72998)) (grantingText "729.98") := by
    rw [← Json.ofSymbols?_eq_some_iff]
    cbv
  have hlimit : 72998 < Cents.limit := by decide
  obtain ⟨d, hread, hcredit, -, hvalue⟩ := cents_survive_iff LedgerState.store annsOrder
    (show 72998 < 10 ^ 16 by norm_num) hs (grantsCents_grantingMembers 72998)
  exact ⟨by norm_num, hs, d, hread, hcredit, hvalue.mpr (Or.inl hlimit)⟩

/-- The largest amount that the columns hold is read, and credited, as one cent more. -/
theorem cent_lost_on_the_wire :
    Json.IsDocument (.object (grantingMembers 9999999999999999))
        (grantingText "99999999999999.99") ∧
      GrantsCents (grantingMembers 9999999999999999) "18" 9999999999999999 ∧
      Answer.ofSymbols? (grantingText "99999999999999.99") =
        some ⟨"18", .processed, some ⟨100000000000000, 0, by decide, by decide⟩⟩ ∧
      Route.ofAnswer LedgerState.store annsOrder
          (.ok ⟨"18", .processed, some ⟨100000000000000, 0, by decide, by decide⟩⟩) =
        pure (.accrue ⟨"ann", "18", ⟨100000000000000, 0, by decide, by decide⟩⟩) ∧
      (⟨100000000000000, 0, by decide, by decide⟩ : Decimal).value ≠
        (9999999999999999 : ℕ) / 100 := by
  refine ⟨?_, grantsCents_grantingMembers 9999999999999999, by decide +kernel,
    ofAnswer_of_scale_le _ _ _ (by decide), ?_⟩
  · rw [← Json.ofSymbols?_eq_some_iff]
    cbv
  · norm_num [Decimal.value]

end Oracle

end LoyaltyPoints
