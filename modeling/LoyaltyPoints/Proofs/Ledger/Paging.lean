import Mathlib
import LoyaltyPoints.Ledger.Store
import LoyaltyPoints.Proofs.Ledger.Listing

/-! # Ledger: pending orders page by page

    A reader asks for the first pending orders, and then again and again for those behind the last
    order it was given, until a page is not a whole one. A reading is defined for any store as the
    calls up to that page (`Store.Reading`), so a reader that never stops has none.

    A position in the list of the pending orders, and not a time alone, is handed on from page to
    page. So each page takes up exactly where the one before has ended (`exists_reading`), also in
    the middle of orders that were submitted at one time. -/

namespace LoyaltyPoints

namespace Store

section reading

variable {σ : Type} (store : Store σ) (limit : ℤ)

/-- The pages that a reader is given by the calls it makes from a state and a cursor on, and the
    state that they leave. -/
inductive Reading : σ → Option Position → List (List Order) → σ → Prop where
  /-- A page that is shorter than the limit is the last one. -/
  | last {s t : σ} {after : Option Position} {page : List Order}
      (hcall : (store.pendingOrders after limit).perform s = (.ok page, t))
      (hshort : (page.length : ℤ) < limit) : Reading s after [page] t
  /-- Behind any other page the reader goes on with the cursor of its last order. -/
  | next {s t u : σ} {after : Option Position} {page : List Order} {o : Order}
      {pages : List (List Order)}
      (hcall : (store.pendingOrders after limit).perform s = (.ok page, t))
      (hwhole : limit ≤ page.length) (hlast : page.getLast? = some o)
      (hrest : Reading t (some o.position) pages u) : Reading s after (page :: pages) u

variable {store limit}

/-- A reader has no choice. -/
theorem Reading.unique {s t t' : σ} {after : Option Position} {pages pages' : List (List Order)}
    (h : store.Reading limit s after pages t) (h' : store.Reading limit s after pages' t') :
    pages' = pages ∧ t' = t := by
  induction h generalizing pages' t' with
  | last hcall hshort =>
    cases h' with
    | last hcall' _ =>
      rw [hcall] at hcall'
      cases hcall'
      exact ⟨rfl, rfl⟩
    | next hcall' hwhole' _ _ =>
      rw [hcall] at hcall'
      cases hcall'
      omega
  | next hcall hwhole hlast _ ih =>
    cases h' with
    | last hcall' hshort' =>
      rw [hcall] at hcall'
      cases hcall'
      omega
    | next hcall' _ hlast' hrest' =>
      rw [hcall] at hcall'
      cases hcall'
      rw [hlast] at hlast'
      cases hlast'
      obtain ⟨rfl, rfl⟩ := ih hrest'
      exact ⟨rfl, rfl⟩

end reading

end Store

namespace Ledger

section reading

variable (supply : ℕ → Stamp) {book : LedgerState} {pending : List Order} {limit : ℤ}

/-- A call returns the beginning of what is behind the cursor. -/
theorem perform_pendingOrders (book : LedgerState) (after : Option Position) (limit : ℤ) :
    ((LedgerState.storeOf supply).pendingOrders after limit).perform book =
      (.ok ((book.ledger.pendingBehind after).take limit.toNat), book) := rfl

/-- From where the cursor is, a reader is given the rest of the list, in as many pages as it fills,
    and one more. -/
theorem exists_reading (h : book.ledger.InOrder pending) (hlimit : 1 ≤ limit) {n : ℕ}
    {after : Option Position} (hafter : book.ledger.pendingBehind after = pending.drop n) :
    ∃ pages, (LedgerState.storeOf supply).Reading limit book after pages book ∧
      pages.flatten = pending.drop n ∧
      pages.length = (pending.length - n) / limit.toNat + 1 := by
  obtain ⟨b, rfl⟩ := Int.eq_ofNat_of_zero_le (show 0 ≤ limit by omega)
  rw [Int.toNat_natCast]
  have hb : 0 < b := by omega
  have hcall := perform_pendingOrders supply book after b
  rw [hafter, Int.toNat_natCast] at hcall
  -- By what is left of the list: each whole page makes it shorter.
  induction hleft : pending.length - n using Nat.strong_induction_on generalizing n after with
  | _ left ih =>
    by_cases hshort : left < b
    · have hall : (pending.drop n).take b = pending.drop n := by
        apply List.take_of_length_le
        rw [List.length_drop]
        omega
      rw [hall] at hcall
      refine ⟨[pending.drop n], .last hcall ?_, List.flatten_singleton, ?_⟩
      · rw [List.length_drop]
        omega
      · rw [Nat.div_eq_of_lt hshort, List.length_singleton]
    · have hi : n + b - 1 < pending.length := by omega
      have hlength : ((pending.drop n).take b).length = b := by
        rw [List.length_take, List.length_drop]
        omega
      have hlast : ((pending.drop n).take b).getLast? = some pending[n + b - 1] := by
        rw [List.getLast?_eq_getElem?, hlength, List.getElem?_take_of_lt (by omega),
          List.getElem?_drop, ← Nat.add_sub_assoc hb, List.getElem?_eq_getElem hi]
      -- Behind the last order of the page comes what the page has left out.
      have hbehind : book.ledger.pendingBehind (some pending[n + b - 1].position) =
          pending.drop (n + b) := by
        rw [h.pendingBehind_position hi, Nat.sub_add_cancel (by omega)]
      have hnext := perform_pendingOrders supply book (some pending[n + b - 1].position) b
      rw [hbehind, Int.toNat_natCast] at hnext
      obtain ⟨pages, hreading, hflatten, hcount⟩ :=
        ih (pending.length - (n + b)) (by omega) hbehind hnext rfl
      refine ⟨(pending.drop n).take b :: pages, .next hcall ?_ hlast hreading, ?_, ?_⟩
      · rw [hlength]
      · rw [List.flatten_cons, hflatten, ← List.drop_drop]
        exact List.take_append_drop b (pending.drop n)
      · have hless : pending.length - (n + b) = left - b := by omega
        rw [List.length_cons, hcount, hless, Nat.div_eq_sub_div hb (not_lt.mp hshort)]

end reading

/-- A reader that goes through the pending orders page by page comes to an end, and has then been
    given all of them by increasing positions, each once, in as many pages as they fill and one
    more. A page with any cursor is the beginning of those strictly behind it. -/
theorem pages_complete (supply : ℕ → Stamp) (book : LedgerState)
    (hids : (book.ledger.orders.map (·.id)).Nodup) {limit : ℤ} (hlimit : 1 ≤ limit) :
    ∃ pending pages, book.ledger.InOrder pending ∧
      (LedgerState.storeOf supply).Reading limit book none pages book ∧
      (∀ pages' t, (LedgerState.storeOf supply).Reading limit book none pages' t →
        pages' = pages ∧ t = book) ∧
      pages.flatten = pending ∧ pages.length = pending.length / limit.toNat + 1 ∧
      ∀ cursor : Option Position, ∃ page,
        ((LedgerState.storeOf supply).pendingOrders cursor limit).perform book =
          (.ok page, book) ∧
        page <+: pending.filter (isBehind cursor) ∧
        page.length = min limit.toNat (pending.filter (isBehind cursor)).length := by
  have hpending := inOrder_pendingBehind hids
  have hstart : book.ledger.pendingBehind none = (book.ledger.pendingBehind none).drop 0 := rfl
  obtain ⟨pages, hreading, hflatten, hcount⟩ := exists_reading supply hpending hlimit hstart
  refine ⟨_, pages, hpending, hreading, fun _ _ h => hreading.unique h, hflatten, hcount, ?_⟩
  intro cursor
  refine ⟨_, perform_pendingOrders supply book cursor limit, ?_, ?_⟩
  · rw [hpending.pendingBehind_eq cursor]
    exact List.take_prefix _ _
  · rw [hpending.pendingBehind_eq cursor, List.length_take]

/-- An order of ann's that was submitted at one of two times. -/
def atTime (id time : ℕ) : Order :=
  .submitted (.ofNat id) "ann" (String.ofList (Nat.toDigits 10 id)) (.ofMicros time)

/-- Two orders of each time are pending, and a fifth one is not. -/
def twoTimes : Ledger where
  orders := [atTime 5 2, atTime 4 1, { atTime 3 1 with status := .invalid }, atTime 2 1,
    atTime 1 2]

/-- Each page but the last ends among orders of one time, or between the two times. The order at the
    cursor is not stored. -/
theorem pages_complete_of_ties :
    (twoTimes.orders.map (·.id)).Nodup ∧ (1 : ℤ) ≤ 1 ∧
      ∃ pages, (LedgerState.storeOf .number).Reading 1 ⟨twoTimes, 5⟩ none pages ⟨twoTimes, 5⟩ ∧
        pages.flatten = [atTime 2 1, atTime 4 1, atTime 1 2, atTime 5 2] ∧ pages.length = 5 ∧
        ((LedgerState.storeOf .number).pendingOrders (some (atTime 3 2).position) 1).perform
          ⟨twoTimes, 5⟩ = (.ok [atTime 5 2], ⟨twoTimes, 5⟩) := by
  have hids : (twoTimes.orders.map (·.id)).Nodup := by decide +kernel
  have hlimit : (1 : ℤ) ≤ 1 := le_rfl
  have hinOrder : twoTimes.InOrder [atTime 2 1, atTime 4 1, atTime 1 2, atTime 5 2] :=
    ⟨by decide +kernel, by decide +kernel⟩
  obtain ⟨pending, pages, hpending, hreading, -, hflatten, hcount, hpage⟩ :=
    pages_complete .number ⟨twoTimes, 5⟩ hids hlimit
  obtain rfl : pending = [atTime 2 1, atTime 4 1, atTime 1 2, atTime 5 2] :=
    hpending.pendingBehind_none.symm.trans hinOrder.pendingBehind_none
  refine ⟨hids, hlimit, pages, hreading, hflatten, hcount, ?_⟩
  obtain ⟨page, hcall, hstart, hlength⟩ := hpage (some (atTime 3 2).position)
  have hbehind : [atTime 2 1, atTime 4 1, atTime 1 2, atTime 5 2].filter
      (isBehind (some (atTime 3 2).position)) = [atTime 5 2] := by decide +kernel
  rw [hbehind] at hstart hlength
  rw [hcall, hstart.eq_of_length hlength]

end Ledger

end LoyaltyPoints
