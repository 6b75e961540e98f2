import LoyaltyPoints.Proofs.Decimal.Rounding
import LoyaltyPoints.Proofs.Ledger.Atomicity
import LoyaltyPoints.Proofs.Ledger.Isolation
import LoyaltyPoints.Proofs.OrderNumber.Checksum

/-! # Ledger: how a withdrawal is decided

    A withdrawal passes three gates, one behind the other: its number has to be an order number,
    its amount some positive number of whole cents, and the user has to have that much. The first
    gate that is closed gives the answer, and nothing is written but a balance of zero that may be
    opened. Behind the last gate the points are moved, unless the sum of those withdrawn overflows.

    The points that are left cannot overflow: they lie between zero and what the user had. So the
    only room that a withdrawal needs is in the sum, and with it the four answers are all there
    are. -/

namespace LoyaltyPoints

namespace Ledger

open OrderNumber (IsGood)

/-- All that a withdrawal is to do: the points are moved within the balance that the user has, of
    which nothing else changes but the time, and what is left is not negative. -/
structure WithdrawalDone (s : Stamp) (user number : String) (amount : Decimal) (w : Withdrawal)
    (l l' : Ledger) : Prop extends DebitDone user number amount w l l' where
  row_eq : ∃ b, l.balance? user = some b ∧ l'.balance? user = some
    { b with current := l'.current user, withdrawn := l'.withdrawn user, updatedAt := s.now }
  current_nonneg : 0 ≤ (l'.current user).value

section gates

variable (s : Stamp) (l : Ledger) {user : String} (number : String) {amount : Decimal}

/-- Whoever has points has a balance. -/
theorem exists_balance?_of_pos (h : 0 < (l.current user).value) :
    ∃ b, l.balance? user = some b := by
  cases hb : l.balance? user with
  | some b => exact ⟨b, rfl⟩
  | none =>
    have hzero : l.current user = .zero := by
      rw [current, hb]
      rfl
    rw [hzero, Decimal.value_zero] at h
    exact absurd h (lt_irrefl 0)

/-- A debit that is covered and fits is done. -/
theorem debit_covered (hpos : 0 < amount.value) (hle : amount.value ≤ (l.current user).value)
    (hfits : ∃ sum, (l.withdrawn user).add amount = .ok sum) :
    ∃ w, (l.debit s user number amount).1 = .ok w ∧
      WithdrawalDone s user number amount w l (l.debit s user number amount).2 := by
  obtain ⟨sum, hadd⟩ := hfits
  obtain ⟨rest, hsub⟩ := Decimal.sub_of_nonneg hpos.le hle
  obtain ⟨b, hb⟩ := l.exists_balance?_of_pos (hpos.trans_le hle)
  have hge := (Decimal.lt_eq_false_iff _ _).mpr hle
  have hdebit : l.debit s user number amount =
      (.ok ⟨s.recordId, user, number, amount, s.now⟩, l.paid s user number amount rest sum) :=
    ((debit_of_covered s number hge).2 rest hsub).2 sum hadd
  have hcurrent : (l.paid s user number amount rest sum).current user = rest := by
    rw [current_paid, if_pos rfl]
  have hwithdrawn : (l.paid s user number amount rest sum).withdrawn user = sum := by
    rw [withdrawn_paid, if_pos rfl]
  rw [hdebit]
  refine ⟨_, rfl, debitDone_paid s l hsub hadd, ⟨b, hb, ?_⟩, ?_⟩
  · rw [hcurrent, hwithdrawn, balance?_paid_self s user number amount rest sum l hb]
  · rw [hcurrent]
    exact Decimal.value_nonneg_of_sub hsub hle

/-- The four ways a withdrawal can go, each with what leads to it. -/
theorem withdraw_on_cases (hfits : ∃ sum, (l.withdrawn user).add amount = .ok sum) :
    (¬ IsGood number ∧ (Operation.withdraw user number amount).on s l =
      (.error (.error (.invalidOrderNumber number)), l)) ∨
    (IsGood number ∧ ¬ (0 < amount.value ∧ IsCents amount.value) ∧
      (Operation.withdraw user number amount).on s l =
        (.error (.error (.invalidAmount amount)), l)) ∨
    (IsGood number ∧ (0 < amount.value ∧ IsCents amount.value) ∧
      (l.current user).value < amount.value ∧
      (Operation.withdraw user number amount).on s l =
        (.error (.error (.insufficientFunds amount (l.current user))),
          (l.openBalance s user).2)) ∨
    (IsGood number ∧ (0 < amount.value ∧ IsCents amount.value) ∧
      amount.value ≤ (l.current user).value ∧
      ∃ w l', (Operation.withdraw user number amount).on s l = (.ok (.withdrawal w), l') ∧
        WithdrawalDone s user number amount w l l') := by
  rw [← OrderNumber.isValid_iff, ← isWithdrawable_iff, Operation.withdraw_on]
  by_cases hnumber : OrderNumber.isValid number = true
  · by_cases hamount : isWithdrawable amount = true
    · have hpos := (isWithdrawable_iff.mp hamount).1
      rw [if_pos hnumber, if_pos hamount]
      show _ ∨ _ ∨ (_ ∧ _ ∧ _ ∧ ((l.debit s user number amount).1.map Reply.withdrawal,
        (l.debit s user number amount).2) = _) ∨ _
      rcases lt_or_ge (l.current user).value amount.value with hlt | hle
      · rw [debit_of_lt s number ((Decimal.lt_iff _ _).mpr hlt)]
        exact .inr (.inr (.inl ⟨hnumber, hamount, hlt, rfl⟩))
      · obtain ⟨w, hw, hdone⟩ := l.debit_covered s number hpos hle hfits
        refine .inr (.inr (.inr ⟨hnumber, hamount, hle, w, _, ?_, hdone⟩))
        show ((l.debit s user number amount).1.map Reply.withdrawal,
          (l.debit s user number amount).2) = _
        rw [hw]
        rfl
    · rw [if_pos hnumber, if_neg hamount]
      exact .inr (.inl ⟨hnumber, hamount, rfl⟩)
  · rw [if_neg hnumber]
    exact .inl ⟨hnumber, rfl⟩

end gates

/-- A withdrawal whose sum has room is refused exactly for its number, else exactly for its amount,
    else exactly for want of points, and is done in all other cases. What is refused leaves no
    trace but a balance of zero. A good number is one of digits with a Luhn sum that ten divides:
    that the sum is taken in 32 bits makes no difference to texts of up to 477218588 digits. -/
theorem withdrawal_decided (s : Stamp) (l : Ledger) (user number : String) (amount : Decimal)
    (hfits : ∃ sum, (l.withdrawn user).add amount = .ok sum) :
    let r := (Operation.withdraw user number amount).on s l
    (number.length ≤ OrderNumber.maxDigits → (IsGood number ↔
      number ≠ "" ∧ (∀ c ∈ number.toList, c.isDigit = true) ∧ 10 ∣ OrderNumber.total number)) ∧
    (r.1 = .error (.error (.invalidOrderNumber number)) ↔ ¬ IsGood number) ∧
    (r.1 = .error (.error (.invalidAmount amount)) ↔
      IsGood number ∧ (amount.value ≤ 0 ∨ ¬ IsCents amount.value)) ∧
    (r.1 = .error (.error (.insufficientFunds amount (l.current user))) ↔
      IsGood number ∧ (0 < amount.value ∧ IsCents amount.value) ∧
        (l.current user).value < amount.value) ∧
    ((∃ w, r.1 = .ok (.withdrawal w)) ↔
      IsGood number ∧ (0 < amount.value ∧ IsCents amount.value) ∧
        amount.value ≤ (l.current user).value) ∧
    (∀ e, r.1 = .error e → Untouched user l r.2) ∧
    ∀ w, r.1 = .ok (.withdrawal w) → WithdrawalDone s user number amount w l r.2 := by
  intro r
  have hamount : amount.value ≤ 0 ∨ ¬ IsCents amount.value ↔
      ¬ (0 < amount.value ∧ IsCents amount.value) := by
    rw [not_and_or, not_lt]
  rw [hamount]
  refine ⟨OrderNumber.isGood_iff_of_length_le, ?_⟩
  rcases withdraw_on_cases s l number hfits with
    ⟨hnumber, h⟩ | ⟨hnumber, hbad, h⟩ | ⟨hnumber, hgood, hlt, h⟩ |
    ⟨hnumber, hgood, hle, w, l', h, hdone⟩
  · simp [r, h, hnumber, Untouched.refl]
  · simp [r, h, hnumber, hbad, Untouched.refl]
  · simp [r, h, hnumber, hgood, hlt, untouched_openBalance]
  · simp [r, h, hnumber, hgood, hle, hdone]

/-- Zeros behind the second place do not matter, and one wrong digit in the number does. -/
theorem withdrawal_decided_of_trailing_zeros :
    let amount : Decimal := ⟨10 ^ 28, 27, by decide, by decide⟩
    let l := (run .number [.submit "ann" "79927398713",
      .accrue ⟨"ann", "79927398713", ⟨50001, 2, by decide, by decide⟩⟩]).state.ledger
    (∃ sum, (l.withdrawn "ann").add amount = .ok sum) ∧
      (∃ w, ((Operation.withdraw "ann" "4561261212345467" amount).on (.number 9) l).1 =
        .ok (.withdrawal w)) ∧
      ((Operation.withdraw "ann" "4561261212345468" amount).on (.number 9) l).1 =
        .error (.error (.invalidOrderNumber "4561261212345468")) := by
  intro amount l
  have hfits : ∃ sum, (l.withdrawn "ann").add amount = .ok sum := ⟨_, rfl⟩
  have hvalue : amount.value = 10 := by norm_num [amount, Decimal.value]
  have hcurrent : (l.current "ann").coefficient = 50001 ∧ (l.current "ann").scale = 2 := ⟨rfl, rfl⟩
  have hle : amount.value ≤ (l.current "ann").value := by
    rw [hvalue, Decimal.value, hcurrent.1, hcurrent.2]
    norm_num
  have hcents : 0 < amount.value ∧ IsCents amount.value := by
    rw [hvalue]
    exact ⟨by norm_num, 1000, by norm_num⟩
  have hgood : IsGood "4561261212345467" := (OrderNumber.isValid_iff _).mp (by decide +kernel)
  have hbad : ¬ IsGood "4561261212345468" := fun h =>
    absurd ((OrderNumber.isValid_iff _).mpr h) (by decide +kernel)
  refine ⟨hfits, ?_, ?_⟩
  · exact (withdrawal_decided _ l "ann" "4561261212345467" amount hfits).2.2.2.2.1.mpr
      ⟨hgood, hcents, hle⟩
  · exact (withdrawal_decided _ l "ann" "4561261212345468" amount hfits).2.1.mpr hbad

end Ledger

end LoyaltyPoints
