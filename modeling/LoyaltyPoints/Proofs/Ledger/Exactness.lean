import LoyaltyPoints.Proofs.Ledger.Atomicity
import LoyaltyPoints.Proofs.Ledger.Conservation
import LoyaltyPoints.Proofs.Ledger.Isolation

/-! # Ledger: when points are moved exactly

    A sum that does not fit 96 bits with all of its places is rounded, and nobody is told. A user
    who has very many points gets a credit and does not have more of them, or pays and does not
    have less. The main statement says when this cannot be seen: the points of a user move by
    exactly what is credited or withdrawn, if and only if a coefficient of 96 bits holds the exact
    result with two places, or with fewer of them where the last ones are zeros.

    That all amounts are of whole cents does not depend on their size. It is the invariant of this
    module: rounding leaves whole cents, too. -/

namespace LoyaltyPoints

namespace Ledger

open Decimal (HeldInCents)

/-! ## Whole cents, at any size -/

/-- All points in a ledger are whole cents. -/
structure InCents (l : Ledger) : Prop where
  current : ∀ user, IsCents (l.current user).value
  withdrawn : ∀ user, IsCents (l.withdrawn user).value

theorem inCents_empty : InCents {} := by
  have hzero : IsCents Decimal.zero.value := by
    rw [Decimal.value_zero]
    exact IsCents.zero
  exact ⟨fun _ => hzero, fun _ => hzero⟩

/-- A ledger with the same points. -/
theorem InCents.frame {l l' : Ledger} (h : l.InCents)
    (hcurrent : ∀ user, l'.current user = l.current user)
    (hwithdrawn : ∀ user, l'.withdrawn user = l.withdrawn user) : l'.InCents where
  current user := hcurrent user ▸ h.current user
  withdrawn user := hwithdrawn user ▸ h.withdrawn user

/-- Calls that are served keep whole cents, and those that overflow do so as well. -/
theorem Effect.inCents {l l' : Ledger} {op : Operation} {answer : Except Fault Reply}
    (heffect : Effect l op answer l') (h : l.InCents) (hserved : op.IsServed) : l'.InCents := by
  cases heffect with
  | quiet => exact h
  | opened s user => exact h.frame (by simp) (by simp)
  | stored => exact h.frame (fun _ => rfl) fun _ => rfl
  | marked => exact h.frame (fun _ => rfl) fun _ => rfl
  | credited s c o sum ho hs hadd =>
    obtain ⟨order, amount, rfl⟩ := hserved
    have hsum := Decimal.isCents_of_add hadd (h.current _) (Credit.isCents_forOrder order amount)
    refine ⟨?_, ?_⟩
    · intro user
      rw [current_credited]
      split
      · exact hsum
      · exact h.current user
    · intro user
      rw [withdrawn_credited]
      exact h.withdrawn user
  | creditLost s c o e ho hs hadd => exact h.frame (by simp) (by simp)
  | paid s user number amount rest sum hop hle hsub hadd =>
    have hcents := (cents_of_debits hserved hop).1
    refine ⟨?_, ?_⟩
    · intro v
      rw [current_paid]
      split
      · exact Decimal.isCents_of_sub hsub (h.current user) hcents
      · exact h.current v
    · intro v
      rw [withdrawn_paid]
      split
      · exact Decimal.isCents_of_add hadd (h.withdrawn user) hcents
      · exact h.withdrawn v
  | restLost s user number amount e hop hle hsub => exact h.frame (by simp) (by simp)
  | sumLost s user number amount rest e hop hle hsub hadd =>
    have hcents := (cents_of_debits hserved hop).1
    refine ⟨?_, ?_⟩
    · intro v
      rw [current_withBalance (openBalance_user s user l)]
      split
      · exact Decimal.isCents_of_sub hsub (h.current user) hcents
      · exact h.current v
    · intro v
      rw [withdrawn_withBalance (openBalance_user s user l)]
      split
      · rw [openBalance_withdrawn]
        exact h.withdrawn user
      · exact h.withdrawn v

/-- All points are whole cents behind every run that is served, whatever was rounded in it. -/
theorem run_inCents (supply : ℕ → Stamp) (ops : List Operation) :
    (∀ e ∈ (run supply ops).events, e.operation.IsServed) →
      (run supply ops).state.ledger.InCents := by
  refine run_induction (P := fun events l => (∀ e ∈ events, e.operation.IsServed) → l.InCents)
    supply (fun _ => inCents_empty) ?_ ops
  intro events l op answer l' ih heffect hserved
  refine heffect.inCents (ih ?_) (hserved _ (List.mem_append_right _ List.mem_cons_self))
  intro e he
  exact hserved e (List.mem_append_left _ he)

/-! ## Credits and withdrawals -/

section moves

variable {s : Stamp} {l : Ledger}

/-- An accepted credit is recorded with its order, and raises the points by what is recorded if and
    only if the sum is held. -/
theorem InCents.credit_exact_iff (h : l.InCents) {c : Credit} (hcents : IsCents c.amount.value)
    (htrue : (l.accrue s c).1 = .ok true) :
    ∃ o, (l.accrue s c).2.orderByNumber c.number = some o ∧ o.status = .processed ∧
      (((l.accrue s c).2.current c.user).value = (l.current c.user).value + o.accrual.value ↔
        HeldInCents ((l.current c.user).value + o.accrual.value)) := by
  rcases l.accrue_cases s c with ⟨-, heq⟩ | ⟨o, ho, hs, ⟨sum, hadd, heq⟩ | ⟨e, -, heq⟩⟩
  · rw [heq] at htrue
    cases htrue
  · rw [heq]
    refine ⟨settledBy c o, ?_, rfl, ?_⟩
    · rw [orderByNumber_credited, if_pos rfl, ho, Option.map_some]
    · show ((l.credited s c sum).current c.user).value =
        (l.current c.user).value + c.amount.value ↔ _
      rw [current_credited, if_pos rfl, Decimal.value_add_eq_iff hadd]
      exact Decimal.isRepresented_iff_of_isCents ((h.current c.user).add hcents)
  · rw [heq] at htrue
    cases htrue

/-- A withdrawal lowers the points, and raises those withdrawn, by exactly its sum if and only if
    what is left and what was withdrawn are held. -/
theorem InCents.withdrawal_exact_iff (h : l.InCents) {user number : String} {amount : Decimal}
    {w : Withdrawal}
    (hok : ((Operation.withdraw user number amount).on s l).1 = .ok (.withdrawal w)) :
    let l' := ((Operation.withdraw user number amount).on s l).2
    ((l'.current user).value = (l.current user).value - w.sum.value ↔
      HeldInCents ((l.current user).value - w.sum.value)) ∧
    ((l'.withdrawn user).value = (l.withdrawn user).value + w.sum.value ↔
      HeldInCents ((l.withdrawn user).value + w.sum.value)) := by
  intro l'
  rw [Operation.withdraw_on] at hok
  have hl' : l' = _ := congrArg Prod.snd (Operation.withdraw_on s l user number amount)
  split_ifs at hok hl' with hnumber hamount
  have hcents := (isWithdrawable_iff.mp hamount).2
  change ((l.debit s user number amount).1.map Reply.withdrawal) = _ at hok
  change l' = (l.debit s user number amount).2 at hl'
  rcases l.debit_cases s user number amount with
    ⟨-, heq⟩ | ⟨-, ⟨e, -, heq⟩ | ⟨rest, hsub, ⟨e, -, heq⟩ | ⟨sum, hadd, heq⟩⟩⟩
  · rw [heq] at hok
    cases hok
  · rw [heq] at hok
    cases hok
  · rw [heq] at hok
    cases hok
  · rw [heq] at hok hl'
    obtain rfl : (⟨s.recordId, user, number, amount, s.now⟩ : Withdrawal) = w := by
      simpa [Except.map] using hok
    have hleft := Decimal.isRepresented_iff_of_isCents ((h.current user).sub hcents)
    have htaken := Decimal.isRepresented_iff_of_isCents ((h.withdrawn user).add hcents)
    rw [hl', current_paid, withdrawn_paid, if_pos rfl, if_pos rfl]
    exact ⟨(Decimal.value_sub_eq_iff hsub).trans hleft,
      (Decimal.value_add_eq_iff hadd).trans htaken⟩

end moves

/-- In every state that submissions, credits of any size and withdrawals lead to: an accepted credit
    raises the points by what its order records, and a withdrawal lowers them and raises those
    withdrawn by its sum, exactly if and only if 96 bits hold the result. -/
theorem moves_exact_iff (supply : ℕ → Stamp) (ops : List Operation)
    (hserved : ∀ op ∈ ops, op.IsServed) (s : Stamp) :
    let l := (run supply ops).state.ledger
    (∀ order amount, let c := Credit.forOrder order amount
      (l.accrue s c).1 = .ok true →
      ∃ o, (l.accrue s c).2.orderByNumber c.number = some o ∧ o.status = .processed ∧
        (((l.accrue s c).2.current c.user).value = (l.current c.user).value + o.accrual.value ↔
          HeldInCents ((l.current c.user).value + o.accrual.value))) ∧
    ∀ user number amount w, let r := (Operation.withdraw user number amount).on s l
      r.1 = .ok (.withdrawal w) →
      ((r.2.current user).value = (l.current user).value - w.sum.value ↔
        HeldInCents ((l.current user).value - w.sum.value)) ∧
      ((r.2.withdrawn user).value = (l.withdrawn user).value + w.sum.value ↔
        HeldInCents ((l.withdrawn user).value + w.sum.value)) := by
  intro l
  have hcents : l.InCents := by
    refine run_inCents supply ops ?_
    intro e he
    refine hserved _ ?_
    rw [← Run.operations_ofCalls (LedgerState.storeOf supply) {} ops]
    exact List.mem_map_of_mem he
  refine ⟨?_, ?_⟩
  · intro order amount c htrue
    exact hcents.credit_exact_iff (Credit.isCents_forOrder order amount) htrue
  · intro user number amount w r hok
    exact hcents.withdrawal_exact_iff hok

/-- One cent. -/
def oneCent : Decimal := (Decimal.ofMagnitude? false 1 2).getD .zero

theorem value_oneCent : oneCent.value = 1 / 100 := by
  have hparts : oneCent.coefficient = 1 ∧ oneCent.scale = 2 := ⟨rfl, rfl⟩
  rw [Decimal.value, hparts.1, hparts.2]
  norm_num

/-- Where the points are few, a cent is credited exactly. -/
theorem moves_exact_iff_of_few_points :
    let order := Order.submitted (Uuid.ofNat 1) "ann" "4561261212345467" (.ofMicros 1)
    let first := Order.submitted (Uuid.ofNat 2) "ann" "79927398713" (.ofMicros 1)
    let ops : List Operation := [.submit "ann" "79927398713",
      .accrue (Credit.forOrder first ⟨500, 0, by decide, by decide⟩),
      .submit "ann" "4561261212345467"]
    let l := (run .number ops).state.ledger
    let r := l.accrue (.number 9) (Credit.forOrder order oneCent)
    (∀ op ∈ ops, op.IsServed) ∧ r.1 = .ok true ∧
      (r.2.current "ann").value = (l.current "ann").value + oneCent.value := by
  intro order first ops l r
  have hserved : ∀ op ∈ ops, op.IsServed := by
    intro op hop
    simp only [ops, List.mem_cons, List.not_mem_nil, or_false] at hop
    obtain rfl | rfl | rfl := hop
    · trivial
    · exact ⟨_, _, rfl⟩
    · trivial
  have htrue : r.1 = .ok true := by decide +kernel
  obtain ⟨o, ho, -, hexact⟩ :=
    (moves_exact_iff .number ops hserved (.number 9)).1 order oneCent htrue
  have haccrual : o.accrual = oneCent := by
    have hfound : (r.2.orderByNumber "4561261212345467").map Order.accrual = some oneCent := by
      decide +kernel
    change r.2.orderByNumber "4561261212345467" = some o at ho
    rw [ho] at hfound
    exact Option.some.inj hfound
  have hcurrent : (l.current "ann").coefficient = 500 ∧ (l.current "ann").scale = 0 := ⟨rfl, rfl⟩
  have hheld : HeldInCents ((l.current "ann").value + o.accrual.value) := by
    refine ⟨2, le_rfl, 50001, by decide, ?_⟩
    rw [haccrual, value_oneCent, Decimal.value, hcurrent.1, hcurrent.2]
    norm_num
  refine ⟨hserved, htrue, ?_⟩
  rw [← haccrual]
  exact hexact.mpr hheld

/-- A cent is credited to all points that there can be, and withdrawn from them, and they are the
    same as before. -/
theorem cent_lost_in_all_points :
    let l := (run .number (callsEarning ++ [.submit "ann" "4561261212345467"])).state.ledger
    let c : Credit := ⟨"ann", "4561261212345467", oneCent⟩
    let r := (Operation.withdraw "ann" "79927398713" oneCent).on (.number 9) l
    ((l.accrue (.number 9) c).1 = .ok true ∧
      ((l.accrue (.number 9) c).2.current "ann").value ≠
        (l.current "ann").value + oneCent.value) ∧
    ∃ w, r.1 = .ok (.withdrawal w) ∧ w.sum = oneCent ∧
      (r.2.current "ann").value ≠ (l.current "ann").value - w.sum.value ∧
      (r.2.withdrawn "ann").value = (l.withdrawn "ann").value + w.sum.value := by
  intro l c r
  have hcurrent : l.current "ann" = allPoints := rfl
  have hwithdrawn : l.withdrawn "ann" = .zero := rfl
  have hcredited : (l.accrue (.number 9) c).2.current "ann" = allPoints := by
    decide +kernel
  have hleft : r.2.current "ann" = allPoints := by decide +kernel
  have htaken : r.2.withdrawn "ann" = oneCent := by decide +kernel
  refine ⟨⟨by decide +kernel, ?_⟩, _, rfl, rfl, ?_, ?_⟩
  · rw [hcredited, hcurrent, value_oneCent]
    norm_num
  · show (r.2.current "ann").value ≠ (l.current "ann").value - oneCent.value
    rw [hleft, hcurrent, value_oneCent]
    intro h
    linarith
  · show (r.2.withdrawn "ann").value = (l.withdrawn "ann").value + oneCent.value
    rw [htaken, hwithdrawn, Decimal.value_zero, zero_add]

end Ledger

end LoyaltyPoints
