import LoyaltyPoints.Proofs.Decimal.Rounding
import LoyaltyPoints.Proofs.Pipeline.System

/-! # Pipeline: when balances can be negative

    A withdrawal never takes more than there is, so a balance can be negative by a credit only. A
    credit has the sign of what the oracle granted, unless that is rounded to zero. No balance is
    ever negative if and only if the oracle grants nothing at or below minus half a cent. -/

namespace LoyaltyPoints

namespace Ledger

/-- No balance is negative. -/
def Solvent (l : Ledger) : Prop := ∀ user, 0 ≤ (l.current user).value

theorem solvent_empty : Solvent {} := by
  intro user
  rw [current, balance?]
  exact le_of_eq Decimal.value_zero.symm

/-- Calls keep a ledger solvent, but for a credit of less than nothing. Overflows do so as well. -/
theorem Effect.solvent {l l' : Ledger} {op : Operation} {answer : Except Fault Reply}
    (h : Effect l op answer l') (hl : l.Solvent)
    (hcredit : ∀ c, op = .accrue c → 0 ≤ c.amount.value) : l'.Solvent := by
  intro v
  cases h with
  | quiet => exact hl v
  | opened s user =>
    rw [current_openBalance]
    exact hl v
  | stored => exact hl v
  | marked => exact hl v
  | credited s c o sum ho hs hadd =>
    rw [current_credited]
    split
    · refine Decimal.value_nonneg_of_add hadd ?_
      exact add_nonneg (hl c.user) (hcredit c rfl)
    · exact hl v
  | creditLost s c o e ho hs hadd =>
    rw [current_openBalance]
    exact hl v
  | paid s user number amount rest sum hop hle hsub hadd =>
    rw [current_paid]
    split
    · exact Decimal.value_nonneg_of_sub hsub hle
    · exact hl v
  | restLost s user number amount e hop hle hsub =>
    rw [current_openBalance]
    exact hl v
  | sumLost s user number amount rest e hop hle hsub hadd =>
    rw [current_withBalance (openBalance_user s user l)]
    split
    · exact Decimal.value_nonneg_of_sub hsub hle
    · exact hl v

end Ledger

/-- An amount is rounded below zero from minus half a cent on. -/
theorem Decimal.value_roundTo_nonneg_iff (amount : Decimal) :
    0 ≤ (amount.roundTo moneyScale).value ↔ -1 / 200 < amount.value := by
  have h := value_roundTo_neg_iff amount moneyScale
  rw [← not_lt, h, not_le, moneyScale]
  constructor <;> intro h <;> linarith

/-- Whether all points that an answer grants are of one kind. -/
def Label.GrantsOnly (P : Decimal → Prop) : Label → Prop
  | .answer _ (.ok a) => a.status = .processed → ∀ amount, a.accrual = some amount → P amount
  | _ => True

namespace System

/-- No balance is negative, and no credit under way is. -/
structure Solvent (s : System) : Prop where
  ledger : s.book.ledger.Solvent
  credits : ∀ c, s.Carries c → 0 ≤ c.amount.value

theorem solvent_start (capacity routers settlers : ℕ) :
    (start capacity routers settlers).Solvent where
  ledger := Ledger.solvent_empty
  credits := by
    rintro c (hc | hc | hc)
    · cases List.eq_of_mem_replicate hc
    · cases hc
    · cases List.eq_of_mem_replicate hc

variable {supply : ℕ → Stamp} {P : Decimal → Prop}

/-- A step keeps a system solvent if what the oracle grants in it is not rounded below zero. -/
theorem Step.solvent {s t : System} {l : Label} (h : Step supply s l t) (hs : s.Solvent)
    (hl : l.GrantsOnly P) (hP : ∀ a, P a → -1 / 200 < a.value) : t.Solvent where
  ledger := by
    rcases h.book_eq with hbook | ⟨op, hcalls, hbook⟩
    · rw [hbook]
      exact hs.ledger
    · -- Among the calls, only a credit can take points from a balance unasked.
      rw [hbook]
      refine (Ledger.perform_effect supply op s.book).solvent hs.ledger ?_
      rintro c rfl
      cases hcalls with
      | credit hsettler => exact hs.credits c (.inr (.inr (List.mem_of_getElem? hsettler)))
  credits := by
    intro c hc
    rcases h.carries hc with hc | ⟨i, o, a, rfl, -, hstatus, rfl⟩
    · exact hs.credits c hc
    · rw [Credit.forOrder, Decimal.value_roundTo_nonneg_iff]
      cases haccrual : a.accrual with
      | none =>
        -- An answer without points counts as zero.
        rw [Option.getD_none, Decimal.value_zero]
        norm_num
      | some amount => exact hP amount (hl hstatus amount haccrual)

/-- A run keeps a system solvent if what the oracle grants in it is not rounded below zero. -/
theorem Runs.solvent {s t : System} {ls : List Label} (h : Runs supply s ls t) (hs : s.Solvent)
    (hls : ∀ l ∈ ls, l.GrantsOnly P) (hP : ∀ a, P a → -1 / 200 < a.value) : t.Solvent := by
  induction h with
  | nil => exact hs
  | snoc hrun hstep ih =>
    have hbefore := ih fun l hl => hls l (List.mem_append_left _ hl)
    exact hstep.solvent hbefore (hls _ (List.mem_append_right _ List.mem_cons_self)) hP

/-- An order is submitted, the oracle grants an amount for it, and the amount is credited. -/
def granting (amount : Decimal) : List Label :=
  [.submit "ann" "79927398713", .submission 0, .submission 0, .register 0, .receiveOrder 0,
    .answer 0 (.ok ⟨"79927398713", .processed, some amount⟩), .forward 0, .receiveCredit 0,
    .settle 0]

/-- An amount that is granted ends up, rounded, in the balance. -/
theorem runs_granting (amount : Decimal) :
    ∃ s, Runs .number (start 1 1 1) (granting amount) s ∧
      s.book.ledger.current "ann" = amount.roundTo moneyScale := by
  exact ⟨_, .cons (.submit _ _) <| .cons (.submission rfl rfl) <| .cons (.submission rfl rfl) <|
    .cons (.register rfl rfl rfl) <| .cons (.receiveOrder rfl rfl) <| .cons (.answer rfl rfl) <|
    .cons (.forward rfl rfl) <| .cons (.receiveCredit rfl rfl) <| .cons (.settle rfl rfl) .nil, rfl⟩

/-- Whatever is submitted and withdrawn and in whichever order the parties act, no balance is ever
    negative, if and only if all points the oracle grants are more than minus half a cent. -/
theorem balances_nonneg_iff (P : Decimal → Prop) :
    (∀ (supply : ℕ → Stamp) (capacity routers settlers : ℕ) (ls : List Label) (s : System),
      Runs supply (start capacity routers settlers) ls s → (∀ l ∈ ls, l.GrantsOnly P) →
      ∀ user, 0 ≤ (s.book.ledger.current user).value) ↔
    ∀ a, P a → -1 / 200 < a.value := by
  constructor
  · intro hall a ha
    obtain ⟨s, hrun, hcurrent⟩ := runs_granting a
    have hgrants : ∀ l ∈ granting a, l.GrantsOnly P := by
      simp [granting, Label.GrantsOnly, ha]
    have hnonneg := hall _ _ _ _ _ s hrun hgrants "ann"
    rw [hcurrent] at hnonneg
    exact (Decimal.value_roundTo_nonneg_iff a).mp hnonneg
  · intro hP supply capacity routers settlers ls s hrun hgrants
    exact (hrun.solvent (solvent_start capacity routers settlers) hgrants hP).ledger

/-- The oracle grants minus one point to a user who has none. -/
theorem balance_negative :
    ∃ s, Runs .number (start 1 1 1) (granting ⟨-1, 0, by decide, by decide⟩) s ∧
      (s.book.ledger.current "ann").value = -1 := by
  obtain ⟨s, hrun, hcurrent⟩ := runs_granting ⟨-1, 0, by decide, by decide⟩
  have hround : Decimal.roundTo ⟨-1, 0, by decide, by decide⟩ moneyScale =
      ⟨-1, 0, by decide, by decide⟩ := rfl
  refine ⟨s, hrun, ?_⟩
  rw [hcurrent, hround, Decimal.value]
  norm_num

end System

end LoyaltyPoints
