import LoyaltyPoints.Proofs.Ledger.Operation

/-! # Ledger: credits and debits that stop midway

    A credit settles its order before it adds the points, and a debit lowers a balance before it
    adds to what was withdrawn. The second sum can overflow, and then what was written first stays.
    The main statement says exactly when this happens: a credit or a debit is all or nothing if and
    only if it is not torn in this way. -/

namespace LoyaltyPoints

namespace Ledger

/-! ## All, nothing, and torn -/

/-- Nothing happened to a ledger, but that a balance of zero may have been opened for a user. -/
structure Untouched (user : String) (l l' : Ledger) : Prop where
  orders_eq : l'.orders = l.orders
  withdrawals_eq : l'.withdrawals = l.withdrawals
  balance?_eq : ∀ v, l'.balance? v = l.balance? v ∨ (v = user ∧ l.balance? v = none ∧
    ∃ b, l'.balance? v = some b ∧ b.current = .zero ∧ b.withdrawn = .zero)

/-- All that a credit is to do: its order is settled in its place, its points are added. -/
structure CreditDone (c : Credit) (l l' : Ledger) : Prop where
  orders_eq : ∃ before o after, l.orders = before ++ o :: after ∧
    l'.orders = before ++ settledBy c o :: after ∧
    o.number = c.number ∧ o.user = c.user ∧ o.isPending = true
  withdrawals_eq : l'.withdrawals = l.withdrawals
  current_eq : (l.current c.user).add c.amount = .ok (l'.current c.user)
  withdrawn_eq : l'.withdrawn c.user = l.withdrawn c.user
  balance?_eq : ∀ v, v ≠ c.user → l'.balance? v = l.balance? v

/-- All that a debit is to do: its points are moved, and a withdrawal is appended. -/
structure DebitDone (user number : String) (amount : Decimal) (w : Withdrawal) (l l' : Ledger) :
    Prop where
  orders_eq : l'.orders = l.orders
  withdrawals_eq : l'.withdrawals = l.withdrawals ++ [w]
  user_eq : w.user = user
  number_eq : w.number = number
  sum_eq : w.sum = amount
  current_eq : (l.current user).sub amount = .ok (l'.current user)
  withdrawn_eq : (l.withdrawn user).add amount = .ok (l'.withdrawn user)
  balance?_eq : ∀ v, v ≠ user → l'.balance? v = l.balance? v

/-- A credit answers `true` and does all, or it does nothing. -/
def CreditWhole (s : Stamp) (c : Credit) (l : Ledger) : Prop :=
  ((l.accrue s c).1 = .ok true ∧ CreditDone c l (l.accrue s c).2) ∨
    ((l.accrue s c).1 ≠ .ok true ∧ Untouched c.user l (l.accrue s c).2)

/-- A debit returns its withdrawal and does all, or it fails and does nothing. -/
def DebitWhole (s : Stamp) (user number : String) (amount : Decimal) (l : Ledger) : Prop :=
  (∃ w, (l.debit s user number amount).1 = .ok w ∧
      DebitDone user number amount w l (l.debit s user number amount).2) ∨
    (∃ e, (l.debit s user number amount).1 = .error e ∧
      Untouched user l (l.debit s user number amount).2)

/-- A credit for a pending order of its user, with points that do not fit on top of the others. -/
def CreditTorn (c : Credit) (l : Ledger) : Prop :=
  ∃ o, l.orderByNumber c.number = some o ∧ o.user = c.user ∧ o.isPending = true ∧
    (Decimal.bound : ℚ) - 1 / 2 ≤ |(l.current c.user).value + c.amount.value|

/-- A debit that is covered and lowers the balance, with points that do not fit on top of those
    already withdrawn. A large balance can be so rounded that half a point does not lower it. -/
def DebitTorn (user : String) (amount : Decimal) (l : Ledger) : Prop :=
  amount.value ≤ (l.current user).value ∧
    (Decimal.bound : ℚ) - 1 / 2 ≤ |(l.withdrawn user).value + amount.value| ∧
    ∃ rest, (l.current user).sub amount = .ok rest ∧ rest ≠ l.current user

/-! ## What is left untouched -/

theorem Untouched.refl (user : String) (l : Ledger) : Untouched user l l :=
  ⟨rfl, rfl, fun _ => .inl rfl⟩

theorem Untouched.current_eq {user : String} {l l' : Ledger} (h : Untouched user l l')
    (v : String) :
    l'.current v = l.current v := by
  rcases h.balance?_eq v with h | ⟨-, hnone, b, hb, hcurrent, -⟩
  · rw [current, h, current]
  · rw [Ledger.current_eq hb, hcurrent, current, hnone]
    rfl

theorem untouched_openBalance (s : Stamp) (user : String) (l : Ledger) :
    Untouched user l (l.openBalance s user).2 := by
  refine ⟨openBalance_orders s user l, openBalance_withdrawals s user l, ?_⟩
  intro v
  rw [balance?_openBalance]
  split
  · next hv =>
    rw [hv]
    rcases openBalance_fst s user l with h | ⟨hnone, h⟩
    · exact .inl h.symm
    · exact .inr ⟨rfl, hnone, _, rfl, by rw [h]; rfl, by rw [h]; rfl⟩
  · exact .inl rfl

/-- A balance that is written as it was is not touched. -/
theorem untouched_withBalance {s : Stamp} {user : String} {f : Balance → Balance} {l : Ledger}
    (hf : f (l.openBalance s user).1 = (l.openBalance s user).1) :
    Untouched user l (l.withBalance s user f) := by
  have hopen := untouched_openBalance s user l
  refine ⟨by simp, by simp, ?_⟩
  intro v
  rw [balance?_withBalance (by rw [hf, openBalance_user]), hf, ← balance?_openBalance]
  exact hopen.balance?_eq v

/-! ## Credits -/

variable (s : Stamp) (l : Ledger)

theorem creditDone_credited {c : Credit} {o : Order} {sum : Decimal}
    (ho : l.orderByNumber c.number = some o) (hs : settles c o = true)
    (hadd : (l.current c.user).add c.amount = .ok sum) :
    CreditDone c l (l.credited s c sum) := by
  obtain ⟨before, after, hos, hsettled⟩ := settled_orders ho
  obtain ⟨huser, hpending⟩ := settles_iff.mp hs
  exact {
    orders_eq := ⟨before, o, after, hos, by rw [credited_orders, hsettled],
      number_of_orderByNumber ho, huser, hpending⟩
    withdrawals_eq := credited_withdrawals s c sum l
    current_eq := by rw [current_credited, if_pos rfl, hadd]
    withdrawn_eq := withdrawn_credited s c sum l c.user
    balance?_eq := fun v hv => balance?_credited_of_ne s c sum l hv }

/-- A settled order is seen: its status was another one. -/
theorem not_untouched_settled {c : Credit} {o : Order} (l' : Ledger)
    (ho : l.orderByNumber c.number = some o) (hs : settles c o = true)
    (horders : l'.orders = (l.settled c).orders) : ¬ Untouched c.user l l' := by
  intro h
  obtain ⟨before, after, hos, hsettled⟩ := settled_orders ho
  have heq : (l.settled c).orders = l.orders := horders.symm.trans h.orders_eq
  rw [hsettled, hos] at heq
  have hsame : settledBy c o = o := by simpa using heq
  exact status_ne_of_settles hs (by rw [← hsame]; rfl)

/-- A credit is all or nothing if and only if its points fit, or it settles no order. -/
theorem creditWhole_iff (c : Credit) : CreditWhole s c l ↔ ¬ CreditTorn c l := by
  rcases l.accrue_cases s c with ⟨hnot, h⟩ | ⟨o, ho, hs, ⟨sum, hadd, h⟩ | ⟨e, hadd, h⟩⟩
  · -- No order is settled.
    have hwhole : CreditWhole s c l := by
      unfold CreditWhole
      rw [h]
      exact .inr ⟨by simp, .refl c.user l⟩
    refine iff_of_true hwhole ?_
    rintro ⟨o, ho, huser, hpending, -⟩
    have := hnot o ho
    rw [settles_iff.mpr ⟨huser, hpending⟩] at this
    cases this
  · have hwhole : CreditWhole s c l := by
      unfold CreditWhole
      rw [h]
      exact .inl ⟨rfl, creditDone_credited s l ho hs hadd⟩
    refine iff_of_true hwhole ?_
    rintro ⟨-, -, -, -, hbound⟩
    have := Decimal.add_eq_error_iff.mpr ⟨rfl, hbound⟩
    rw [hadd] at this
    cases this
  · -- The order has been settled, and that is seen.
    have htorn : CreditTorn c l := by
      obtain ⟨huser, hpending⟩ := settles_iff.mp hs
      exact ⟨o, ho, huser, hpending, (Decimal.add_eq_error_iff.mp hadd).2⟩
    refine iff_of_false ?_ (not_not_intro htorn)
    unfold CreditWhole
    rw [h]
    rintro (⟨hanswer, -⟩ | ⟨-, huntouched⟩)
    · cases hanswer
    · exact not_untouched_settled l _ ho hs (openBalance_orders s c.user _) huntouched

/-! ## Debits -/

theorem debitDone_paid {user number : String} {amount rest sum : Decimal}
    (hsub : (l.current user).sub amount = .ok rest)
    (hadd : (l.withdrawn user).add amount = .ok sum) :
    DebitDone user number amount ⟨s.recordId, user, number, amount, s.now⟩ l
      (l.paid s user number amount rest sum) where
  orders_eq := paid_orders ..
  withdrawals_eq := paid_withdrawals ..
  user_eq := rfl
  number_eq := rfl
  sum_eq := rfl
  current_eq := by rw [current_paid, if_pos rfl, hsub]
  withdrawn_eq := by rw [withdrawn_paid, if_pos rfl, hadd]
  balance?_eq := fun v hv => balance?_paid_of_ne s user number amount rest sum l hv

/-- A debit is all or nothing if and only if the points withdrawn fit, or nothing is lowered. -/
theorem debitWhole_iff (user number : String) (amount : Decimal) :
    DebitWhole s user number amount l ↔ ¬ DebitTorn user amount l := by
  rcases l.debit_cases s user number amount with
    ⟨hlt, h⟩ | ⟨hlt, ⟨e, hsub, h⟩ | ⟨rest, hsub, ⟨e, hadd, h⟩ | ⟨sum, hadd, h⟩⟩⟩
  · have hwhole : DebitWhole s user number amount l := by
      unfold DebitWhole
      rw [h]
      exact .inr ⟨_, rfl, untouched_openBalance s user l⟩
    refine iff_of_true hwhole ?_
    rintro ⟨hle, -⟩
    rw [(Decimal.lt_eq_false_iff _ _).mpr hle] at hlt
    cases hlt
  · have hwhole : DebitWhole s user number amount l := by
      unfold DebitWhole
      rw [h]
      exact .inr ⟨_, rfl, untouched_openBalance s user l⟩
    refine iff_of_true hwhole ?_
    rintro ⟨-, -, rest, hrest, -⟩
    rw [hsub] at hrest
    cases hrest
  · -- The rest is written, and then the sum overflows: it matters whether the rest is seen.
    obtain ⟨-, hbound⟩ := Decimal.add_eq_error_iff.mp hadd
    have hle := (Decimal.lt_eq_false_iff _ _).mp hlt
    by_cases hrest : rest = l.current user
    · have huntouched : Untouched user l
          (l.withBalance s user fun b => { b with current := rest }) := by
        refine untouched_withBalance ?_
        rw [hrest, ← openBalance_current s user l]
      have hwhole : DebitWhole s user number amount l := by
        unfold DebitWhole
        rw [h]
        exact .inr ⟨_, rfl, huntouched⟩
      refine iff_of_true hwhole ?_
      rintro ⟨-, -, rest', hsub', hne⟩
      rw [hsub, Except.ok.injEq] at hsub'
      exact hne (hsub' ▸ hrest)
    · have htorn : DebitTorn user amount l := ⟨hle, hbound, rest, hsub, hrest⟩
      refine iff_of_false ?_ (not_not_intro htorn)
      unfold DebitWhole
      rw [h]
      rintro (⟨w, hw, -⟩ | ⟨-, -, huntouched⟩)
      · cases hw
      · have hcurrent := huntouched.current_eq user
        rw [current_withBalance (openBalance_user s user l), if_pos rfl] at hcurrent
        exact hrest hcurrent
  · have hwhole : DebitWhole s user number amount l := by
      unfold DebitWhole
      rw [h]
      exact .inl ⟨_, rfl, debitDone_paid s l hsub hadd⟩
    refine iff_of_true hwhole ?_
    rintro ⟨-, hbound, -⟩
    have := Decimal.add_eq_error_iff.mpr ⟨rfl, hbound⟩
    rw [hadd] at this
    cases this

/-- Credits and debits are all or nothing, except for the torn ones, and those never are. -/
theorem whole_iff_not_torn :
    (∀ c, CreditWhole s c l ↔ ¬ CreditTorn c l) ∧
      ∀ user number amount, DebitWhole s user number amount l ↔ ¬ DebitTorn user amount l :=
  ⟨creditWhole_iff s l, debitWhole_iff s l⟩

/-- All points that a balance can hold. -/
def allPoints : Decimal :=
  { Decimal.zero with coefficient := 79228162514264337593543950335, coefficient_lt := by decide }

def onePoint : Decimal := { Decimal.zero with coefficient := 1, coefficient_lt := by decide }

/-- Ann earns all points that there can be. -/
def callsEarning : List Operation :=
  [.submit "ann" "79927398713", .accrue ⟨"ann", "79927398713", allPoints⟩]

/-- Ann withdraws them, and earns one more. -/
def callsWithdrawing : List Operation :=
  callsEarning ++ [.withdraw "ann" "79927398713" allPoints, .submit "ann" "4561261212345467",
    .accrue ⟨"ann", "4561261212345467", onePoint⟩]

/-- One point on top of all others tears a credit, when they are there to be spent, and a debit,
    when they have been withdrawn. -/
theorem torn_by_one_point :
    ¬ CreditWhole (.number 9) ⟨"ann", "4561261212345467", onePoint⟩
        (run .number (callsEarning ++ [.submit "ann" "4561261212345467"])).state.ledger ∧
      ¬ DebitWhole (.number 9) "ann" "79927398713" onePoint
        (run .number callsWithdrawing).state.ledger := by
  have hsum : (Decimal.bound : ℚ) - 1 / 2 ≤ |allPoints.value + onePoint.value| := by
    norm_num [Decimal.value, allPoints, onePoint, Decimal.zero, Decimal.bound]
  constructor
  · rw [creditWhole_iff, not_not]
    exact ⟨_, rfl, rfl, rfl, hsum⟩
  · rw [debitWhole_iff, not_not]
    have hcurrent : (run .number callsWithdrawing).state.ledger.current "ann" = onePoint := rfl
    have hwithdrawn : (run .number callsWithdrawing).state.ledger.withdrawn "ann" = allPoints := rfl
    rw [DebitTorn, hcurrent, hwithdrawn]
    refine ⟨le_rfl, hsum, .zero, rfl, ?_⟩
    intro h
    cases congrArg Decimal.coefficient h

end Ledger

end LoyaltyPoints
