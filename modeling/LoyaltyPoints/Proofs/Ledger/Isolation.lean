import LoyaltyPoints.Proofs.Ledger.Operation
import LoyaltyPoints.Proofs.Ledger.Pairing

/-! # Ledger: what one user sees of it

    All users share one ledger. Two ledgers are alike for a user if they have the same orders in the
    same places, the user's own ones equally far along, and the same points and withdrawals for this
    user, ids and times aside. A call that is made on both keeps them alike, whoever makes it, and
    answers the user in the same way. Most calls of others change nothing at all for the user. -/

namespace LoyaltyPoints

/-! ## Ids and times aside -/

/-- An order without its id and its time. -/
def Order.bare (o : Order) : Order := { o with id := default, uploadedAt := default }

/-- A balance without its id and its times. -/
def Balance.bare (b : Balance) : Balance :=
  { b with id := default, createdAt := default, updatedAt := default }

/-- A withdrawal without its id and its time. -/
def Withdrawal.bare (w : Withdrawal) : Withdrawal :=
  { w with id := default, processedAt := default }

/-- What a call returns, ids and times aside. -/
def Reply.bare : Reply → Reply
  | .order o => .order o.bare
  | .found o => .found (o.map Order.bare)
  | .orders os => .orders (os.map Order.bare)
  | .count n => .count n
  | .flag b => .flag b
  | .balance b => .balance b.bare
  | .withdrawal w => .withdrawal w.bare
  | .withdrawals ws => .withdrawals (ws.map Withdrawal.bare)

namespace Operation

/-- The call that names orders by the ids they have in another run. -/
def renamed (rename : Uuid → Uuid) : Operation → Operation
  | .markOrders ids status => .markOrders (ids.map rename) status
  | op => op

/-- Performs a call on a ledger, with the ids and the time that it draws. -/
def on (op : Operation) (s : Stamp) (l : Ledger) : Except Fault Reply × Ledger :=
  let (r, st) := op.perform (LedgerState.storeOf fun _ => s) { ledger := l }
  (r, st.ledger)

/-- The calls of a user: those that name the user, and the marks of the user's orders. -/
def Concerns (user : String) (l : Ledger) : Operation → Prop
  | .submit u _ | .createOrder u _ | .userOrder u _ | .userOrders u => u = user
  | .balance u | .withdraw u _ _ | .debit u _ _ | .withdrawals u => u = user
  | .accrue c => c.user = user
  | .markOrders ids _ => ∀ o ∈ l.orders, o.id ∈ ids → o.user = user
  | .orderByNumber _ | .pendingOrders _ _ => False

section services

variable (s : Stamp) (l : Ledger)

/-- A submission is refused for its number, or for the order that has it, or stores the order. -/
theorem submit_on (user number : String) : (submit user number).on s l =
    if OrderNumber.isValid number = true then
      (l.orderByNumber number).elim ((createOrder user number).on s l)
        fun o => (.error (.error (Submission.conflict o user)), l)
    else (.error (.error (.invalidOrderNumber number)), l) := by
  simp only [on, perform, answer, LedgerState.submit_eq]
  split_ifs
  · cases l.orderByNumber number <;> rfl
  · rfl

/-- A withdrawal is refused for its number or its amount, or it is what the ledger makes of it. -/
theorem withdraw_on (user number : String) (amount : Decimal) :
    (withdraw user number amount).on s l =
      if OrderNumber.isValid number = true then
        if isWithdrawable amount = true then (debit user number amount).on s l
        else (.error (.error (.invalidAmount amount)), l)
      else (.error (.error (.invalidOrderNumber number)), l) := by
  simp only [on, LedgerState.withdraw_eq]
  split_ifs <;> rfl

/-- A call on a state draws the next stamp of the supply, if it draws any. -/
theorem on_eq_perform (supply : ℕ → Stamp) (op : Operation) (st : LedgerState) :
    op.on (supply st.stamps) st.ledger = ((op.perform (LedgerState.storeOf supply) st).1,
      (op.perform (LedgerState.storeOf supply) st).2.ledger) := by
  cases op with
  | submit user number =>
    rw [submit_on]
    simp only [perform, answer, LedgerState.submit_eq]
    split_ifs
    · cases st.ledger.orderByNumber number <;> rfl
    · rfl
  | withdraw user number amount =>
    rw [withdraw_on, LedgerState.withdraw_eq]
    split_ifs <;> rfl
  | _ => rfl

end services

end Operation

namespace Ledger

/-! ## Alike for a user -/

/-- An order in two runs: the same in both, as far as anyone sees, and altogether for its owner. -/
structure IsTwin (user : String) (rename : Uuid → Uuid) (o o' : Order) : Prop where
  id_eq : o'.id = rename o.id
  number_eq : o'.number = o.number
  user_eq : o'.user = o.user
  status_eq : o.user = user → o'.status = o.status
  accrual_eq : o.user = user → o'.accrual = o.accrual

/-- The ledgers of two runs that are the same for one user, ids and times aside. -/
structure Alike (user : String) (rename : Uuid → Uuid) (calls : List (Instant × Instant))
    (l l' : Ledger) : Prop where
  orders : InStep Order.uploadedAt (IsTwin user rename) calls l.orders l'.orders
  withdrawals : InStep Withdrawal.processedAt (fun w w' => w.bare = w'.bare) calls
    (l.withdrawals.filter (·.user == user)) (l'.withdrawals.filter (·.user == user))
  current : l'.current user = l.current user
  withdrawn : l'.withdrawn user = l.withdrawn user

/-- A ledger that one user cannot tell from another one. At most another user's order is settled. -/
structure SameFor (user : String) (l l' : Ledger) : Prop where
  orders : l'.orders = l.orders ∨ ∃ c o, l.orderByNumber c.number = some o ∧ o.user ≠ user ∧
    l'.orders = (l.settled c).orders
  withdrawals : l'.withdrawals.filter (·.user == user) = l.withdrawals.filter (·.user == user)
  current : l'.current user = l.current user
  withdrawn : l'.withdrawn user = l.withdrawn user

section sameFor

variable {user : String} {l : Ledger} {s : Stamp}

theorem SameFor.refl (user : String) (l : Ledger) : SameFor user l l :=
  ⟨.inl rfl, rfl, rfl, rfl⟩

/-- Opening a balance is not seen. -/
theorem sameFor_openBalance (s : Stamp) (user u : String) (l : Ledger) :
    SameFor user l (l.openBalance s u).2 := by
  constructor <;> simp

/-- Another user's withdrawal is not seen, and a refusal is not seen either. -/
theorem sameFor_debit {u number : String} {amount : Decimal}
    (h : u ≠ user ∨ ∃ e, (l.debit s u number amount).1 = .error (.error e)) :
    SameFor user l (l.debit s u number amount).2 := by
  rcases l.debit_cases s u number amount with ⟨-, hl⟩ |
    ⟨-, ⟨e, -, hl⟩ | ⟨rest, -, ⟨e, -, hl⟩ | ⟨sum, -, hl⟩⟩⟩
  · rw [hl]
    exact sameFor_openBalance s user u l
  · rw [hl]
    exact sameFor_openBalance s user u l
  -- From here on something is stored, and no refusal is returned: the debit is another user's.
  all_goals
    rw [hl] at h ⊢
    have hother : user ≠ u := by
      rcases h with h | ⟨e', h⟩
      · exact h.symm
      · cases h
  · constructor
    · simp
    · simp
    · rw [current_withBalance (openBalance_user s u l), if_neg hother]
    · rw [withdrawn_withBalance (openBalance_user s u l), if_neg hother]
  · constructor
    · simp
    · simp [hother.symm]
    · rw [current_paid, if_neg hother]
    · rw [withdrawn_paid, if_neg hother]

/-- A credit for another user is not seen. -/
theorem sameFor_accrue {c : Credit} (h : c.user ≠ user) :
    SameFor user l (l.accrue s c).2 := by
  rcases l.accrue_cases s c with ⟨-, hl⟩ | ⟨o, ho, hs, ⟨sum, -, hl⟩ | ⟨e, -, hl⟩⟩
  · rw [hl]
    exact .refl user l
  all_goals
    have howner : o.user ≠ user := by rwa [(settles_iff.mp hs).1]
    rw [hl]
  · refine ⟨.inr ⟨c, o, ho, howner, credited_orders s c sum l⟩, by simp, ?_, by simp⟩
    rw [current_credited, if_neg h.symm]
  · exact ⟨.inr ⟨c, o, ho, howner, by simp⟩, by simp, by simp, by simp⟩

end sameFor

theorem updateOrder_id (number : String) (os : List Order) : updateOrder number id os = os := by
  induction os with
  | nil => rfl
  | cons o os ih =>
    rw [updateOrder, ih]
    split <;> rfl

section updateOrder

variable {R : Order → Order → Prop} {number : String} {f g : Order → Order}

/-- An update of both lists is an update of the pairs. -/
theorem exists_pairs_updateOrder (hkey : ∀ o o', R o o' → o'.number = o.number)
    (hf : ∀ o, (f o).uploadedAt = o.uploadedAt) (hg : ∀ o, (g o).uploadedAt = o.uploadedAt)
    {ps : List (Order × Order)} (hR : ∀ p ∈ ps, R p.1 p.2)
    (hfg : ∀ o o', (ps.map (·.1)).find? (·.number == number) = some o → R o o' → R (f o) (g o')) :
    ∃ qs : List (Order × Order), updateOrder number f (ps.map (·.1)) = qs.map (·.1) ∧
      updateOrder number g (ps.map (·.2)) = qs.map (·.2) ∧ (∀ q ∈ qs, R q.1 q.2) ∧
      (qs.map fun q => (q.1.uploadedAt, q.2.uploadedAt)) =
        ps.map fun p => (p.1.uploadedAt, p.2.uploadedAt) := by
  induction ps with
  | nil => exact ⟨[], rfl, rfl, nofun, rfl⟩
  | cons p ps ih =>
    obtain ⟨hp, hps⟩ := List.forall_mem_cons.mp hR
    have hnumber := hkey _ _ hp
    simp only [List.map_cons, updateOrder, hnumber]
    by_cases hfound : (p.1.number == number) = true
    · rw [if_pos hfound, if_pos hfound]
      refine ⟨(f p.1, g p.2) :: ps, rfl, rfl, ?_, by simp [hf, hg]⟩
      exact List.forall_mem_cons.mpr ⟨hfg _ _ (List.find?_cons_of_pos hfound) hp, hps⟩
    · rw [if_neg hfound, if_neg hfound]
      have hskip := List.find?_cons_of_neg (p := fun o : Order => o.number == number)
        (l := ps.map (·.1)) hfound
      obtain ⟨qs, hfirst, hsecond, hqs, htimes⟩ := ih hps fun o o' ho => hfg o o' (hskip.trans ho)
      refine ⟨p :: qs, by simp [hfirst], by simp [hsecond], ?_, by simp [htimes]⟩
      exact List.forall_mem_cons.mpr ⟨hp, hqs⟩

/-- The first order with a number is the same one in both runs, and may change in both. -/
theorem InStep.updateOrder {calls : List (Instant × Instant)} {os os' : List Order}
    (h : InStep Order.uploadedAt R calls os os') (hkey : ∀ o o', R o o' → o'.number = o.number)
    (hf : ∀ o, (f o).uploadedAt = o.uploadedAt) (hg : ∀ o, (g o).uploadedAt = o.uploadedAt)
    (hfg : ∀ o o', os.find? (·.number == number) = some o → R o o' → R (f o) (g o')) :
    InStep Order.uploadedAt R calls (updateOrder number f os) (updateOrder number g os') := by
  obtain ⟨ps, rfl, rfl, hR, hcalls⟩ := h
  obtain ⟨qs, hfirst, hsecond, hqs, htimes⟩ := exists_pairs_updateOrder hkey hf hg hR hfg
  exact ⟨qs, hfirst, hsecond, hqs, htimes ▸ hcalls⟩

end updateOrder

section alike

variable {user : String} {rename : Uuid → Uuid} {calls : List (Instant × Instant)}
  {l l' : Ledger} {s s' : Stamp}

theorem Alike.later (h : Alike user rename calls l l') (t : Instant × Instant) :
    Alike user rename (calls ++ [t]) l l' :=
  ⟨h.orders.later t, h.withdrawals.later t, h.current, h.withdrawn⟩

/-- A number belongs to an order in both runs or in neither. -/
theorem Alike.lookUp (h : Alike user rename calls l l') (number : String) :
    Option.Rel (IsTwin user rename) (l.orderByNumber number) (l'.orderByNumber number) :=
  h.orders.find? fun o o' ho => by rw [ho.number_eq]

theorem Alike.twin_of_lookUp (h : Alike user rename calls l l') {number : String} {o : Order}
    (ho : l.orderByNumber number = some o) :
    ∃ o', l'.orderByNumber number = some o' ∧ IsTwin user rename o o' := by
  have hlook := h.lookUp number
  rw [ho] at hlook
  generalize l'.orderByNumber number = found at hlook
  cases hlook with
  | some htwin => exact ⟨_, rfl, htwin⟩

theorem Alike.origin_of_lookUp (h : Alike user rename calls l l') {number : String} {o' : Order}
    (ho' : l'.orderByNumber number = some o') :
    ∃ o, l.orderByNumber number = some o ∧ IsTwin user rename o o' := by
  have hlook := h.lookUp number
  rw [ho'] at hlook
  generalize l.orderByNumber number = found at hlook
  cases hlook with
  | some htwin => exact ⟨_, rfl, htwin⟩

/-- What is not seen in one of the runs does not come between them. -/
theorem Alike.left (h : Alike user rename calls l l') {m : Ledger} (hm : SameFor user l m) :
    Alike user rename calls m l' where
  orders := by
    rcases hm.orders with heq | ⟨c, o, ho, howner, heq⟩
    · exact heq ▸ h.orders
    -- The order of another user is settled in one run, and its twin is left as it was.
    rw [heq, ← updateOrder_id c.number l'.orders]
    refine h.orders.updateOrder (fun _ _ ho => ho.number_eq) (fun _ => rfl) (fun _ => rfl) ?_
    intro a b ha hab
    obtain rfl : o = a := Option.some.inj (ho.symm.trans ha)
    exact ⟨hab.id_eq, hab.number_eq, hab.user_eq, (absurd · howner), (absurd · howner)⟩
  withdrawals := hm.withdrawals ▸ h.withdrawals
  current := h.current.trans hm.current.symm
  withdrawn := h.withdrawn.trans hm.withdrawn.symm

theorem Alike.right (h : Alike user rename calls l l') {m : Ledger} (hm : SameFor user l' m) :
    Alike user rename calls l m where
  orders := by
    rcases hm.orders with heq | ⟨c, o', ho', howner, heq⟩
    · exact heq ▸ h.orders
    rw [heq, ← updateOrder_id c.number l.orders]
    refine h.orders.updateOrder (fun _ _ ho => ho.number_eq) (fun _ => rfl) (fun _ => rfl) ?_
    intro a b ha hab
    obtain ⟨o, ho, htwin⟩ := h.origin_of_lookUp ho'
    obtain rfl : o = a := Option.some.inj (ho.symm.trans ha)
    have hother : o.user ≠ user := by rwa [← htwin.user_eq]
    exact ⟨hab.id_eq, hab.number_eq, hab.user_eq, (absurd · hother), (absurd · hother)⟩
  withdrawals := hm.withdrawals ▸ h.withdrawals
  current := hm.current.trans h.current
  withdrawn := hm.withdrawn.trans h.withdrawn

/-- Neither run is seen to do anything at a call. -/
theorem Alike.unseen (h : Alike user rename calls l l') {m m' : Ledger} (hm : SameFor user l m)
    (hm' : SameFor user l' m') (t : Instant × Instant) :
    Alike user rename (calls ++ [t]) m m' :=
  ((h.left hm).right hm').later t

/-- A call in two runs: the ledgers are alike behind it, and the user gets the same answer if the
    call is one of the user's. -/
structure Matches (user : String) (rename : Uuid → Uuid) (calls : List (Instant × Instant))
    (concerns : Prop) (r r' : Except Fault Reply × Ledger) : Prop where
  alike : Alike user rename calls r.2 r'.2
  answer : concerns → r.1.map Reply.bare = r'.1.map Reply.bare

/-! ## Calls that stay -/

theorem Alike.createOrder (h : Alike user rename calls l l')
    (hid : s'.recordId = rename s.recordId) (u number : String) (concerns : Prop) :
    Matches user rename (calls ++ [(s.now, s'.now)]) concerns
      ((Operation.createOrder u number).on s l) ((Operation.createOrder u number).on s' l') := by
  show Matches _ _ _ _ ((l.createOrder s u number).1.map .order, (l.createOrder s u number).2)
    ((l'.createOrder s' u number).1.map .order, (l'.createOrder s' u number).2)
  -- The number belongs to an order in both runs or in neither: two of the four cases are void.
  rcases l.createOrder_cases s u number with ⟨hnone, hl⟩ | ⟨o, ho, hl⟩ <;>
    rcases l'.createOrder_cases s' u number with ⟨hnone', hl'⟩ | ⟨o', ho', hl'⟩ <;> rw [hl, hl']
  · have hstored := h.orders.concat (a := Order.submitted s.recordId u number s.now)
      (b := Order.submitted s'.recordId u number s'.now)
      ⟨hid, rfl, rfl, fun _ => rfl, fun _ => rfl⟩
    exact ⟨⟨hstored, h.withdrawals.later _, h.current, h.withdrawn⟩, fun _ => rfl⟩
  · obtain ⟨o, ho, -⟩ := h.origin_of_lookUp ho'
    cases hnone.symm.trans ho
  · obtain ⟨o', ho', -⟩ := h.twin_of_lookUp ho
    cases hnone'.symm.trans ho'
  · exact ⟨h.later _, fun _ => rfl⟩

theorem Alike.submit (h : Alike user rename calls l l') (hid : s'.recordId = rename s.recordId)
    (u number : String) (concerns : Prop) :
    Matches user rename (calls ++ [(s.now, s'.now)]) concerns
      ((Operation.submit u number).on s l) ((Operation.submit u number).on s' l') := by
  have hlook := h.lookUp number
  rw [Operation.submit_on, Operation.submit_on]
  split
  · -- The conflict names the number and depends on the owner, and twins share both.
    generalize l.orderByNumber number = found at hlook
    generalize l'.orderByNumber number = found' at hlook
    cases hlook with
    | none => exact h.createOrder hid u number concerns
    | some ho =>
      refine ⟨h.later _, fun _ => ?_⟩
      simp only [Option.elim_some, Submission.conflict, ho.user_eq, ho.number_eq]
  · exact ⟨h.later _, fun _ => rfl⟩

/-- A list of ids has an order in both runs or in neither. -/
theorem contains_twin (hinj : Function.Injective rename) (ids : List Uuid) {o o' : Order}
    (h : IsTwin user rename o o') : (ids.map rename).contains o'.id = ids.contains o.id := by
  rw [h.id_eq, Bool.eq_iff_iff, List.contains_iff_mem, List.contains_iff_mem,
    List.mem_map_of_injective hinj]

/-- A mark changes an order of the user in both runs or in neither. -/
theorem isMarked_twin (hinj : Function.Injective rename) (ids : List Uuid) (status : OrderStatus)
    {o o' : Order} (h : IsTwin user rename o o') (howner : o.user = user) :
    isMarked (ids.map rename) status o' = isMarked ids status o := by
  rw [isMarked, isMarked, contains_twin hinj ids h, h.status_eq howner]

/-- What a mark makes of an order and its twin are twins. -/
theorem IsTwin.mark (hinj : Function.Injective rename) (ids : List Uuid) (status : OrderStatus)
    {o o' : Order} (h : IsTwin user rename o o') :
    IsTwin user rename (if isMarked ids status o then { o with status } else o)
      (if isMarked (ids.map rename) status o' then { o' with status } else o') := by
  have hsame := isMarked_twin hinj ids status h
  split_ifs with hm hm' hm'
  · exact ⟨h.id_eq, h.number_eq, h.user_eq, fun _ => rfl, h.accrual_eq⟩
  · refine ⟨h.id_eq, h.number_eq, h.user_eq, fun howner => ?_, h.accrual_eq⟩
    exact absurd ((hsame howner).trans hm) hm'
  · refine ⟨h.id_eq, h.number_eq, h.user_eq, fun howner => ?_, h.accrual_eq⟩
    exact absurd ((hsame howner).symm.trans hm') hm
  · exact h

theorem Alike.markOrders (h : Alike user rename calls l l') (hinj : Function.Injective rename)
    (ids : List Uuid) (status : OrderStatus) :
    Matches user rename (calls ++ [(s.now, s'.now)]) (∀ o ∈ l.orders, o.id ∈ ids → o.user = user)
      ((Operation.markOrders ids status).on s l)
      ((Operation.markOrders (ids.map rename) status).on s' l') := by
  show Matches _ _ _ _ ((l.markOrders ids status).1.map .count, (l.markOrders ids status).2)
    ((l'.markOrders (ids.map rename) status).1.map .count,
      (l'.markOrders (ids.map rename) status).2)
  rcases l.markOrders_cases ids status with ⟨hmark, hl⟩ | ⟨hmark, hl⟩ <;>
    rcases l'.markOrders_cases (ids.map rename) status with ⟨hmark', hl'⟩ | ⟨hmark', hl'⟩ <;>
    rw [hl, hl']
  · have hmarked : InStep Order.uploadedAt (IsTwin user rename) calls (l.marked ids status).orders
        (l'.marked (ids.map rename) status).orders :=
      h.orders.map (fun o => by split <;> rfl) (fun o => by split <;> rfl)
        fun _ _ htwin => htwin.mark hinj ids status
    refine ⟨⟨hmarked.later _, h.withdrawals.later _, h.current, h.withdrawn⟩, fun howner => ?_⟩
    have hcount : l.orders.countP (isMarked ids status) =
        l'.orders.countP (isMarked (ids.map rename) status) := by
      refine h.orders.countP_eq fun o ho o' htwin => ?_
      -- The orders that are listed are the user's, and no other one can be marked.
      by_cases hlisted : o.id ∈ ids
      · exact (isMarked_twin hinj ids status htwin (howner o ho hlisted)).symm
      · have hnone : ids.contains o.id = false := by simpa using hlisted
        rw [isMarked, isMarked, contains_twin hinj ids htwin, hnone, Bool.false_and, Bool.false_and]
    rw [hcount]
  · cases hmark.symm.trans hmark'
  · cases hmark.symm.trans hmark'
  · exact ⟨h.later _, fun _ => rfl⟩

/-- A credit settles an order of its owner in both runs or in neither. -/
theorem settles_twin {c : Credit} {o o' : Order} (h : IsTwin c.user rename o o') :
    settles c o' = settles c o := by
  rw [settles, settles, h.user_eq]
  by_cases howner : o.user = c.user
  · rw [h.status_eq howner]
  · rw [beq_false_of_ne howner, Bool.false_and, Bool.false_and]

/-- Behind a credit the order is settled in both runs, and the user has as many points in both. -/
theorem Alike.accrue_own {c : Credit} (h : Alike c.user rename calls l l') (concerns : Prop) :
    Matches c.user rename (calls ++ [(s.now, s'.now)]) concerns
      ((Operation.accrue c).on s l) ((Operation.accrue c).on s' l') := by
  have hsettled : InStep Order.uploadedAt (IsTwin c.user rename) calls (l.settled c).orders
      (l'.settled c).orders :=
    h.orders.updateOrder (fun _ _ ho => ho.number_eq) (fun _ => rfl) (fun _ => rfl)
      fun _ _ _ ho => ⟨ho.id_eq, ho.number_eq, ho.user_eq, fun _ => rfl, fun _ => rfl⟩
  show Matches _ _ _ _ ((l.accrue s c).1.map .flag, (l.accrue s c).2)
    ((l'.accrue s' c).1.map .flag, (l'.accrue s' c).2)
  rcases l.accrue_cases s c with ⟨hnone, hl⟩ | ⟨o, ho, hs, hsum⟩ <;>
    rcases l'.accrue_cases s' c with ⟨hnone', hl'⟩ | ⟨o', ho', hs', hsum'⟩
  · rw [hl, hl']
    exact ⟨h.later _, fun _ => rfl⟩
  -- It cannot be that only one of the runs settles the order.
  · obtain ⟨o, ho, htwin⟩ := h.origin_of_lookUp ho'
    cases (hnone o ho).symm.trans ((settles_twin htwin).symm.trans hs')
  · obtain ⟨o', ho', htwin⟩ := h.twin_of_lookUp ho
    cases (hnone' o' ho').symm.trans ((settles_twin htwin).trans hs)
  -- The points are added to the same sum, so that both additions overflow or none does.
  rcases hsum with ⟨sum, hadd, hl⟩ | ⟨e, hadd, hl⟩ <;>
    rcases hsum' with ⟨sum', hadd', hl'⟩ | ⟨e', hadd', hl'⟩ <;>
    rw [hl, hl'] <;> rw [h.current, hadd] at hadd' <;> cases hadd'
  · refine ⟨⟨?_, ?_, ?_, ?_⟩, fun _ => rfl⟩
    · simpa using hsettled.later (s.now, s'.now)
    · simpa using h.withdrawals.later (s.now, s'.now)
    · rw [current_credited, current_credited, if_pos rfl, if_pos rfl]
    · simpa using h.withdrawn
  · refine ⟨⟨?_, ?_, ?_, ?_⟩, fun _ => rfl⟩
    · simpa using hsettled.later (s.now, s'.now)
    · simpa using h.withdrawals.later (s.now, s'.now)
    · simpa using h.current
    · simpa using h.withdrawn

theorem Alike.accrue (h : Alike user rename calls l l') (c : Credit) :
    Matches user rename (calls ++ [(s.now, s'.now)]) (c.user = user)
      ((Operation.accrue c).on s l) ((Operation.accrue c).on s' l') := by
  by_cases hc : c.user = user
  · subst hc
    exact h.accrue_own _
  · exact ⟨h.unseen (sameFor_accrue hc) (sameFor_accrue hc) _, (absurd · hc)⟩

/-- A user who has as many points in both runs can take as many from them. -/
theorem Alike.debit_own (h : Alike user rename calls l l') (number : String) (amount : Decimal)
    (concerns : Prop) : Matches user rename (calls ++ [(s.now, s'.now)]) concerns
      ((Operation.debit user number amount).on s l)
      ((Operation.debit user number amount).on s' l') := by
  show Matches _ _ _ _ ((l.debit s user number amount).1.map .withdrawal,
      (l.debit s user number amount).2)
    ((l'.debit s' user number amount).1.map .withdrawal, (l'.debit s' user number amount).2)
  have hopened : Alike user rename (calls ++ [(s.now, s'.now)]) (l.openBalance s user).2
      (l'.openBalance s' user).2 :=
    h.unseen (sameFor_openBalance s user user l) (sameFor_openBalance s' user user l') _
  -- Each of the three decisions is taken on the same points in both runs.
  rcases l.debit_cases s user number amount with ⟨hlt, hl⟩ | ⟨hlt, hpaid⟩ <;>
    rcases l'.debit_cases s' user number amount with ⟨hlt', hl'⟩ | ⟨hlt', hpaid'⟩ <;>
    rw [h.current, hlt] at hlt' <;> cases hlt'
  · rw [hl, hl', h.current]
    exact ⟨hopened, fun _ => rfl⟩
  rcases hpaid with ⟨e, hsub, hl⟩ | ⟨rest, hsub, hsum⟩ <;>
    rcases hpaid' with ⟨e', hsub', hl'⟩ | ⟨rest', hsub', hsum'⟩ <;>
    rw [h.current, hsub] at hsub' <;> cases hsub'
  · rw [hl, hl']
    exact ⟨hopened, fun _ => rfl⟩
  rcases hsum with ⟨e, hadd, hl⟩ | ⟨sum, hadd, hl⟩ <;>
    rcases hsum' with ⟨e', hadd', hl'⟩ | ⟨sum', hadd', hl'⟩ <;>
    rw [h.withdrawn, hadd] at hadd' <;> cases hadd' <;> rw [hl, hl']
  · refine ⟨⟨?_, ?_, ?_, ?_⟩, fun _ => rfl⟩
    · simpa using h.orders.later (s.now, s'.now)
    · simpa using h.withdrawals.later (s.now, s'.now)
    · rw [current_withBalance (openBalance_user s' user l'),
        current_withBalance (openBalance_user s user l), if_pos rfl, if_pos rfl]
    · rw [withdrawn_withBalance (openBalance_user s' user l'),
        withdrawn_withBalance (openBalance_user s user l), if_pos rfl, if_pos rfl]
      simpa using h.withdrawn
  · refine ⟨⟨?_, ?_, ?_, ?_⟩, fun _ => rfl⟩
    · simpa using h.orders.later (s.now, s'.now)
    · have hconcat := h.withdrawals.concat (a := ⟨s.recordId, user, number, amount, s.now⟩)
        (b := ⟨s'.recordId, user, number, amount, s'.now⟩) rfl
      simpa using hconcat
    · rw [current_paid, current_paid, if_pos rfl, if_pos rfl]
    · rw [withdrawn_paid, withdrawn_paid, if_pos rfl, if_pos rfl]

theorem Alike.debit (h : Alike user rename calls l l') (u number : String) (amount : Decimal) :
    Matches user rename (calls ++ [(s.now, s'.now)]) (u = user)
      ((Operation.debit u number amount).on s l) ((Operation.debit u number amount).on s' l') := by
  by_cases hu : u = user
  · subst hu
    exact h.debit_own number amount _
  · exact ⟨h.unseen (sameFor_debit (.inl hu)) (sameFor_debit (.inl hu)) _, (absurd · hu)⟩

theorem Alike.withdraw (h : Alike user rename calls l l') (u number : String) (amount : Decimal) :
    Matches user rename (calls ++ [(s.now, s'.now)]) (u = user)
      ((Operation.withdraw u number amount).on s l)
      ((Operation.withdraw u number amount).on s' l') := by
  rw [Operation.withdraw_on, Operation.withdraw_on]
  split_ifs
  · exact h.debit u number amount
  · exact ⟨h.later _, fun _ => rfl⟩
  · exact ⟨h.later _, fun _ => rfl⟩

theorem Alike.balance (h : Alike user rename calls l l') (u : String) :
    Matches user rename (calls ++ [(s.now, s'.now)]) (u = user)
      ((Operation.balance u).on s l) ((Operation.balance u).on s' l') := by
  -- A balance that is opened now shows the same points as one without a history.
  have hbare (s : Stamp) (l : Ledger) : (l.openBalance s user).1.bare =
      ⟨default, user, l.current user, l.withdrawn user, default, default⟩ := by
    rw [Balance.bare, openBalance_user, openBalance_current, openBalance_withdrawn]
  refine ⟨h.unseen (sameFor_openBalance s user u l) (sameFor_openBalance s' user u l') _, ?_⟩
  rintro rfl
  show Except.ok (Reply.balance (l.openBalance s u).1.bare) =
    Except.ok (Reply.balance (l'.openBalance s' u).1.bare)
  rw [hbare, hbare, h.current, h.withdrawn]

theorem IsTwin.bare_eq {o o' : Order} (h : IsTwin user rename o o') (howner : o.user = user) :
    o.bare = o'.bare := by
  rw [Order.bare, Order.bare, h.number_eq, h.user_eq, h.status_eq howner, h.accrual_eq howner]

theorem Alike.userOrder (h : Alike user rename calls l l') (number : String) :
    (l.userOrder user number).map Order.bare = (l'.userOrder user number).map Order.bare := by
  -- Owner and number are what twins have in common whoever owns them.
  have hlook : Option.Rel (IsTwin user rename) (l.userOrder user number)
      (l'.userOrder user number) :=
    h.orders.find? fun o o' ho => by rw [ho.number_eq, ho.user_eq]
  generalize hfound : l.userOrder user number = found at hlook
  generalize l'.userOrder user number = found' at hlook
  cases hlook with
  | none => rfl
  | @some o o' ho =>
    have howner : o.number = number ∧ o.user = user := by simpa using List.find?_some hfound
    rw [Option.map_some, Option.map_some, ho.bare_eq howner.2]

theorem Alike.userOrders (h : Alike user rename calls l l') (hcalls : calls.Pairwise Agree) :
    (l.userOrders user).map Order.bare = (l'.userOrders user).map Order.bare := by
  have hown := h.orders.filter (p := fun o => o.user == user) (q := fun o => o.user == user)
    fun o o' ho => by rw [ho.user_eq]
  exact hown.sort hcalls fun o o' ho => ho.1.bare_eq (beq_iff_eq.mp ho.2)

theorem Alike.userWithdrawals (h : Alike user rename calls l l') (hcalls : calls.Pairwise Agree) :
    (l.userWithdrawals user).map Withdrawal.bare =
      (l'.userWithdrawals user).map Withdrawal.bare :=
  h.withdrawals.sort hcalls fun _ _ hw => hw

/-- A call that stays keeps the ledgers alike, and answers the user alike. -/
theorem Alike.on (h : Alike user rename calls l l') (hcalls : calls.Pairwise Agree)
    (hinj : Function.Injective rename) (hid : s'.recordId = rename s.recordId) (op : Operation) :
    Matches user rename (calls ++ [(s.now, s'.now)]) (op.Concerns user l) (op.on s l)
      ((op.renamed rename).on s' l') := by
  cases op with
  | submit u number => exact h.submit hid u number _
  | createOrder u number => exact h.createOrder hid u number _
  | orderByNumber number => exact ⟨h.later _, nofun⟩
  | userOrder u number =>
    refine ⟨h.later _, ?_⟩
    rintro rfl
    exact congrArg (fun o => Except.ok (Reply.found o)) (h.userOrder number)
  | userOrders u =>
    refine ⟨h.later _, ?_⟩
    rintro rfl
    exact congrArg (fun os => Except.ok (Reply.orders os)) (h.userOrders hcalls)
  | pendingOrders after limit => exact ⟨h.later _, nofun⟩
  | markOrders ids status => exact h.markOrders hinj ids status
  | accrue c => exact h.accrue c
  | balance u => exact h.balance u
  | withdraw u number amount => exact h.withdraw u number amount
  | debit u number amount => exact h.debit u number amount
  | withdrawals u =>
    refine ⟨h.later _, ?_⟩
    rintro rfl
    exact congrArg (fun ws => Except.ok (Reply.withdrawals ws)) (h.userWithdrawals hcalls)

end alike

end Ledger

end LoyaltyPoints
