import LoyaltyPoints.Ledger.Store
import LoyaltyPoints.Proofs.Decimal.Sum

/-! # Ledger: what its operations write

    A ledger is looked at in three ways: by the points that a user has and has withdrawn, by the
    order that has a number, and by the list of withdrawals. A user without a balance has and has
    withdrawn nothing, so that opening a balance is not seen. For each operation there is one
    lemma that lists all it can do; nothing behind this module unfolds an operation again. -/

namespace LoyaltyPoints

/-- A terminal status is never left. -/
theorem OrderStatus.isTerminal_of_canBecome {a b : OrderStatus} (h : a.canBecome b = true) :
    a.isTerminal = false := by
  cases a <;> cases b <;> first | rfl | cases h

namespace Ledger

/-! ## Balances -/

/-- The points that a user can spend. -/
def current (user : String) (l : Ledger) : Decimal :=
  ((l.balance? user).map (·.current)).getD .zero

/-- The points that a user has spent. -/
def withdrawn (user : String) (l : Ledger) : Decimal :=
  ((l.balance? user).map (·.withdrawn)).getD .zero

theorem current_eq {user : String} {l : Ledger} {b : Balance} (h : l.balance? user = some b) :
    l.current user = b.current := by
  simp [current, h]

theorem withdrawn_eq {user : String} {l : Ledger} {b : Balance} (h : l.balance? user = some b) :
    l.withdrawn user = b.withdrawn := by
  simp [withdrawn, h]

theorem user_of_balance? {user : String} {l : Ledger} {b : Balance}
    (h : l.balance? user = some b) : b.user = user := by
  simpa using List.find?_some h

@[simp] theorem openBalance_orders (s : Stamp) (user : String) (l : Ledger) :
    (l.openBalance s user).2.orders = l.orders := by
  unfold openBalance
  split <;> rfl

@[simp] theorem openBalance_withdrawals (s : Stamp) (user : String) (l : Ledger) :
    (l.openBalance s user).2.withdrawals = l.withdrawals := by
  unfold openBalance
  split <;> rfl

/-- Opening a balance leaves a zero balance where there was none. -/
theorem openBalance_fst (s : Stamp) (user : String) (l : Ledger) :
    l.balance? user = some (l.openBalance s user).1 ∨
      (l.balance? user = none ∧
        (l.openBalance s user).1 = Balance.opened s.balanceId user s.now) := by
  unfold openBalance
  cases h : l.balance? user <;> simp

theorem openBalance_of_some {s : Stamp} {user : String} {l : Ledger} {b : Balance}
    (h : l.balance? user = some b) : l.openBalance s user = (b, l) := by
  simp [openBalance, h]

theorem openBalance_of_none {s : Stamp} {user : String} {l : Ledger}
    (h : l.balance? user = none) : l.openBalance s user =
      (Balance.opened s.balanceId user s.now,
        { l with balances := l.balances ++ [Balance.opened s.balanceId user s.now] }) := by
  simp [openBalance, h]

theorem balance?_openBalance (s : Stamp) (user v : String) (l : Ledger) :
    (l.openBalance s user).2.balance? v =
      if v = user then some (l.openBalance s user).1 else l.balance? v := by
  cases h : l.balance? user with
  | some b =>
    rw [openBalance_of_some h]
    split
    · next hv => rw [hv, h]
    · rfl
  | none =>
    rw [openBalance_of_none h]
    by_cases hv : v = user
    · subst hv
      have hfind : List.find? (fun b => b.user == v) l.balances = none := h
      simp [balance?, Balance.opened, hfind]
    · have hne : ¬ user = v := fun heq => hv heq.symm
      simp [balance?, Balance.opened, hv, hne]

@[simp] theorem openBalance_user (s : Stamp) (user : String) (l : Ledger) :
    (l.openBalance s user).1.user = user := by
  rcases openBalance_fst s user l with h | ⟨-, h⟩
  · exact user_of_balance? h
  · rw [h]
    rfl

@[simp] theorem openBalance_current (s : Stamp) (user : String) (l : Ledger) :
    (l.openBalance s user).1.current = l.current user := by
  rcases openBalance_fst s user l with h | ⟨hnone, h⟩
  · exact (current_eq h).symm
  · rw [h, current, hnone]
    rfl

@[simp] theorem openBalance_withdrawn (s : Stamp) (user : String) (l : Ledger) :
    (l.openBalance s user).1.withdrawn = l.withdrawn user := by
  rcases openBalance_fst s user l with h | ⟨hnone, h⟩
  · exact (withdrawn_eq h).symm
  · rw [h, withdrawn, hnone]
    rfl

@[simp] theorem current_openBalance (s : Stamp) (user v : String) (l : Ledger) :
    (l.openBalance s user).2.current v = l.current v := by
  by_cases h : v = user
  · subst h
    rw [current_eq (by rw [balance?_openBalance, if_pos rfl]), openBalance_current]
  · rw [current, balance?_openBalance, if_neg h, current]

@[simp] theorem withdrawn_openBalance (s : Stamp) (user v : String) (l : Ledger) :
    (l.openBalance s user).2.withdrawn v = l.withdrawn v := by
  by_cases h : v = user
  · subst h
    rw [withdrawn_eq (by rw [balance?_openBalance, if_pos rfl]), openBalance_withdrawn]
  · rw [withdrawn, balance?_openBalance, if_neg h, withdrawn]

@[simp] theorem putBalance_orders (b : Balance) (l : Ledger) :
    (l.putBalance b).orders = l.orders := rfl

@[simp] theorem putBalance_withdrawals (b : Balance) (l : Ledger) :
    (l.putBalance b).withdrawals = l.withdrawals := rfl

/-- A balance that is put replaces the one of its user, and no other. -/
theorem balance?_putBalance (b : Balance) (v : String) (l : Ledger) :
    (l.putBalance b).balance? v =
      if v = b.user then (l.balance? v).map fun _ => b else l.balance? v := by
  -- The replacement keeps the user of each balance, so it is found where it was.
  have hkey : ((fun a : Balance => a.user == v) ∘ fun a => if a.user == b.user then b else a) =
      fun a => a.user == v := by
    funext a
    by_cases h : a.user = b.user <;> simp [h]
  simp only [balance?, putBalance, List.find?_map, hkey]
  cases h : l.balances.find? (·.user == v) with
  | none => simp
  | some a =>
    have hv : a.user = v := by simpa using List.find?_some h
    by_cases hb : v = b.user <;> simp [hv, hb]

/-- The balance of a user, opened if there is none and then changed by `f`. -/
def withBalance (s : Stamp) (user : String) (f : Balance → Balance) (l : Ledger) : Ledger :=
  (l.openBalance s user).2.putBalance (f (l.openBalance s user).1)

section withBalance

variable {s : Stamp} {user v : String} {f : Balance → Balance} {l : Ledger}

@[simp] theorem withBalance_orders : (l.withBalance s user f).orders = l.orders := by
  simp [withBalance]

@[simp] theorem withBalance_withdrawals :
    (l.withBalance s user f).withdrawals = l.withdrawals := by
  simp [withBalance]

theorem balance?_withBalance (hf : (f (l.openBalance s user).1).user = user) (v : String) :
    (l.withBalance s user f).balance? v =
      if v = user then some (f (l.openBalance s user).1) else l.balance? v := by
  rw [withBalance, balance?_putBalance, hf, balance?_openBalance]
  split <;> simp

theorem current_withBalance (hf : (f (l.openBalance s user).1).user = user) (v : String) :
    (l.withBalance s user f).current v =
      if v = user then (f (l.openBalance s user).1).current else l.current v := by
  rw [current, balance?_withBalance hf]
  split <;> simp [current]

theorem withdrawn_withBalance (hf : (f (l.openBalance s user).1).user = user) (v : String) :
    (l.withBalance s user f).withdrawn v =
      if v = user then (f (l.openBalance s user).1).withdrawn else l.withdrawn v := by
  rw [withdrawn, balance?_withBalance hf]
  split <;> simp [withdrawn]

end withBalance

/-! ## Orders -/

theorem number_of_orderByNumber {number : String} {l : Ledger} {o : Order}
    (h : l.orderByNumber number = some o) : o.number = number := by
  simpa using List.find?_some h

theorem mem_of_orderByNumber {number : String} {l : Ledger} {o : Order}
    (h : l.orderByNumber number = some o) : o ∈ l.orders :=
  List.mem_of_find?_eq_some h

theorem orderByNumber_eq_none_iff {number : String} {l : Ledger} :
    l.orderByNumber number = none ↔ number ∉ l.orders.map (·.number) := by
  simp [orderByNumber]

/-- An update changes one order in its place: the first one that has the number. -/
theorem updateOrder_eq {number : String} (f : Order → Order) {os : List Order} {o : Order}
    (h : os.find? (·.number == number) = some o) :
    ∃ before after, os = before ++ o :: after ∧
      updateOrder number f os = before ++ f o :: after := by
  induction os with
  | nil => cases h
  | cons x xs ih =>
    by_cases hx : x.number = number
    · have hxo : x = o := by simpa [hx] using h
      subst hxo
      exact ⟨[], xs, by simp, by simp [updateOrder, hx]⟩
    · have hfind : xs.find? (·.number == number) = some o := by simpa [hx] using h
      obtain ⟨before, after, hxs, hupdate⟩ := ih hfind
      exact ⟨x :: before, after, by simp [hxs], by simp [updateOrder, hx, hupdate]⟩

/-- An update is seen by its number only, and there it is seen at once. -/
theorem find?_updateOrder {number : String} {f : Order → Order} (hf : ∀ o, (f o).number = o.number)
    (os : List Order) (n : String) : (updateOrder number f os).find? (·.number == n) =
      if n = number then (os.find? (·.number == n)).map f else os.find? (·.number == n) := by
  induction os with
  | nil => simp [updateOrder]
  | cons o os ih =>
    by_cases ho : o.number = number
    · by_cases hn : n = number
      · simp [updateOrder, ho, hn, hf]
      · have hne : ¬ number = n := fun heq => hn heq.symm
        simp [updateOrder, ho, hn, hne, hf]
    · by_cases hfound : o.number = n
      · have hn : ¬ n = number := fun heq => ho (hfound.trans heq)
        simp [updateOrder, hfound, hn]
      · simp [updateOrder, ho, hfound, ih]

/-- If the numbers are different, the order with this number is the only one that changes. -/
theorem updateOrder_of_nodup {number : String} (f : Order → Order) {os : List Order}
    (h : (os.map (·.number)).Nodup) :
    updateOrder number f os = os.map fun o => if o.number == number then f o else o := by
  induction os with
  | nil => rfl
  | cons x xs ih =>
    obtain ⟨hx, hxs⟩ := List.nodup_cons.mp h
    rw [updateOrder, List.map_cons]
    split
    · next hnumber =>
      have hothers : ∀ o ∈ xs, ¬ (o.number == number) = true := by
        intro o ho heq
        refine hx ?_
        show x.number ∈ xs.map (·.number)
        rw [beq_iff_eq.mp hnumber, ← beq_iff_eq.mp heq]
        exact List.mem_map_of_mem ho
      congr 1
      refine ((List.map_congr_left fun o ho => ?_).trans (List.map_id xs)).symm
      rw [if_neg (hothers o ho), id]
    · rw [ih hxs]

/-- A processed order is neither marked nor settled again. -/
theorem status_ne_of_isMarked {ids : List Uuid} {status : OrderStatus} {o : Order}
    (h : isMarked ids status o = true) : o.status ≠ .processed := by
  intro hprocessed
  simp only [isMarked, Bool.and_eq_true] at h
  have hterminal := OrderStatus.isTerminal_of_canBecome h.2
  rw [hprocessed] at hterminal
  cases hterminal

theorem status_ne_of_settles {c : Credit} {o : Order} (h : settles c o = true) :
    o.status ≠ .processed := by
  intro hprocessed
  simp only [settles, Bool.and_eq_true] at h
  have hterminal := OrderStatus.isTerminal_of_canBecome h.2
  rw [hprocessed] at hterminal
  cases hterminal

/-- A credit settles the pending orders of its user. -/
theorem settles_iff {c : Credit} {o : Order} :
    settles c o = true ↔ o.user = c.user ∧ o.isPending = true := by
  have hstatus : o.status.canBecome .processed = o.isPending := by
    unfold Order.isPending
    cases o.status <;> rfl
  rw [settles, Bool.and_eq_true, beq_iff_eq, hstatus]

/-- What a credit makes of the order that it settles. -/
def settledBy (c : Credit) (o : Order) : Order :=
  { o with status := .processed, accrual := c.amount }

/-- The ledger in which the order of a credit is settled, and its points are not added yet. -/
def settled (c : Credit) (l : Ledger) : Ledger :=
  { l with orders := updateOrder c.number (settledBy c) l.orders }

/-- A settled order stays in its place, among the others as they were. -/
theorem settled_orders {c : Credit} {o : Order} {l : Ledger}
    (ho : l.orderByNumber c.number = some o) :
    ∃ before after, l.orders = before ++ o :: after ∧
      (l.settled c).orders = before ++ settledBy c o :: after :=
  updateOrder_eq (settledBy c) ho

/-- Only the order of the credit is found settled. -/
theorem orderByNumber_settled (c : Credit) (l : Ledger) (number : String) :
    (l.settled c).orderByNumber number = if number = c.number then
      (l.orderByNumber number).map (settledBy c) else l.orderByNumber number :=
  find?_updateOrder (f := settledBy c) (fun _ => rfl) l.orders number

/-- The ledger in which the orders with these ids that are pending are marked. -/
def marked (ids : List Uuid) (status : OrderStatus) (l : Ledger) : Ledger :=
  { l with orders := l.orders.map fun o => if isMarked ids status o then { o with status } else o }

@[simp] theorem current_settled (c : Credit) (user : String) (l : Ledger) :
    (l.settled c).current user = l.current user := rfl

@[simp] theorem withdrawn_settled (c : Credit) (user : String) (l : Ledger) :
    (l.settled c).withdrawn user = l.withdrawn user := rfl

@[simp] theorem settled_withdrawals (c : Credit) (l : Ledger) :
    (l.settled c).withdrawals = l.withdrawals := rfl

/-! ## The operations -/

/-- An order is stored if its number is new, and nothing happens if it is not. -/
theorem createOrder_cases (s : Stamp) (user number : String) (l : Ledger) :
    (l.orderByNumber number = none ∧ l.createOrder s user number =
      (.ok (Order.submitted s.recordId user number s.now),
        { l with orders := l.orders ++ [Order.submitted s.recordId user number s.now] })) ∨
    (∃ o, l.orderByNumber number = some o ∧
      l.createOrder s user number = (.error (.error (.duplicateOrderNumber number)), l)) := by
  unfold createOrder orderByNumber
  cases h : l.orders.find? (·.number == number) with
  | none =>
    have hany : l.orders.any (·.number == number) = false := by
      simpa using h
    exact .inl ⟨rfl, by simp [hany]⟩
  | some o =>
    have hany : l.orders.any (·.number == number) = true :=
      List.any_eq_true.mpr ⟨o, List.mem_of_find?_eq_some h, by simpa using List.find?_some h⟩
    exact .inr ⟨o, rfl, by simp [hany]⟩

theorem markOrders_cases (ids : List Uuid) (status : OrderStatus) (l : Ledger) :
    (status.isMarkable = true ∧ l.markOrders ids status =
      (.ok (l.orders.countP (isMarked ids status)), l.marked ids status)) ∨
    (status.isMarkable = false ∧
      l.markOrders ids status = (.error (.error (.invalidTransition status)), l)) := by
  cases h : status.isMarkable <;> simp [markOrders, marked, h]

/-- The ledger after a credit: the order settled, the points added, the balance dated. -/
def credited (s : Stamp) (c : Credit) (current : Decimal) (l : Ledger) : Ledger :=
  (l.settled c).withBalance s c.user fun b => { b with current, updatedAt := s.now }

section credited

variable (s : Stamp) (c : Credit) (sum : Decimal) (l : Ledger)

@[simp] theorem credited_orders : (l.credited s c sum).orders = (l.settled c).orders := by
  simp [credited]

@[simp] theorem credited_withdrawals : (l.credited s c sum).withdrawals = l.withdrawals := by
  simp [credited]

theorem orderByNumber_credited (number : String) : (l.credited s c sum).orderByNumber number =
    if number = c.number then (l.orderByNumber number).map (settledBy c)
    else l.orderByNumber number := by
  rw [← orderByNumber_settled, orderByNumber, orderByNumber, credited_orders]

theorem balance?_credited_of_ne {v : String} (h : v ≠ c.user) :
    (l.credited s c sum).balance? v = l.balance? v := by
  rw [credited, balance?_withBalance (openBalance_user s c.user _), if_neg h]
  rfl

theorem current_credited (v : String) :
    (l.credited s c sum).current v = if v = c.user then sum else l.current v := by
  rw [credited, current_withBalance (openBalance_user s c.user _), current_settled]

@[simp] theorem withdrawn_credited (v : String) :
    (l.credited s c sum).withdrawn v = l.withdrawn v := by
  rw [credited, withdrawn_withBalance (openBalance_user s c.user _)]
  split
  · next hv => simp [hv]
  · rfl

end credited

/-- A credit settles nothing, or it adds its points, or the sum overflows behind the settlement. -/
theorem accrue_cases (s : Stamp) (c : Credit) (l : Ledger) :
    ((∀ o, l.orderByNumber c.number = some o → settles c o = false) ∧
      l.accrue s c = (.ok false, l)) ∨
    (∃ o, l.orderByNumber c.number = some o ∧ settles c o = true ∧
      ((∃ sum, (l.current c.user).add c.amount = .ok sum ∧
          l.accrue s c = (.ok true, l.credited s c sum)) ∨
        (∃ e, (l.current c.user).add c.amount = .error e ∧
          l.accrue s c = (.error (.overflow e), ((l.settled c).openBalance s c.user).2)))) := by
  cases ho : l.orderByNumber c.number with
  | none => exact .inl ⟨by simp, by simp [accrue, ho]⟩
  | some o =>
    cases hs : settles c o with
    | false => exact .inl ⟨by simp [hs], by simp [accrue, ho, hs]⟩
    | true =>
      refine .inr ⟨o, rfl, hs, ?_⟩
      -- The settlement changes no balance, so the points are those the ledger showed before.
      have hopen : ((l.settled c).openBalance s c.user).1.current = l.current c.user := by simp
      unfold settled settledBy at hopen
      cases hadd : (l.current c.user).add c.amount with
      | ok sum =>
        rw [← hopen] at hadd
        refine .inl ⟨sum, rfl, ?_⟩
        simp only [accrue, ho, hs, if_true, hadd]
        rfl
      | error e =>
        rw [← hopen] at hadd
        refine .inr ⟨e, rfl, ?_⟩
        simp only [accrue, ho, hs, if_true, hadd]
        rfl

/-- Whether a credit finds an order that it settles. -/
def accepts (l : Ledger) (c : Credit) : Bool := (l.orderByNumber c.number).any (settles c)

theorem accepts_iff {l : Ledger} {c : Credit} :
    l.accepts c = true ↔ ∃ o, l.orderByNumber c.number = some o ∧ settles c o = true := by
  unfold accepts
  cases l.orderByNumber c.number <;> simp

section accepts

variable (s : Stamp) {l : Ledger} {c : Credit}

theorem accrue_of_not_accepts (h : l.accepts c = false) : l.accrue s c = (.ok false, l) := by
  rcases l.accrue_cases s c with ⟨-, heq⟩ | ⟨o, ho, hs, -⟩
  · exact heq
  · rw [accepts_iff.mpr ⟨o, ho, hs⟩] at h
    cases h

/-- What is done with a credit that is accepted is decided by the sum of the points. -/
theorem accrue_of_accepts (h : l.accepts c = true) :
    (∀ sum, (l.current c.user).add c.amount = .ok sum →
      l.accrue s c = (.ok true, l.credited s c sum)) ∧
    ∀ e, (l.current c.user).add c.amount = .error e →
      l.accrue s c = (.error (.overflow e), ((l.settled c).openBalance s c.user).2) := by
  obtain ⟨o, ho, hs⟩ := accepts_iff.mp h
  rcases l.accrue_cases s c with ⟨hnone, -⟩ | ⟨-, -, -, ⟨sum, hadd, heq⟩ | ⟨e, hadd, heq⟩⟩
  · rw [hnone o ho] at hs
    cases hs
  · rw [heq, hadd]
    refine ⟨?_, nofun⟩
    rintro _ ⟨⟩
    rfl
  · rw [heq, hadd]
    refine ⟨nofun, ?_⟩
    rintro _ ⟨⟩
    rfl

end accepts

/-- The ledger after a debit: the points moved, the balance dated, the withdrawal appended. -/
def paid (s : Stamp) (user number : String) (amount current withdrawn : Decimal) (l : Ledger) :
    Ledger :=
  { l.withBalance s user fun b => { b with current, withdrawn, updatedAt := s.now } with
    withdrawals := l.withdrawals ++ [⟨s.recordId, user, number, amount, s.now⟩] }

section paid

variable (s : Stamp) (user number : String) (amount rest sum : Decimal) (l : Ledger)

@[simp] theorem paid_orders : (l.paid s user number amount rest sum).orders = l.orders := by
  simp [paid]

@[simp] theorem paid_withdrawals : (l.paid s user number amount rest sum).withdrawals =
    l.withdrawals ++ [⟨s.recordId, user, number, amount, s.now⟩] := rfl

theorem balance?_paid_of_ne {v : String} (h : v ≠ user) :
    (l.paid s user number amount rest sum).balance? v = l.balance? v :=
  (balance?_withBalance
    (f := fun b => { b with current := rest, withdrawn := sum, updatedAt := s.now })
    (openBalance_user s user l) v).trans (if_neg h)

/-- Of the balance that pays, only the points and the time change. -/
theorem balance?_paid_self {b : Balance} (h : l.balance? user = some b) :
    (l.paid s user number amount rest sum).balance? user =
      some { b with current := rest, withdrawn := sum, updatedAt := s.now } := by
  have hput := balance?_withBalance
    (f := fun b => { b with current := rest, withdrawn := sum, updatedAt := s.now })
    (openBalance_user s user l) user
  rw [if_pos rfl, openBalance_of_some h] at hput
  exact hput

theorem current_paid (v : String) : (l.paid s user number amount rest sum).current v =
    if v = user then rest else l.current v :=
  current_withBalance
    (f := fun b => { b with current := rest, withdrawn := sum, updatedAt := s.now })
    (openBalance_user s user l) v

theorem withdrawn_paid (v : String) : (l.paid s user number amount rest sum).withdrawn v =
    if v = user then sum else l.withdrawn v :=
  withdrawn_withBalance
    (f := fun b => { b with current := rest, withdrawn := sum, updatedAt := s.now })
    (openBalance_user s user l) v

end paid

/-- A debit is refused, or it moves the points, or one of its two sums overflows. The second one
    does so when the first one has been written. -/
theorem debit_cases (s : Stamp) (user number : String) (amount : Decimal) (l : Ledger) :
    ((l.current user).lt amount = true ∧ l.debit s user number amount =
      (.error (.error (.insufficientFunds amount (l.current user))), (l.openBalance s user).2)) ∨
    ((l.current user).lt amount = false ∧
      ((∃ e, (l.current user).sub amount = .error e ∧
          l.debit s user number amount = (.error (.overflow e), (l.openBalance s user).2)) ∨
        (∃ rest, (l.current user).sub amount = .ok rest ∧
          ((∃ e, (l.withdrawn user).add amount = .error e ∧ l.debit s user number amount =
              (.error (.overflow e),
                l.withBalance s user fun b => { b with current := rest })) ∨
            (∃ sum, (l.withdrawn user).add amount = .ok sum ∧ l.debit s user number amount =
              (.ok ⟨s.recordId, user, number, amount, s.now⟩,
                l.paid s user number amount rest sum)))))) := by
  cases hlt : (l.current user).lt amount with
  | true => exact .inl ⟨rfl, by simp [debit, hlt]⟩
  | false =>
    refine .inr ⟨rfl, ?_⟩
    cases hsub : (l.current user).sub amount with
    | error e => exact .inl ⟨e, rfl, by simp [debit, hlt, hsub]⟩
    | ok rest =>
      refine .inr ⟨rest, rfl, ?_⟩
      cases hadd : (l.withdrawn user).add amount with
      | error e => exact .inl ⟨e, rfl, by simp [debit, hlt, hsub, hadd, withBalance]⟩
      | ok sum => exact .inr ⟨sum, rfl, by simp [debit, hlt, hsub, hadd, paid, withBalance]⟩

section covered

variable (s : Stamp) {user : String} (number : String) {amount : Decimal} {l : Ledger}

theorem debit_of_lt (h : (l.current user).lt amount = true) : l.debit s user number amount =
    (.error (.error (.insufficientFunds amount (l.current user))), (l.openBalance s user).2) := by
  rcases l.debit_cases s user number amount with ⟨-, heq⟩ | ⟨hge, -⟩
  · exact heq
  · rw [h] at hge
    cases hge

/-- What is done by a debit that is covered is decided by what is left, and then by the sum of what
    was withdrawn. -/
theorem debit_of_covered (h : (l.current user).lt amount = false) :
    (∀ e, (l.current user).sub amount = .error e →
      l.debit s user number amount = (.error (.overflow e), (l.openBalance s user).2)) ∧
    ∀ rest, (l.current user).sub amount = .ok rest →
      (∀ e, (l.withdrawn user).add amount = .error e → l.debit s user number amount =
        (.error (.overflow e), l.withBalance s user fun b => { b with current := rest })) ∧
      ∀ sum, (l.withdrawn user).add amount = .ok sum → l.debit s user number amount =
        (.ok ⟨s.recordId, user, number, amount, s.now⟩, l.paid s user number amount rest sum) := by
  rcases l.debit_cases s user number amount with
    ⟨hlt, -⟩ | ⟨-, ⟨e, hsub, heq⟩ | ⟨rest, hsub, ⟨e, hadd, heq⟩ | ⟨sum, hadd, heq⟩⟩⟩
  · rw [h] at hlt
    cases hlt
  · rw [hsub, heq]
    refine ⟨?_, nofun⟩
    rintro _ ⟨⟩
    rfl
  · rw [hsub, hadd, heq]
    refine ⟨nofun, ?_⟩
    rintro _ ⟨⟩
    refine ⟨?_, nofun⟩
    rintro _ ⟨⟩
    rfl
  · rw [hsub, hadd, heq]
    refine ⟨nofun, ?_⟩
    rintro _ ⟨⟩
    refine ⟨nofun, ?_⟩
    rintro _ ⟨⟩
    rfl

end covered

end Ledger

end LoyaltyPoints
