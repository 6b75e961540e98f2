import LoyaltyPoints.Submission
import LoyaltyPoints.Withdrawing
import LoyaltyPoints.Proofs.Ledger.Writes

/-! # Ledger: runs of operations

    Clients, workers and the sweeper act on a ledger by calls of the services and of the ledger
    itself, in any order. A run performs a list of them and remembers what each one answered; a
    call that fails or overflows does not end it. `Effect` lists all that one call can do to a
    ledger together with its answer, and `run_induction` carries a statement over a whole run. -/

namespace LoyaltyPoints

/-! ## Calls -/

/-- A call of a service or of the store below it. -/
inductive Operation where
  /-- Submits an order by the service, which judges its number first. -/
  | submit (user number : String)
  | createOrder (user number : String)
  | orderByNumber (number : String)
  | userOrder (user number : String)
  | userOrders (user : String)
  | pendingOrders (after : Option Position) (limit : Int)
  | markOrders (ids : List Uuid) (status : OrderStatus)
  | accrue (c : Credit)
  | balance (user : String)
  /-- Withdraws by the service, which judges number and amount first. -/
  | withdraw (user number : String) (amount : Decimal)
  | debit (user number : String) (amount : Decimal)
  | withdrawals (user : String)

/-- What a call returns. -/
inductive Reply where
  | order (o : Order)
  | found (o : Option Order)
  | orders (os : List Order)
  | count (n : Nat)
  | flag (b : Bool)
  | balance (b : Balance)
  | withdrawal (w : Withdrawal)
  | withdrawals (ws : List Withdrawal)

/-- What the caller of the withdrawal service gets. -/
def Reply.ofOutcome (o : WithdrawalOutcome) : Except Fault Reply :=
  match o.result with
  | .ok w => .ok (.withdrawal w)
  | .error e => .error (.error e)

namespace Operation

variable {σ : Type}

/-- Performs an action and wraps up what it returns. -/
def answer {α : Type} (a : Action σ α) (reply : α → Reply) (s : σ) : Except Fault Reply × σ :=
  ((a.perform s).1.map reply, (a.perform s).2)

/-- Performs a call: what it returns, and the state behind it. -/
def perform (store : Store σ) (op : Operation) (s : σ) : Except Fault Reply × σ :=
  match op with
  | .submit user number => answer (Submission.submit store user number) .order s
  | .createOrder user number => answer (store.createOrder user number) .order s
  | .orderByNumber number => answer (store.orderByNumber number) .found s
  | .userOrder user number => answer (store.userOrder user number) .found s
  | .userOrders user => answer (store.userOrders user) .orders s
  | .pendingOrders after limit => answer (store.pendingOrders after limit) .orders s
  | .markOrders ids status => answer (store.markOrders ids status) .count s
  | .accrue c => answer (store.accrue c) .flag s
  | .balance user => answer (store.balance user) .balance s
  | .withdraw user number amount =>
    let (r, s) := (LoyaltyPoints.withdraw store user number amount).perform s
    (r.bind Reply.ofOutcome, s)
  | .debit user number amount => answer (store.debit user number amount) .withdrawal s
  | .withdrawals user => answer (store.withdrawals user) .withdrawals s

/-- Whether a call takes points from a balance, once its arguments have been judged. -/
def Debits (op : Operation) (user number : String) (amount : Decimal) : Prop :=
  op = .debit user number amount ∨
    (op = .withdraw user number amount ∧ isWithdrawable amount = true)

theorem Debits.ne_accrue {op : Operation} {user number : String} {amount : Decimal}
    (h : op.Debits user number amount) (c : Credit) : op ≠ .accrue c := by
  rintro rfl
  rcases h with h | ⟨h, -⟩ <;> cases h

end Operation

/-! ## Runs -/

/-- A call that was made, and what it returned. -/
structure Event where
  operation : Operation
  answer : Except Fault Reply

/-- Whether an amount left the range of decimals in a call. -/
def Event.IsOverflow (e : Event) : Prop := ∃ o, e.answer = .error (.overflow o)

/-- A run so far: the calls made, the first one first, and the state behind the last one. -/
structure Run (σ : Type) where
  events : List Event
  state : σ

namespace Run

variable {σ : Type}

/-- The run with one more call. -/
def next (store : Store σ) (r : Run σ) (op : Operation) : Run σ :=
  ⟨r.events ++ [⟨op, (op.perform store r.state).1⟩], (op.perform store r.state).2⟩

/-- The run that makes these calls on a state. -/
def ofCalls (store : Store σ) (s : σ) (ops : List Operation) : Run σ :=
  ops.foldl (next store) ⟨[], s⟩

@[simp] theorem ofCalls_nil (store : Store σ) (s : σ) : ofCalls store s [] = ⟨[], s⟩ := rfl

theorem ofCalls_concat (store : Store σ) (s : σ) (ops : List Operation) (op : Operation) :
    ofCalls store s (ops ++ [op]) = (ofCalls store s ops).next store op := by
  simp [ofCalls, List.foldl_append]

/-- A run keeps the events of the shorter runs it goes through. -/
theorem events_ofCalls_mono (store : Store σ) (s : σ) {p q : List Operation} (h : p <+: q) :
    (ofCalls store s p).events <+: (ofCalls store s q).events := by
  obtain ⟨rest, rfl⟩ := h
  induction rest using List.reverseRecOn with
  | nil => simp
  | append_singleton rest op ih =>
    rw [← List.append_assoc, ofCalls_concat]
    exact ih.trans (List.prefix_append _ _)

theorem operations_ofCalls (store : Store σ) (s : σ) (ops : List Operation) :
    (ofCalls store s ops).events.map (·.operation) = ops := by
  induction ops using List.reverseRecOn with
  | nil => rfl
  | append_singleton ops op ih => simp [ofCalls_concat, next, ih]

end Run

/-- The run of calls on an empty ledger that takes its stamps from a supply. -/
abbrev Ledger.run (supply : Nat → Stamp) (ops : List Operation) : Run LedgerState :=
  Run.ofCalls (LedgerState.storeOf supply) {} ops

/-! ## The services on a ledger -/

namespace LedgerState

variable (supply : Nat → Stamp) (st : LedgerState)

/-- A submission without anybody between its steps is refused for its number, or for the order that
    has this number, or it stores the order. -/
theorem submit_eq (user number : String) :
    (Submission.submit (storeOf supply) user number).perform st =
      if OrderNumber.isValid number = true then
        (st.ledger.orderByNumber number).elim
          (((storeOf supply).createOrder user number).perform st)
          fun o => (.error (.error (Submission.conflict o user)), st)
      else (.error (.error (.invalidOrderNumber number)), st) := by
  have hlookUp : ((storeOf supply).orderByNumber number).perform st =
      (.ok (st.ledger.orderByNumber number), st) := rfl
  have hcreate : ((storeOf supply).createOrder user number).perform st =
      ((st.ledger.createOrder (supply st.stamps) user number).1,
        ⟨(st.ledger.createOrder (supply st.stamps) user number).2, st.stamps + 1⟩) := rfl
  unfold Submission.submit
  rw [Action.perform_ofFun]
  cases hvalid : OrderNumber.isValid number with
  | false => simp [Submission.start, hvalid, Submission.step]
  | true =>
    cases ho : st.ledger.orderByNumber number with
    | some o => simp [Submission.start, hvalid, Submission.step, hlookUp, ho]
    | none =>
      rcases st.ledger.createOrder_cases (supply st.stamps) user number with ⟨-, h⟩ | ⟨o, h, -⟩
      · simp [Submission.start, hvalid, Submission.step, hlookUp, ho, hcreate, h]
      · rw [ho] at h
        cases h

theorem submit_cases (user number : String) :
    (∃ e, (Submission.submit (storeOf supply) user number).perform st = (.error (.error e), st)) ∨
    (st.ledger.orderByNumber number = none ∧
      (Submission.submit (storeOf supply) user number).perform st =
        ((storeOf supply).createOrder user number).perform st) := by
  rw [submit_eq]
  split
  · cases st.ledger.orderByNumber number with
    | none => exact .inr ⟨rfl, rfl⟩
    | some o => exact .inl ⟨_, rfl⟩
  · exact .inl ⟨_, rfl⟩

/-- A withdrawal by the service is refused for its number or its amount, or it is what the ledger
    makes of it. -/
theorem withdraw_eq (user number : String) (amount : Decimal) :
    Operation.perform (storeOf supply) (.withdraw user number amount) st =
      if OrderNumber.isValid number = true then
        if isWithdrawable amount = true then
          Operation.perform (storeOf supply) (.debit user number amount) st
        else (.error (.error (.invalidAmount amount)), st)
      else (.error (.error (.invalidOrderNumber number)), st) := by
  cases hvalid : OrderNumber.isValid number with
  | false =>
    simp only [Operation.perform, withdraw, hvalid, Bool.false_eq_true, if_false]
    rfl
  | true =>
    cases hw : isWithdrawable amount with
    | false =>
      simp only [Operation.perform, withdraw, hvalid, hw, Bool.false_eq_true, if_true, if_false]
      rfl
    | true =>
      simp only [Operation.perform, Operation.answer, withdraw, hvalid, hw, if_true,
        Action.perform_bind, Action.attempt, Action.perform_ofFun]
      rcases ((storeOf supply).debit user number amount).perform st with ⟨⟨e | o⟩ | w, st'⟩
      · cases e <;> rfl
      · rfl
      · rfl

theorem withdraw_cases (user number : String) (amount : Decimal) :
    (∃ e, Operation.perform (storeOf supply) (.withdraw user number amount) st =
      (.error (.error e), st)) ∨
    (isWithdrawable amount = true ∧
      Operation.perform (storeOf supply) (.withdraw user number amount) st =
        Operation.perform (storeOf supply) (.debit user number amount) st) := by
  rw [withdraw_eq]
  split_ifs with hvalid hw
  · exact .inr ⟨hw, rfl⟩
  · exact .inl ⟨_, rfl⟩
  · exact .inl ⟨_, rfl⟩

end LedgerState

/-! ## What a call does -/

namespace Ledger

/-- All that a call can do to a ledger, with what it returns then. -/
inductive Effect (l : Ledger) : Operation → Except Fault Reply → Ledger → Prop where
  /-- Nothing is written, by a look-up or a refusal. -/
  | quiet {op : Operation} {answer : Except Fault Reply}
      (hover : ∀ o, answer ≠ .error (.overflow o))
      (hcredit : ∀ c, op = .accrue c → answer = .ok (.flag false)) : Effect l op answer l
  /-- A balance is opened, and nothing else happens. -/
  | opened {op : Operation} {answer : Except Fault Reply} (s : Stamp) (user : String)
      (hover : ∀ o, answer ≠ .error (.overflow o)) (hcredit : ∀ c, op ≠ .accrue c) :
      Effect l op answer (l.openBalance s user).2
  /-- An order is stored under a number that is new. -/
  | stored {op : Operation} (s : Stamp) (user number : String)
      (hop : op = .submit user number ∨ op = .createOrder user number)
      (hnew : l.orderByNumber number = none) :
      Effect l op (.ok (.order (Order.submitted s.recordId user number s.now)))
        { l with orders := l.orders ++ [Order.submitted s.recordId user number s.now] }
  /-- Pending orders are marked. -/
  | marked (ids : List Uuid) (status : OrderStatus) (n : Nat) (hmark : status.isMarkable = true) :
      Effect l (.markOrders ids status) (.ok (.count n)) (l.marked ids status)
  /-- An order is settled and its points are added. -/
  | credited (s : Stamp) (c : Credit) (o : Order) (sum : Decimal)
      (ho : l.orderByNumber c.number = some o) (hs : settles c o = true)
      (hadd : (l.current c.user).add c.amount = .ok sum) :
      Effect l (.accrue c) (.ok (.flag true)) (l.credited s c sum)
  /-- An order is settled, and the sum of the points overflows. -/
  | creditLost (s : Stamp) (c : Credit) (o : Order) (e : Overflow)
      (ho : l.orderByNumber c.number = some o) (hs : settles c o = true)
      (hadd : (l.current c.user).add c.amount = .error e) :
      Effect l (.accrue c) (.error (.overflow e)) ((l.settled c).openBalance s c.user).2
  /-- Points are withdrawn. -/
  | paid {op : Operation} (s : Stamp) (user number : String) (amount rest sum : Decimal)
      (hop : op.Debits user number amount)
      (hle : amount.value ≤ (l.current user).value)
      (hsub : (l.current user).sub amount = .ok rest)
      (hadd : (l.withdrawn user).add amount = .ok sum) :
      Effect l op (.ok (.withdrawal ⟨s.recordId, user, number, amount, s.now⟩))
        (l.paid s user number amount rest sum)
  /-- The rest of the points overflows. -/
  | restLost {op : Operation} (s : Stamp) (user number : String) (amount : Decimal) (e : Overflow)
      (hop : op.Debits user number amount)
      (hle : amount.value ≤ (l.current user).value)
      (hsub : (l.current user).sub amount = .error e) :
      Effect l op (.error (.overflow e)) (l.openBalance s user).2
  /-- The points are taken away, and the sum of those withdrawn overflows. -/
  | sumLost {op : Operation} (s : Stamp) (user number : String) (amount rest : Decimal)
      (e : Overflow)
      (hop : op.Debits user number amount)
      (hle : amount.value ≤ (l.current user).value)
      (hsub : (l.current user).sub amount = .ok rest)
      (hadd : (l.withdrawn user).add amount = .error e) :
      Effect l op (.error (.overflow e)) (l.withBalance s user fun b => { b with current := rest })

/-- Taking points from a balance is one of the last four effects. -/
theorem debit_effect {op : Operation} (s : Stamp) (user number : String) (amount : Decimal)
    (l : Ledger) (hop : op.Debits user number amount) :
    Effect l op ((l.debit s user number amount).1.map .withdrawal)
      (l.debit s user number amount).2 := by
  rcases l.debit_cases s user number amount with
    ⟨-, h⟩ | ⟨hlt, ⟨e, hsub, h⟩ | ⟨rest, hsub, ⟨e, hadd, h⟩ | ⟨sum, hadd, h⟩⟩⟩ <;> rw [h]
  · exact .opened s user (by simp [Except.map]) hop.ne_accrue
  · exact .restLost s user number amount e hop ((Decimal.lt_eq_false_iff _ _).mp hlt) hsub
  · exact .sumLost s user number amount rest e hop ((Decimal.lt_eq_false_iff _ _).mp hlt) hsub hadd
  · exact .paid s user number amount rest sum hop ((Decimal.lt_eq_false_iff _ _).mp hlt) hsub hadd

/-- Storing an order is either refused or the effect that says so. -/
theorem createOrder_effect {op : Operation} (s : Stamp) (user number : String) (l : Ledger)
    (hop : op = .submit user number ∨ op = .createOrder user number) :
    Effect l op ((l.createOrder s user number).1.map .order) (l.createOrder s user number).2 := by
  rcases l.createOrder_cases s user number with ⟨hnew, h⟩ | ⟨o, -, h⟩ <;> rw [h]
  · exact .stored s user number hop hnew
  · refine .quiet (by simp [Except.map]) ?_
    rintro c rfl
    rcases hop with h | h <;> cases h

/-- Each call has one of the effects. -/
theorem perform_effect (supply : Nat → Stamp) (op : Operation) (st : LedgerState) :
    Effect st.ledger op (op.perform (LedgerState.storeOf supply) st).1
      (op.perform (LedgerState.storeOf supply) st).2.ledger := by
  cases op with
  | submit user number =>
    rcases LedgerState.submit_cases supply st user number with ⟨e, h⟩ | ⟨-, h⟩
    · simp only [Operation.perform, Operation.answer, h]
      exact .quiet (by simp [Except.map]) (by simp)
    · simp only [Operation.perform, Operation.answer, h]
      exact createOrder_effect (supply st.stamps) user number st.ledger (.inl rfl)
  | createOrder user number =>
    exact createOrder_effect (supply st.stamps) user number st.ledger (.inr rfl)
  | orderByNumber number => exact .quiet (by rintro o ⟨⟩) (by simp)
  | userOrder user number => exact .quiet (by rintro o ⟨⟩) (by simp)
  | userOrders user => exact .quiet (by rintro o ⟨⟩) (by simp)
  | pendingOrders after limit => exact .quiet (by rintro o ⟨⟩) (by simp)
  | withdrawals user => exact .quiet (by rintro o ⟨⟩) (by simp)
  | balance user => exact .opened (supply st.stamps) user (by rintro o ⟨⟩) (by simp)
  | markOrders ids status =>
    show Effect st.ledger _ ((st.ledger.markOrders ids status).1.map .count)
      (st.ledger.markOrders ids status).2
    rcases st.ledger.markOrders_cases ids status with ⟨hmark, h⟩ | ⟨-, h⟩ <;> rw [h]
    · exact .marked ids status _ hmark
    · exact .quiet (by simp [Except.map]) (by simp)
  | accrue c =>
    show Effect st.ledger _ ((st.ledger.accrue (supply st.stamps) c).1.map .flag)
      (st.ledger.accrue (supply st.stamps) c).2
    rcases st.ledger.accrue_cases (supply st.stamps) c with
      ⟨-, h⟩ | ⟨o, ho, hs, ⟨sum, hadd, h⟩ | ⟨e, hadd, h⟩⟩ <;> rw [h]
    · exact .quiet (by simp [Except.map]) (by simp [Except.map])
    · exact .credited _ c o sum ho hs hadd
    · exact .creditLost _ c o e ho hs hadd
  | withdraw user number amount =>
    rcases LedgerState.withdraw_cases supply st user number amount with ⟨e, h⟩ | ⟨hw, h⟩ <;>
      rw [h]
    · exact .quiet (by simp) (by simp)
    · exact debit_effect (supply st.stamps) user number amount st.ledger (.inr ⟨rfl, hw⟩)
  | debit user number amount =>
    exact debit_effect (supply st.stamps) user number amount st.ledger (.inl rfl)

/-- What holds at the start, and is kept by each effect, holds at the end of every run. -/
theorem run_induction {P : List Event → Ledger → Prop} (supply : Nat → Stamp) (hinit : P [] {})
    (hstep : ∀ events l op answer l', P events l → Effect l op answer l' →
      P (events ++ [⟨op, answer⟩]) l') (ops : List Operation) :
    P (run supply ops).events (run supply ops).state.ledger := by
  -- Runs grow at the end: the events before the last call are those of a run.
  induction ops using List.reverseRecOn with
  | nil => exact hinit
  | append_singleton ops op ih =>
    rw [run, Run.ofCalls_concat]
    exact hstep _ _ _ _ _ ih (perform_effect supply op _)

end Ledger

end LoyaltyPoints
