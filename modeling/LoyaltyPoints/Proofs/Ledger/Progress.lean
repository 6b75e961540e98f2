import LoyaltyPoints.Proofs.Ledger.Listing
import LoyaltyPoints.Proofs.Ledger.Omission

/-! # Ledger: late marks

    The oracle is asked about an order again and again, and an answer that it is at work on the
    order can be applied when a later answer has been applied already. Such a mark reaches an order
    that is pending, and says no more of it than that it has been begun, or it reaches nothing.

    An order as if it had not been begun stands for both here. A call on a ledger does the same to
    the ledger in which no order has been begun, and a late mark is not seen there at all. So two
    runs, one of which has any number of late marks in between, go through ledgers that differ in
    nothing else, and every call is answered alike. -/

namespace LoyaltyPoints

/-! ## Orders as if not begun -/

/-- The status without the knowledge whether the oracle is at work. -/
def OrderStatus.unstarted : OrderStatus → OrderStatus
  | .processing => .new
  | status => status

namespace OrderStatus

theorem canBecome_unstarted {a b : OrderStatus} (h : b ≠ .new) :
    a.unstarted.canBecome b = a.canBecome b := by
  cases a with
  | processing => exact (bne_iff_ne.mpr h).symm
  | _ => rfl

/-- What is forgotten is which of the two pending statuses it is. -/
theorem unstarted_eq_iff {a b : OrderStatus} : a.unstarted = b.unstarted ↔
    a = b ∨ (a.isTerminal = false ∧ b.isTerminal = false) := by
  cases a <;> cases b <;> decide

@[simp] theorem unstarted_unstarted (a : OrderStatus) : a.unstarted.unstarted = a.unstarted := by
  cases a <;> rfl

end OrderStatus

namespace Order

/-- The order as if the oracle had not begun with it. -/
def unstarted (o : Order) : Order := { o with status := o.status.unstarted }

@[simp] theorem unstarted_unstarted (o : Order) : o.unstarted.unstarted = o.unstarted := by
  unfold unstarted
  rw [OrderStatus.unstarted_unstarted]

@[simp] theorem isPending_unstarted (o : Order) : o.unstarted.isPending = o.isPending := by
  unfold isPending unstarted
  cases o.status <;> rfl

/-- Two orders that differ in nothing but the status, and in the status only if both are pending. -/
structure SameButBegun (o o' : Order) : Prop where
  others : { o with status := o'.status } = o'
  status : o.status = o'.status ∨ (o.isPending = true ∧ o'.isPending = true)

theorem unstarted_eq_iff {o o' : Order} : o.unstarted = o'.unstarted ↔ o.SameButBegun o' := by
  have hstatus : o.status.unstarted = o'.status.unstarted ↔
      o.status = o'.status ∨ (o.isPending = true ∧ o'.isPending = true) := by
    rw [OrderStatus.unstarted_eq_iff, isPending, isPending, Bool.not_eq_true', Bool.not_eq_true']
  constructor
  · intro h
    refine ⟨?_, hstatus.mp (congrArg Order.status h)⟩
    obtain ⟨id, user, number, status, accrual, uploadedAt⟩ := o
    obtain ⟨id', user', number', status', accrual', uploadedAt'⟩ := o'
    simp only [unstarted, mk.injEq] at h
    obtain ⟨rfl, rfl, rfl, -, rfl, rfl⟩ := h
    rfl
  · intro h
    rw [← h.others]
    show { o with status := o.status.unstarted } = { o with status := o'.status.unstarted }
    rw [hstatus.mpr h.status]

theorem forall₂_sameButBegun_iff {os os' : List Order} :
    List.Forall₂ SameButBegun os os' ↔ os.map unstarted = os'.map unstarted := by
  rw [← List.forall₂_eq_eq_eq, List.forall₂_map_left_iff, List.forall₂_map_right_iff]
  simp only [unstarted_eq_iff]

end Order

/-- What a call returns, as if no order had been begun. -/
def Reply.unstarted : Reply → Reply
  | .found o => .found (o.map Order.unstarted)
  | .orders os => .orders (os.map Order.unstarted)
  | reply => reply

theorem Reply.unstarted_unstarted (reply : Reply) :
    reply.unstarted.unstarted = reply.unstarted := by
  cases reply with
  | found o => simp [unstarted, Function.comp_def]
  | orders os => simp [unstarted]
  | _ => rfl

/-- Whether a call returns orders as they are in the ledger. -/
def Operation.showsOrders : Operation → Bool
  | .orderByNumber _ | .userOrder _ _ | .userOrders _ | .pendingOrders _ _ => true
  | _ => false

namespace Ledger

/-- The ledger as if no order had been begun. -/
def unstarted (l : Ledger) : Ledger := { l with orders := l.orders.map Order.unstarted }

/-! ## Calls -/

section calls

variable (l : Ledger) (s : Stamp)

theorem orderByNumber_unstarted (number : String) :
    l.unstarted.orderByNumber number = (l.orderByNumber number).map Order.unstarted :=
  List.find?_map

theorem userOrder_unstarted (user number : String) :
    l.unstarted.userOrder user number = (l.userOrder user number).map Order.unstarted :=
  List.find?_map

theorem userOrders_unstarted (user : String) :
    l.unstarted.userOrders user = (l.userOrders user).map Order.unstarted := by
  have hfilter : l.unstarted.orders.filter (·.user == user) =
      (l.orders.filter (·.user == user)).map Order.unstarted := List.filter_map
  unfold userOrders
  rw [hfilter]
  -- The sort looks at the upload times, which are the same.
  refine (List.map_mergeSort ?_).symm
  intro o _ o' _
  rfl

theorem pendingOrders_unstarted (after : Option Position) (limit : ℤ) :
    l.unstarted.pendingOrders after limit =
      (l.pendingOrders after limit).map Order.unstarted := by
  have hkept : ((fun o => o.isPending && isBehind after o) ∘ Order.unstarted) =
      fun o => o.isPending && isBehind after o := by
    funext o
    rw [Function.comp_apply, Order.isPending_unstarted,
      isBehind_congr (show o.unstarted.position = o.position from rfl)]
  have hfilter : l.unstarted.orders.filter (fun o => o.isPending && isBehind after o) =
      (l.orders.filter fun o => o.isPending && isBehind after o).map Order.unstarted := by
    show (l.orders.map Order.unstarted).filter _ = _
    rw [List.filter_map, hkept]
  unfold pendingOrders pendingBehind
  rw [hfilter, List.map_take]
  refine congrArg (List.take _) (List.map_mergeSort ?_).symm
  intro o _ o' _
  rfl

theorem createOrder_unstarted (user number : String) : l.unstarted.createOrder s user number =
    ((l.createOrder s user number).1, (l.createOrder s user number).2.unstarted) := by
  rcases l.createOrder_cases s user number with ⟨hnone, hl⟩ | ⟨o, ho, hl⟩ <;>
    rcases l.unstarted.createOrder_cases s user number with ⟨hnone', hl'⟩ | ⟨o', ho', hl'⟩ <;>
    rw [hl, hl']
  · simp [unstarted, Order.unstarted, OrderStatus.unstarted, Order.submitted]
  · rw [orderByNumber_unstarted, hnone] at ho'
    cases ho'
  · rw [orderByNumber_unstarted, ho] at hnone'
    cases hnone'

theorem isMarked_unstarted {status : OrderStatus} (h : status ≠ .new) (ids : List Uuid)
    (o : Order) : isMarked ids status o.unstarted = isMarked ids status o := by
  show (ids.contains o.id && o.status.unstarted.canBecome status) = _
  rw [OrderStatus.canBecome_unstarted h, isMarked]

/-- A mark reaches as many orders, and the same ones. -/
theorem markOrders_unstarted (ids : List Uuid) (status : OrderStatus) :
    (l.unstarted.markOrders ids status).1 = (l.markOrders ids status).1 ∧
      (l.unstarted.markOrders ids status).2.unstarted =
        (l.markOrders ids status).2.unstarted := by
  rcases l.markOrders_cases ids status with ⟨hmark, hl⟩ | ⟨hmark, hl⟩ <;>
    rcases l.unstarted.markOrders_cases ids status with ⟨hmark', hl'⟩ | ⟨hmark', hl'⟩ <;>
    rw [hl, hl']
  · have hne : status ≠ .new := by
      rintro rfl
      cases hmark
    have hreached := isMarked_unstarted hne ids
    refine ⟨?_, ?_⟩
    · show Except.ok ((l.orders.map Order.unstarted).countP _) = _
      rw [List.countP_map]
      exact congrArg (fun p => Except.ok (l.orders.countP p)) (funext hreached)
    · simp only [unstarted, marked, List.map_map]
      congr 1
      refine List.map_congr_left fun o _ => ?_
      simp only [Function.comp_apply, hreached]
      split
      · rfl
      · rw [Order.unstarted_unstarted]
  · cases hmark.symm.trans hmark'
  · cases hmark.symm.trans hmark'
  · refine ⟨rfl, ?_⟩
    simp [unstarted]

/-- A late mark is not seen. -/
theorem marked_unstarted (ids : List Uuid) :
    (l.marked ids .processing).unstarted = l.unstarted := by
  simp only [unstarted, marked, List.map_map]
  congr 1
  refine List.map_congr_left fun o _ => ?_
  rw [Function.comp_apply]
  split
  · next hreached =>
    -- Only an order that is pending is reached.
    have hpending : o.isPending = true := by
      rw [isMarked, Bool.and_eq_true] at hreached
      rw [Order.isPending, OrderStatus.isTerminal_of_canBecome hreached.2]
      rfl
    exact Order.unstarted_eq_iff.mpr ⟨rfl, .inr ⟨rfl, hpending⟩⟩
  · rfl

theorem settles_unstarted (c : Credit) (o : Order) : settles c o.unstarted = settles c o := by
  rw [Bool.eq_iff_iff, settles_iff, settles_iff, Order.isPending_unstarted]
  rfl

theorem settled_unstarted (c : Credit) : l.unstarted.settled c = (l.settled c).unstarted := by
  have hupdate (os : List Order) :
      updateOrder c.number (settledBy c) (os.map Order.unstarted) =
        (updateOrder c.number (settledBy c) os).map Order.unstarted := by
    induction os with
    | nil => rfl
    | cons o os ih =>
      rw [List.map_cons, updateOrder, updateOrder, ih]
      split <;> split <;> first | rfl | contradiction
  exact congrArg (fun os => ({ l with orders := os } : Ledger)) (hupdate l.orders)

theorem openBalance_unstarted (user : String) : l.unstarted.openBalance s user =
    ((l.openBalance s user).1, (l.openBalance s user).2.unstarted) := by
  cases h : l.balance? user with
  | some b => rw [openBalance_of_some h, openBalance_of_some (l := l.unstarted) h]
  | none =>
    rw [openBalance_of_none h, openBalance_of_none (l := l.unstarted) h]
    rfl

theorem withBalance_unstarted (user : String) (f : Balance → Balance) :
    l.unstarted.withBalance s user f = (l.withBalance s user f).unstarted := by
  rw [withBalance, openBalance_unstarted]
  rfl

/-- A credit is accepted by both ledgers or by neither. -/
theorem accepts_unstarted (c : Credit) : l.unstarted.accepts c = l.accepts c := by
  have hsettles : settles c ∘ Order.unstarted = settles c := funext (settles_unstarted c)
  rw [accepts, orderByNumber_unstarted, Option.any_map]
  exact congrArg (Option.any · _) hsettles

theorem accrue_unstarted (c : Credit) : l.unstarted.accrue s c =
    ((l.accrue s c).1, (l.accrue s c).2.unstarted) := by
  have hsame := accepts_unstarted l c
  cases h : l.accepts c with
  | false =>
    rw [h] at hsame
    rw [accrue_of_not_accepts s h, accrue_of_not_accepts s hsame]
  | true =>
    rw [h] at hsame
    obtain ⟨hsum, hover⟩ := accrue_of_accepts s h
    obtain ⟨hsum', hover'⟩ := accrue_of_accepts s hsame
    -- The sum is the same one, since the points are the same.
    cases hadd : (l.current c.user).add c.amount with
    | ok sum =>
      rw [hsum sum hadd, hsum' sum hadd, credited, settled_unstarted, withBalance_unstarted]
      rfl
    | error e =>
      rw [hover e hadd, hover' e hadd, settled_unstarted, openBalance_unstarted]

theorem debit_unstarted (user number : String) (amount : Decimal) :
    l.unstarted.debit s user number amount =
      ((l.debit s user number amount).1, (l.debit s user number amount).2.unstarted) := by
  -- Each of the three decisions is taken on the same points in both ledgers.
  cases hlt : (l.current user).lt amount with
  | true =>
    rw [debit_of_lt s number hlt, debit_of_lt (l := l.unstarted) s number hlt,
      openBalance_unstarted]
    rfl
  | false =>
    obtain ⟨hover, hrest⟩ := debit_of_covered s number hlt
    obtain ⟨hover', hrest'⟩ := debit_of_covered (l := l.unstarted) s number hlt
    cases hsub : (l.current user).sub amount with
    | error e => rw [hover e hsub, hover' e hsub, openBalance_unstarted]
    | ok rest =>
      cases hadd : (l.withdrawn user).add amount with
      | error e =>
        rw [(hrest rest hsub).1 e hadd, (hrest' rest hsub).1 e hadd, withBalance_unstarted]
      | ok sum =>
        rw [(hrest rest hsub).2 sum hadd, (hrest' rest hsub).2 sum hadd, paid,
          withBalance_unstarted]
        rfl

@[simp] theorem unstarted_unstarted : l.unstarted.unstarted = l.unstarted := by
  simp [unstarted]

end calls

/-- A call in two runs: the ledgers behind it differ in nothing but in what has been begun, and so
    do the answers. They are the same if the call does not return orders. -/
structure SameCourse (op : Operation) (r r' : Except Fault Reply × Ledger) : Prop where
  ledger : r.2.unstarted = r'.2.unstarted
  shown : r.1.map Reply.unstarted = r'.1.map Reply.unstarted
  answer : op.showsOrders = false → r.1 = r'.1

namespace SameCourse

variable {op : Operation} {r r' r'' : Except Fault Reply × Ledger}

theorem symm (h : SameCourse op r r') : SameCourse op r' r :=
  ⟨h.ledger.symm, h.shown.symm, fun hop => (h.answer hop).symm⟩

theorem trans (h : SameCourse op r r') (h' : SameCourse op r' r'') : SameCourse op r r'' :=
  ⟨h.ledger.trans h'.ledger, h.shown.trans h'.shown,
    fun hop => (h.answer hop).trans (h'.answer hop)⟩

/-- A call that does the same to both ledgers, and returns the same. -/
theorem of_eq {α : Type} (reply : α → Reply) {p p' : Except Fault α × Ledger}
    (h : p' = (p.1, p.2.unstarted)) :
    SameCourse op (p.1.map reply, p.2) (p'.1.map reply, p'.2) := by
  subst h
  exact ⟨(unstarted_unstarted p.2).symm, rfl, fun _ => rfl⟩

/-- A call that fails in both ledgers for the same reason, and changes nothing. -/
theorem refused (e : Fault) (l : Ledger) : SameCourse op (.error e, l) (.error e, l.unstarted) :=
  ⟨(unstarted_unstarted l).symm, rfl, fun _ => rfl⟩

/-- A call that returns orders, and changes nothing. -/
theorem of_showsOrders (hop : op.showsOrders = true) {reply reply' : Reply}
    (h : reply' = reply.unstarted) (l : Ledger) :
    SameCourse op (.ok reply, l) (.ok reply', l.unstarted) where
  ledger := (unstarted_unstarted l).symm
  shown := by
    rw [h]
    exact congrArg Except.ok reply.unstarted_unstarted.symm
  answer hnot := by
    rw [hop] at hnot
    cases hnot

end SameCourse

/-- A call does the same to a ledger as if no order had been begun. -/
theorem sameCourse_unstarted (op : Operation) (s : Stamp) (l : Ledger) :
    SameCourse op (op.on s l) (op.on s l.unstarted) := by
  cases op with
  | submit user number =>
    rw [Operation.submit_on, Operation.submit_on, orderByNumber_unstarted]
    split
    · cases l.orderByNumber number with
      | none => exact .of_eq .order (createOrder_unstarted l s user number)
      | some o => exact .refused _ l
    · exact .refused _ l
  | createOrder user number =>
    exact .of_eq .order (createOrder_unstarted l s user number)
  | orderByNumber number =>
    exact .of_showsOrders rfl (congrArg Reply.found (orderByNumber_unstarted l number)) l
  | userOrder user number =>
    exact .of_showsOrders rfl (congrArg Reply.found (userOrder_unstarted l user number)) l
  | userOrders user =>
    exact .of_showsOrders rfl (congrArg Reply.orders (userOrders_unstarted l user)) l
  | pendingOrders after limit =>
    exact .of_showsOrders rfl (congrArg Reply.orders (pendingOrders_unstarted l after limit)) l
  | markOrders ids status =>
    obtain ⟨hcount, hledger⟩ := markOrders_unstarted l ids status
    have hanswer := congrArg (Except.map Reply.count) hcount.symm
    exact ⟨hledger.symm, congrArg (Except.map Reply.unstarted) hanswer, fun _ => hanswer⟩
  | accrue c => exact .of_eq .flag (accrue_unstarted l s c)
  | balance user =>
    have hopened : ((.ok (l.unstarted.openBalance s user).1 : Except Fault Balance),
        (l.unstarted.openBalance s user).2) =
        (.ok (l.openBalance s user).1, (l.openBalance s user).2.unstarted) := by
      rw [openBalance_unstarted]
    exact .of_eq .balance (p := (.ok (l.openBalance s user).1, _)) hopened
  | withdraw user number amount =>
    rw [Operation.withdraw_on, Operation.withdraw_on]
    split_ifs
    · exact .of_eq .withdrawal (debit_unstarted l s user number amount)
    · exact .refused _ l
    · exact .refused _ l
  | debit user number amount =>
    exact .of_eq .withdrawal (debit_unstarted l s user number amount)
  | withdrawals user => exact ⟨(unstarted_unstarted l).symm, rfl, fun _ => rfl⟩

/-- Ledgers that differ in what has been begun differ in nothing else behind a call. -/
theorem sameCourse_of_unstarted_eq {l l' : Ledger} (h : l.unstarted = l'.unstarted)
    (op : Operation) (s : Stamp) : SameCourse op (op.on s l) (op.on s l') := by
  have hleft := sameCourse_unstarted op s l
  rw [h] at hleft
  exact hleft.trans (sameCourse_unstarted op s l').symm

end Ledger

/-! ## Runs -/

/-- A moment of a run: a call, or a late mark. -/
inductive Moment where
  | call (op : Operation) (s : Stamp)
  | late (ids : List Uuid) (s : Stamp)

namespace Moment

/-- The call that is made in the run with the late marks. -/
def performed : Moment → Operation × Stamp
  | call op s => (op, s)
  | late ids s => (.markOrders ids .processing, s)

/-- The call that is made in the run without them, if one is. -/
def performedInTime : Moment → Option (Operation × Stamp)
  | call op s => some (op, s)
  | late _ _ => none

/-- The calls of the run with the late marks. -/
def whole (ms : List Moment) : List (Operation × Stamp) := ms.map performed

/-- The calls of the run without them. -/
def rest (ms : List Moment) : List (Operation × Stamp) := ms.filterMap performedInTime

end Moment

namespace Ledger

/-- Runs with and without late marks go through the same ledgers but for what has been begun. -/
theorem unstarted_behind (ms : List Moment) :
    (behind (Moment.whole ms)).unstarted = (behind (Moment.rest ms)).unstarted := by
  induction ms using List.reverseRecOn with
  | nil => rfl
  | append_singleton ms m ih =>
    cases m with
    | call op s =>
      have hwhole : Moment.whole (ms ++ [.call op s]) = Moment.whole ms ++ [(op, s)] :=
        List.map_append
      have hrest : Moment.rest (ms ++ [.call op s]) = Moment.rest ms ++ [(op, s)] :=
        List.filterMap_append
      rw [hwhole, hrest, behind_concat, behind_concat]
      exact (sameCourse_of_unstarted_eq ih op s).ledger
    | late ids s =>
      have hwhole : Moment.whole (ms ++ [.late ids s]) =
          Moment.whole ms ++ [(.markOrders ids .processing, s)] := List.map_append
      have hrest : Moment.rest (ms ++ [.late ids s]) = Moment.rest ms := by
        simp [Moment.rest, Moment.performedInTime]
      rw [hwhole, hrest, behind_concat, ← ih]
      exact marked_unstarted (behind (Moment.whole ms)) ids

/-- Late marks are harmless. They change no answer but for which of the two pending statuses an
    order is shown with, and in the end nothing but that: not which orders are pending, in which
    order they are listed, what they earned, nor any balance or withdrawal. -/
theorem late_marks_harmless (ms : List Moment) :
    (∀ (i : ℕ) (op : Operation) (s : Stamp), ms[i]? = some (.call op s) →
      let r := op.on s (behind (Moment.whole (ms.take i)))
      let r' := op.on s (behind (Moment.rest (ms.take i)))
      r.1.map Reply.unstarted = r'.1.map Reply.unstarted ∧
        (op.showsOrders = false → r.1 = r'.1)) ∧
    let l := behind (Moment.whole ms)
    let l' := behind (Moment.rest ms)
    List.Forall₂ Order.SameButBegun l.orders l'.orders ∧
      (∀ after limit, List.Forall₂ Order.SameButBegun (l.pendingOrders after limit)
        (l'.pendingOrders after limit)) ∧
      l.balances = l'.balances ∧ l.withdrawals = l'.withdrawals := by
  refine ⟨?_, ?_⟩
  · intro i op s _ r r'
    have hcourse := sameCourse_of_unstarted_eq (unstarted_behind (ms.take i)) op s
    exact ⟨hcourse.shown, hcourse.answer⟩
  · intro l l'
    have hsame : l.unstarted = l'.unstarted := unstarted_behind ms
    have hbalances : l.unstarted.balances = l'.unstarted.balances := by rw [hsame]
    have hwithdrawals : l.unstarted.withdrawals = l'.unstarted.withdrawals := by rw [hsame]
    refine ⟨?_, ?_, hbalances, hwithdrawals⟩
    · exact Order.forall₂_sameButBegun_iff.mpr (congrArg Ledger.orders hsame)
    · intro after limit
      rw [Order.forall₂_sameButBegun_iff, ← pendingOrders_unstarted, ← pendingOrders_unstarted,
        hsame]

/-- A run with two late marks of an order, one before it is settled and one behind that. -/
def twiceBegun : List Moment :=
  let points (n : ℕ) : Decimal := (Decimal.ofMagnitude? false n 0).getD .zero
  [.call (.submit "ann" "79927398713") (.number 0),
    .late [.ofNat 1] (.number 1),
    .call (.accrue ⟨"ann", "79927398713", points 500⟩) (.number 2),
    .late [.ofNat 1] (.number 3),
    .call (.withdraw "ann" "2377225624" (points 200)) (.number 4)]

/-- The first mark is seen in the ledger, and the points of the order can be withdrawn as if neither
    of them had been made. -/
theorem late_marks_harmless_of_twiceBegun :
    ((behind (Moment.whole (twiceBegun.take 2))).orders.map Order.status = [.processing] ∧
      (behind (Moment.rest (twiceBegun.take 2))).orders.map Order.status = [.new]) ∧
    ∃ op s, twiceBegun[4]? = some (.call op s) ∧ op.showsOrders = false ∧
      (op.on s (behind (Moment.whole (twiceBegun.take 4)))).1 =
        (op.on s (behind (Moment.rest (twiceBegun.take 4)))).1 ∧
      (behind (Moment.whole twiceBegun)).balances = (behind (Moment.rest twiceBegun)).balances ∧
      ((behind (Moment.whole twiceBegun)).current "ann").coefficient = 300 := by
  obtain ⟨hanswers, -, -, hbalances, -⟩ := late_marks_harmless twiceBegun
  refine ⟨by decide +kernel, _, _, rfl, rfl, ?_, hbalances, by decide +kernel⟩
  exact (hanswers 4 _ _ rfl).2 rfl

end Ledger

end LoyaltyPoints
