import LoyaltyPoints.Proofs.Decimal.Rounding
import LoyaltyPoints.Proofs.Ledger.Operation

/-! # Ledger: conservation of points

    What a user has and has withdrawn is what the user's processed orders earned, and what the
    user has withdrawn is what the withdrawals say. This holds as long as the credits of a user
    come to no more than `(2 ^ 96 - 1) / 100` points, negative ones counted by their size: all
    numbers are then of whole cents, and so small that no sum is rounded and none overflows.

    The bound on the points that can be spent is not inductive by itself. A withdrawal takes no
    more than there is, so what was ever withdrawn was earned before; this bounds the points
    withdrawn, and with them the points that later negative credits can leave. -/

namespace LoyaltyPoints

/-- The calls that the services and the pipeline make: they credit rounded amounts, and withdraw
    by the service only. -/
def Operation.IsServed : Operation → Prop
  | .accrue c => ∃ o amount, c = Credit.forOrder o amount
  | .debit .. => False
  | _ => True

/-- What a call credits to a user, by its size. A credit that settles no order counts nothing; one
    that overflows counts. -/
def Event.credit (user : String) (e : Event) : ℚ :=
  match e.operation, e.answer with
  | .accrue _, .ok (.flag false) => 0
  | .accrue c, _ => if c.user = user then |c.amount.value| else 0
  | _, _ => 0

/-- The credits of a user in a run, by their sizes. -/
def creditedTo (user : String) (events : List Event) : ℚ := (events.map (Event.credit user)).sum

/-- The most points that a user's credits may come to: `2 ^ 96 - 1` cents. -/
def creditLimit : ℚ := (2 ^ 96 - 1) / 100

namespace Ledger

/-- The points that a user's processed orders earned. -/
def earned (user : String) (l : Ledger) : ℚ :=
  ((l.orders.filter fun o => o.user = user ∧ o.status = .processed).map (·.accrual.value)).sum

/-- The points that a user's withdrawals took. -/
def taken (user : String) (l : Ledger) : ℚ :=
  ((l.withdrawals.filter fun w => w.user = user).map (·.sum.value)).sum

/-! ## Credits in a run -/

theorem credit_nonneg (user : String) (e : Event) : 0 ≤ e.credit user := by
  unfold Event.credit
  split
  · exact le_rfl
  · split
    · exact abs_nonneg _
    · exact le_rfl
  · exact le_rfl

@[simp] theorem creditedTo_concat (user : String) (events : List Event) (e : Event) :
    creditedTo user (events ++ [e]) = creditedTo user events + e.credit user := by
  simp [creditedTo]

theorem creditedTo_le_concat (user : String) (events : List Event) (e : Event) :
    creditedTo user events ≤ creditedTo user (events ++ [e]) := by
  rw [creditedTo_concat]
  linarith [credit_nonneg user e]

/-- Whole cents within the limit fit a coefficient. -/
theorem exists_cents {q : ℚ} (hc : IsCents q) (hle : |q| ≤ creditLimit) :
    ∃ k : ℤ, q = k / 100 ∧ k.natAbs < Decimal.bound := by
  obtain ⟨k, rfl⟩ := hc
  refine ⟨k, rfl, ?_⟩
  have habs : |(k : ℚ)| ≤ 2 ^ 96 - 1 := by
    rw [creditLimit, abs_div, abs_of_pos (by norm_num : (0 : ℚ) < 100)] at hle
    exact (div_le_div_iff_of_pos_right (by norm_num)).mp hle
  have hint : |k| ≤ 2 ^ 96 - 1 := by exact_mod_cast habs
  rw [Int.abs_eq_natAbs] at hint
  unfold Decimal.bound
  omega

/-- Whole cents within the limit are added exactly. -/
theorem add_of_limit {a b : Decimal} (ha : IsCents a.value) (hb : IsCents b.value)
    (hle : |a.value + b.value| ≤ creditLimit) :
    ∃ sum, a.add b = .ok sum ∧ sum.value = a.value + b.value := by
  obtain ⟨k, hk, hbound⟩ := exists_cents (ha.add hb) hle
  exact Decimal.add_of_cents hk hbound

theorem sub_of_limit {a b : Decimal} (ha : IsCents a.value) (hb : IsCents b.value)
    (hle : |a.value - b.value| ≤ creditLimit) :
    ∃ rest, a.sub b = .ok rest ∧ rest.value = a.value - b.value := by
  obtain ⟨k, hk, hbound⟩ := exists_cents (ha.sub hb) hle
  exact Decimal.sub_of_cents hk hbound

/-- What is served to be withdrawn is some number of whole cents. -/
theorem cents_of_debits {op : Operation} {user number : String} {amount : Decimal}
    (hserved : op.IsServed) (hop : op.Debits user number amount) :
    IsCents amount.value ∧ 0 < amount.value := by
  rcases hop with rfl | ⟨rfl, hw⟩
  · exact hserved.elim
  · obtain ⟨hpos, hcents⟩ := isWithdrawable_iff.mp hw
    exact ⟨hcents, hpos⟩

/-! ## What an effect earns -/

theorem earned_stored (user v number : String) (s : Stamp) (l : Ledger) :
    earned v { l with orders := l.orders ++ [Order.submitted s.recordId user number s.now] } =
      l.earned v := by
  simp [earned, List.filter_append, Order.submitted]

/-- Marks touch no processed order, and make none. -/
theorem earned_marked (ids : List Uuid) {status : OrderStatus} (hmark : status.isMarkable = true)
    (user : String) (l : Ledger) : (l.marked ids status).earned user = l.earned user := by
  have hstatus : status ≠ .processed := by
    rintro rfl
    cases hmark
  unfold earned marked
  induction l.orders with
  | nil => rfl
  | cons o os ih =>
    by_cases hm : isMarked ids status o = true
    · have hpending := status_ne_of_isMarked hm
      simpa [hm, hstatus, hpending] using ih
    · by_cases ho : o.user = user ∧ o.status = .processed
      · simpa [hm, ho] using ih
      · simpa [hm, ho] using ih

/-- A settled order adds its points to what its owner earned. -/
theorem earned_settled {c : Credit} {o : Order} {l : Ledger}
    (ho : l.orderByNumber c.number = some o) (hs : settles c o = true) (user : String) :
    (l.settled c).earned user =
      l.earned user + if c.user = user then c.amount.value else 0 := by
  obtain ⟨before, after, hos, hsettled⟩ := settled_orders ho
  have hpending := status_ne_of_settles hs
  have huser := (settles_iff.mp hs).1
  -- The order was pending before, so it counted nothing, whoever owns it.
  rw [earned, earned, hsettled, hos]
  by_cases hu : c.user = user
  · simp [hu, huser, hpending, settledBy]
    ring
  · simp [hu, huser, hpending, settledBy]

/-! ## The invariant -/

/-- How a user's balance stands to the user's orders, withdrawals and credits. -/
structure Conserved (user : String) (events : List Event) (l : Ledger) : Prop where
  current_cents : IsCents (l.current user).value
  withdrawn_cents : IsCents (l.withdrawn user).value
  withdrawn_eq : (l.withdrawn user).value = l.taken user
  total_eq : (l.current user).value + (l.withdrawn user).value = l.earned user
  withdrawn_nonneg : 0 ≤ (l.withdrawn user).value
  total_le : (l.current user).value + (l.withdrawn user).value ≤ creditedTo user events
  abs_current_le : |(l.current user).value| ≤ creditedTo user events

theorem conserved_empty (user : String) : Conserved user [] {} where
  current_cents := by simpa [current, balance?] using IsCents.zero
  withdrawn_cents := by simpa [withdrawn, balance?] using IsCents.zero
  withdrawn_eq := by simp [withdrawn, balance?, taken]
  total_eq := by simp [current, withdrawn, balance?, earned]
  withdrawn_nonneg := by simp [withdrawn, balance?]
  total_le := by simp [current, withdrawn, balance?, creditedTo]
  abs_current_le := by simp [current, balance?, creditedTo]

/-- An effect that leaves a user's numbers alone keeps the invariant for that user. -/
theorem Conserved.frame {user : String} {events : List Event} {l l' : Ledger} (e : Event)
    (h : Conserved user events l) (hcurrent : l'.current user = l.current user)
    (hwithdrawn : l'.withdrawn user = l.withdrawn user) (htaken : l'.taken user = l.taken user)
    (hearned : l'.earned user = l.earned user) : Conserved user (events ++ [e]) l' where
  current_cents := hcurrent ▸ h.current_cents
  withdrawn_cents := hwithdrawn ▸ h.withdrawn_cents
  withdrawn_eq := by rw [hwithdrawn, htaken, h.withdrawn_eq]
  total_eq := by rw [hcurrent, hwithdrawn, hearned, h.total_eq]
  withdrawn_nonneg := hwithdrawn ▸ h.withdrawn_nonneg
  total_le := by
    rw [hcurrent, hwithdrawn]
    exact h.total_le.trans (creditedTo_le_concat user events e)
  abs_current_le := by
    rw [hcurrent]
    exact h.abs_current_le.trans (creditedTo_le_concat user events e)

section step

variable {events : List Event} {l : Ledger}

/-- Within the limit, the points of a credit are added exactly. -/
theorem Conserved.add_exact {c : Credit} (h : Conserved c.user events l)
    (hcents : IsCents c.amount.value)
    (hlimit : creditedTo c.user events + |c.amount.value| ≤ creditLimit) :
    ∃ sum, (l.current c.user).add c.amount = .ok sum ∧
      sum.value = (l.current c.user).value + c.amount.value := by
  refine add_of_limit h.current_cents hcents ?_
  have hle := abs_add_le (l.current c.user).value c.amount.value
  linarith [h.abs_current_le]

/-- Within the limit, a withdrawal that is covered moves its points exactly. -/
theorem Conserved.move_exact {user : String} {amount : Decimal} (h : Conserved user events l)
    (hcents : IsCents amount.value) (hpos : 0 < amount.value)
    (hle : amount.value ≤ (l.current user).value)
    (hlimit : creditedTo user events ≤ creditLimit) :
    (∃ rest, (l.current user).sub amount = .ok rest ∧
      rest.value = (l.current user).value - amount.value) ∧
    (∃ sum, (l.withdrawn user).add amount = .ok sum ∧
      sum.value = (l.withdrawn user).value + amount.value) := by
  have htotal := h.total_le
  have hnonneg := h.withdrawn_nonneg
  have habs := h.abs_current_le
  have hcurrent := le_abs_self (l.current user).value
  constructor
  · refine sub_of_limit h.current_cents hcents ?_
    rw [abs_of_nonneg (by linarith)]
    linarith
  · -- What was ever withdrawn, this withdrawal included, had been earned before.
    refine add_of_limit h.withdrawn_cents hcents ?_
    rw [abs_of_nonneg (by linarith)]
    linarith

/-- A credit that is added exactly keeps the invariant of every user. -/
theorem Conserved.credited {user : String} {s : Stamp} {c : Credit} {o : Order} {sum : Decimal}
    (h : Conserved user events l) (ho : l.orderByNumber c.number = some o)
    (hs : settles c o = true) (hcents : IsCents c.amount.value)
    (hsum : sum.value = (l.current c.user).value + c.amount.value) :
    Conserved user (events ++ [⟨.accrue c, .ok (.flag true)⟩]) (l.credited s c sum) := by
  have hearned : (l.credited s c sum).earned user =
      l.earned user + if c.user = user then c.amount.value else 0 := by
    rw [← earned_settled ho hs user]
    simp [earned]
  have htaken : (l.credited s c sum).taken user = l.taken user := by
    simp [taken]
  have hwithdrawn : (l.credited s c sum).withdrawn user = l.withdrawn user := by simp
  -- What the owner has and what the owner earned grow by the same; nobody else is concerned.
  by_cases hu : user = c.user
  · subst hu
    have hcurrent : (l.credited s c sum).current c.user = sum := by
      rw [current_credited, if_pos rfl]
    have hcredit : Event.credit c.user ⟨.accrue c, .ok (.flag true)⟩ = |c.amount.value| := by
      simp [Event.credit]
    have habs := abs_add_le (l.current c.user).value c.amount.value
    have hself := le_abs_self c.amount.value
    exact {
      current_cents := by
        rw [hcurrent, hsum]
        exact h.current_cents.add hcents
      withdrawn_cents := hwithdrawn ▸ h.withdrawn_cents
      withdrawn_eq := by rw [hwithdrawn, htaken, h.withdrawn_eq]
      total_eq := by
        rw [hcurrent, hwithdrawn, hearned, hsum, if_pos rfl, ← h.total_eq]
        ring
      withdrawn_nonneg := hwithdrawn ▸ h.withdrawn_nonneg
      total_le := by
        rw [hcurrent, hwithdrawn, hsum, creditedTo_concat, hcredit]
        linarith [h.total_le]
      abs_current_le := by
        rw [hcurrent, hsum, creditedTo_concat, hcredit]
        linarith [h.abs_current_le] }
  · refine h.frame _ ?_ hwithdrawn htaken ?_
    · rw [current_credited, if_neg hu]
    · rw [hearned, if_neg (Ne.symm hu), add_zero]

/-- A withdrawal that is moved exactly keeps the invariant of every user. -/
theorem Conserved.paid {user v number : String} {s : Stamp} {amount rest sum : Decimal} (e : Event)
    (h : Conserved v events l) (hcents : IsCents amount.value) (hpos : 0 < amount.value)
    (hle : amount.value ≤ (l.current user).value)
    (hrest : rest.value = (l.current user).value - amount.value)
    (hsum : sum.value = (l.withdrawn user).value + amount.value) :
    Conserved v (events ++ [e]) (l.paid s user number amount rest sum) := by
  have hearned : (l.paid s user number amount rest sum).earned v = l.earned v := by
    simp [earned]
  have htaken : (l.paid s user number amount rest sum).taken v =
      l.taken v + if user = v then amount.value else 0 := by
    by_cases hu : user = v <;> simp [taken, List.filter_append, hu]
  have hcurrent := current_paid s user number amount rest sum l v
  have hwithdrawn := withdrawn_paid s user number amount rest sum l v
  -- The points go from one number to the other, so that the sum of both stays.
  by_cases hu : v = user
  · subst hu
    rw [if_pos rfl] at hcurrent hwithdrawn htaken
    have hlimit := creditedTo_le_concat v events e
    have habs := h.abs_current_le
    have hself := le_abs_self (l.current v).value
    exact {
      current_cents := by
        rw [hcurrent, hrest]
        exact h.current_cents.sub hcents
      withdrawn_cents := by
        rw [hwithdrawn, hsum]
        exact h.withdrawn_cents.add hcents
      withdrawn_eq := by rw [hwithdrawn, htaken, hsum, h.withdrawn_eq]
      total_eq := by
        rw [hcurrent, hwithdrawn, hearned, hrest, hsum, ← h.total_eq]
        ring
      withdrawn_nonneg := by
        rw [hwithdrawn, hsum]
        linarith [h.withdrawn_nonneg]
      total_le := by
        rw [hcurrent, hwithdrawn, hrest, hsum]
        linarith [h.total_le]
      abs_current_le := by
        rw [hcurrent, hrest, abs_of_nonneg (by linarith)]
        linarith }
  · rw [if_neg hu] at hcurrent hwithdrawn
    rw [if_neg (Ne.symm hu), add_zero] at htaken
    exact h.frame e hcurrent hwithdrawn htaken hearned

/-- Within the limit, a call that is served overflows nothing and keeps the invariant. -/
theorem Conserved.step {op : Operation} {answer : Except Fault Reply} {l' : Ledger}
    (h : ∀ user, Conserved user events l) (heffect : Effect l op answer l') (hserved : op.IsServed)
    (hlimit : ∀ user, creditedTo user (events ++ [⟨op, answer⟩]) ≤ creditLimit) :
    ¬ Event.IsOverflow ⟨op, answer⟩ ∧ ∀ user, Conserved user (events ++ [⟨op, answer⟩]) l' := by
  have hcredits : ∀ user, creditedTo user events ≤ creditLimit := fun user =>
    (creditedTo_le_concat user events _).trans (hlimit user)
  cases heffect with
  | quiet hover hcredit =>
    exact ⟨fun ⟨o, ho⟩ => hover o ho, fun user => (h user).frame _ rfl rfl rfl rfl⟩
  | opened s user hover hcredit =>
    exact ⟨fun ⟨o, ho⟩ => hover o ho, fun v => (h v).frame _ (by simp) (by simp) (by simp [taken])
      (by simp [earned])⟩
  | stored s user number hop hnew =>
    exact ⟨by rintro ⟨o, ⟨⟩⟩, fun v => (h v).frame _ rfl rfl rfl (earned_stored ..)⟩
  | marked ids status n hmark =>
    exact ⟨by rintro ⟨o, ⟨⟩⟩, fun v => (h v).frame _ rfl rfl rfl (earned_marked ids hmark v l)⟩
  | credited s c o sum ho hs hadd =>
    obtain ⟨order, amount, rfl⟩ := hserved
    have hcents := Credit.isCents_forOrder order amount
    obtain ⟨sum', hadd', hvalue⟩ := (h _).add_exact hcents (by
      simpa [Event.credit] using hlimit (Credit.forOrder order amount).user)
    obtain rfl : sum' = sum := by simpa [hadd'] using hadd
    exact ⟨by rintro ⟨o, ⟨⟩⟩, fun v => (h v).credited ho hs hcents hvalue⟩
  | creditLost s c o e ho hs hadd =>
    -- This and the last two effects need an overflow, and within the limit there is none.
    obtain ⟨order, amount, rfl⟩ := hserved
    obtain ⟨sum, hadd', -⟩ := (h _).add_exact (Credit.isCents_forOrder order amount) (by
      simpa [Event.credit] using hlimit (Credit.forOrder order amount).user)
    rw [hadd'] at hadd
    cases hadd
  | paid s user number amount rest sum hop hle hsub hadd =>
    obtain ⟨hcents, hpos⟩ := cents_of_debits hserved hop
    obtain ⟨⟨rest', hsub', hrest⟩, ⟨sum', hadd', hsum⟩⟩ :=
      (h user).move_exact hcents hpos hle (hcredits user)
    obtain rfl : rest' = rest := by simpa [hsub'] using hsub
    obtain rfl : sum' = sum := by simpa [hadd'] using hadd
    exact ⟨by rintro ⟨o, ⟨⟩⟩, fun v => (h v).paid _ hcents hpos hle hrest hsum⟩
  | restLost s user number amount e hop hle hsub =>
    obtain ⟨hcents, hpos⟩ := cents_of_debits hserved hop
    obtain ⟨⟨rest, hsub', -⟩, -⟩ := (h user).move_exact hcents hpos hle (hcredits user)
    rw [hsub'] at hsub
    cases hsub
  | sumLost s user number amount rest e hop hle hsub hadd =>
    obtain ⟨hcents, hpos⟩ := cents_of_debits hserved hop
    obtain ⟨-, ⟨sum, hadd', -⟩⟩ := (h user).move_exact hcents hpos hle (hcredits user)
    rw [hadd'] at hadd
    cases hadd

end step

/-! ## Runs -/

/-- A run that is served and stays within the limit overflows nothing and conserves points. -/
theorem run_conserved (supply : Nat → Stamp) (ops : List Operation) :
    (∀ e ∈ (run supply ops).events, e.operation.IsServed) →
    (∀ user, creditedTo user (run supply ops).events ≤ creditLimit) →
    (∀ e ∈ (run supply ops).events, ¬ e.IsOverflow) ∧
      ∀ user, Conserved user (run supply ops).events (run supply ops).state.ledger := by
  refine run_induction (P := fun events l => (∀ e ∈ events, e.operation.IsServed) →
    (∀ user, creditedTo user events ≤ creditLimit) →
    (∀ e ∈ events, ¬ e.IsOverflow) ∧ ∀ user, Conserved user events l) supply ?_ ?_ ops
  · intro _ _
    exact ⟨by simp, conserved_empty⟩
  · intro events l op answer l' ih heffect hserved hlimit
    obtain ⟨hquiet, hconserved⟩ := ih (fun e he => hserved e (List.mem_append_left _ he))
      fun user => (creditedTo_le_concat user events _).trans (hlimit user)
    obtain ⟨hlast, hnext⟩ := Conserved.step hconserved heffect
      (hserved _ (List.mem_append_right _ List.mem_cons_self)) hlimit
    refine ⟨?_, hnext⟩
    intro e he
    rcases List.mem_append.mp he with h | h
    · exact hquiet e h
    · rwa [List.mem_singleton.mp h]

/-- The credits of a longer run come to no less. -/
theorem creditedTo_mono {user : String} {a b : List Event} (h : a <+: b) :
    creditedTo user a ≤ creditedTo user b := by
  obtain ⟨rest, rfl⟩ := h
  rw [creditedTo, creditedTo, List.map_append, List.sum_append]
  have : 0 ≤ (rest.map (Event.credit user)).sum := by
    refine List.sum_nonneg ?_
    intro q hq
    obtain ⟨e, -, rfl⟩ := List.mem_map.mp hq
    exact credit_nonneg user e
  linarith

/-- Points are conserved: in a run in which no user is credited more than the limit, nothing
    overflows, and in each of its states what a user has withdrawn is what the withdrawals say,
    and what the user has besides is the rest of what the processed orders earned. -/
theorem points_conserved (supply : Nat → Stamp) (ops : List Operation)
    (hserved : ∀ op ∈ ops, op.IsServed)
    (hlimit : ∀ user, creditedTo user (run supply ops).events ≤ creditLimit) :
    (∀ e ∈ (run supply ops).events, ¬ e.IsOverflow) ∧
      ∀ p, p <+: ops → ∀ user,
        ((run supply p).state.ledger.withdrawn user).value =
            (run supply p).state.ledger.taken user ∧
          ((run supply p).state.ledger.current user).value +
              ((run supply p).state.ledger.withdrawn user).value =
            (run supply p).state.ledger.earned user := by
  -- Each state of the run is the last one of a shorter run, which is within the limit as well.
  have hconserved : ∀ p, p <+: ops → (∀ e ∈ (run supply p).events, ¬ e.IsOverflow) ∧
      ∀ user, Conserved user (run supply p).events (run supply p).state.ledger := by
    intro p hp
    refine run_conserved supply p ?_ ?_
    · intro e he
      refine hserved _ (hp.subset ?_)
      rw [← Run.operations_ofCalls (LedgerState.storeOf supply) {} p]
      exact List.mem_map_of_mem he
    · intro user
      exact (creditedTo_mono (Run.events_ofCalls_mono _ _ hp)).trans (hlimit user)
  refine ⟨(hconserved ops List.prefix_rfl).1, ?_⟩
  intro p hp user
  have h := (hconserved p hp).2 user
  exact ⟨h.withdrawn_eq, h.total_eq⟩

/-- A credit is rounded, and a withdrawal has zeros behind its places. -/
theorem points_conserved_rounded :
    let ops : List Operation := [
      .submit "ann" "79927398713",
      .accrue (Credit.forOrder (Order.submitted (Uuid.ofNat 1) "ann" "79927398713" (.ofMicros 1))
        ⟨500005, 3, by decide, by decide⟩),
      .withdraw "ann" "4561261212345467" ⟨10 ^ 28, 27, by decide, by decide⟩]
    let l := (run .number ops).state.ledger
    (∀ op ∈ ops, op.IsServed) ∧
      (∀ user, creditedTo user (run .number ops).events ≤ creditLimit) ∧
      (l.current "ann").value = 49001 / 100 ∧ (l.withdrawn "ann").value = 10 ∧
      (l.current "ann").value + (l.withdrawn "ann").value = l.earned "ann" := by
  intro ops l
  have hserved : ∀ op ∈ ops, op.IsServed := by
    intro op hop
    simp only [ops, List.mem_cons, List.not_mem_nil, or_false] at hop
    obtain rfl | rfl | rfl := hop
    · trivial
    · exact ⟨_, _, rfl⟩
    · trivial
  have hlimit : ∀ user, creditedTo user (run .number ops).events ≤ creditLimit := by
    intro user
    have hevents : ∃ o w c, (run .number ops).events =
        [⟨ops[0], .ok (.order o)⟩, ⟨.accrue c, .ok (.flag true)⟩, ⟨ops[2], .ok (.withdrawal w)⟩] ∧
          c.amount.coefficient = 50001 ∧ c.amount.scale = 2 :=
      ⟨_, _, _, rfl, rfl, rfl⟩
    obtain ⟨o, w, c, hevents, hcoefficient, hscale⟩ := hevents
    rw [hevents]
    simp only [creditedTo, List.map_cons, Event.credit, ops, List.getElem_cons_zero,
      List.getElem_cons_succ, List.map_nil, List.sum_cons, List.sum_nil, add_zero, zero_add]
    split
    · rw [Decimal.value, hcoefficient, hscale, creditLimit]
      norm_num
    · rw [creditLimit]
      norm_num
  have hcurrent : (l.current "ann").coefficient = 49001 * 10 ^ 24 ∧
      (l.current "ann").scale = 26 := ⟨rfl, rfl⟩
  have hwithdrawn : (l.withdrawn "ann").coefficient = 10 ^ 28 ∧
      (l.withdrawn "ann").scale = 27 := ⟨rfl, rfl⟩
  refine ⟨hserved, hlimit, ?_, ?_, ?_⟩
  · rw [Decimal.value, hcurrent.1, hcurrent.2]
    norm_num
  · rw [Decimal.value, hwithdrawn.1, hwithdrawn.2]
    norm_num
  · exact ((points_conserved .number ops hserved hlimit).2 ops List.prefix_rfl "ann").2

end Ledger

end LoyaltyPoints
