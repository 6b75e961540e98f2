import Mathlib
import LoyaltyPoints.Pipeline.Queue
import LoyaltyPoints.Pipeline.Sweep
import LoyaltyPoints.Proofs.Pipeline.Sweeping

/-! # Pipeline: sweeps in rotation

    While the pending orders stay as they are, sweeps go round through them: each takes up where the
    one before has stopped, and behind the last order comes the first. Where a sweep begins is told
    by the number of orders that the cursor has passed, and all of them count as none. A sweep takes
    as many orders as there is room for and a page holds, but not beyond the end of the list, in
    whichever way it then finds back to the start (`once_turn`).

    From that the rest follows for any list (`GoesRound`): what is taken in turn, how much of it in
    each sweep, and how many sweeps it takes to come by every order. -/

namespace LoyaltyPoints

/-- The items that a queue has room for. -/
def Queue.room {α : Type} (q : Queue α) : ℕ := q.capacity - q.items.length

theorem Queue.offer_of_room {α : Type} (x : α) {q : Queue α} (hopen : q.closed = false)
    (hroom : 0 < q.room) : q.offer x = .taken { q with items := q.items ++ [x] } :=
  Queue.offer_eq_taken_iff.mpr ⟨hopen, Nat.lt_of_sub_pos hroom, rfl⟩

theorem Queue.offer_of_no_room {α : Type} (x : α) {q : Queue α} (hopen : q.closed = false)
    (hroom : q.room = 0) : q.offer x = .full :=
  Queue.offer_eq_full_iff.mpr ⟨hopen, Nat.le_of_sub_eq_zero hroom⟩

namespace Ledger

/-! ## Where a sweep begins -/

/-- How many orders of a list a cursor has passed; one that has passed all of them has passed
    none. -/
def passed (cursor : Option Position) (pending : List Order) : ℕ :=
  pending.countP (fun o => !isBehind cursor o) % pending.length

section order

variable {l : Ledger} {pending : List Order} (h : l.InOrder pending)

include h

/-- The list from where a sweep with this cursor begins. -/
theorem InOrder.drop_passed (cursor : Option Position) :
    pending.drop (passed cursor pending) =
      if l.pendingBehind cursor = [] then pending else l.pendingBehind cursor := by
  have hle : pending.countP (fun o => !isBehind cursor o) ≤ pending.length := List.countP_le_length
  rw [h.pendingBehind_eq_drop]
  split
  · next hall =>
    rw [passed, le_antisymm hle (List.drop_eq_nil_iff.mp hall), Nat.mod_self, List.drop_zero]
  · next hsome =>
    rw [List.drop_eq_nil_iff, not_le] at hsome
    rw [passed, Nat.mod_eq_of_lt hsome]

/-- The cursor of an order has passed all up to it. -/
theorem InOrder.passed_position {i : ℕ} (hi : i < pending.length) :
    passed (some pending[i].position) pending = (i + 1) % pending.length := by
  rw [passed, h.countP_isBehind hi]

end order

end Ledger

namespace Sweep

/-! ## Sweeps in a row -/

section sweeps

variable (supply : ℕ → Stamp)

/-- The ledger beside the intake. -/
def besideIntake : Store (LedgerState × Queue Order) :=
  .focus Prod.fst (fun book s => (book, s.2)) (LedgerState.storeOf supply)

/-- Puts an order into the intake if there is room. -/
def putIn (o : Order) : Action (LedgerState × Queue Order) Bool := .ofFun fun s =>
  match s.2.offer o with
  | .taken q => (.ok true, (s.1, q))
  | .full => (.ok false, s)
  | .closed => (.error (.error .pipelineClosed), s)

/-- A sweep, and the intake before and after it. -/
structure Round where
  found : Queue Order
  left : Queue Order
  report : Report

/-- The orders that went into the intake. -/
def Round.taken (r : Round) : List Order := r.left.items.drop r.found.items.length

/-- The orders that went into the intake in a number of sweeps. -/
def taken (rs : List Round) : List Order := rs.flatMap Round.taken

/-- Sweeps one after another, each with the intake that the others have left for it. -/
def sweepAll (batch : ℤ) : LedgerState → Option Position → List (Queue Order) →
    Except Fault (List Round × LedgerState × Option Position)
  | book, cursor, [] => .ok ([], book, cursor)
  | book, cursor, q :: qs =>
    match (once (besideIntake supply) putIn batch cursor).perform (book, q) with
    | (.ok report, s) => (sweepAll batch s.1 report.cursor qs).map fun (rs, s') =>
        (⟨q, s.2, report⟩ :: rs, s')
    | (.error f, _) => .error f

/-- As many of the orders offered are taken as there is room for. -/
theorem offerAll_putIn (book : LedgerState) (os : List Order) (last : Option Position)
    {q : Queue Order} (hopen : q.closed = false) :
    (offerAll putIn os last).perform (book, q) =
      (.ok (min q.room os.length, ((os.take q.room).getLast?.map (·.position)).or last),
        (book, { q with items := q.items ++ os.take q.room })) := by
  induction os generalizing last q with
  | nil =>
    rw [List.take_nil, List.append_nil, List.length_nil, Nat.min_zero]
    rfl
  | cons o os ih =>
    rcases Nat.eq_zero_or_pos q.room with hfull | hroom
    · simp only [offerAll, Action.perform_bind, putIn, Action.perform_ofFun,
        Queue.offer_of_no_room o hopen hfull, Bool.false_eq_true, if_false, Action.perform_pure,
        hfull]
      simp
    · obtain ⟨n, hn⟩ := Nat.exists_eq_succ_of_ne_zero hroom.ne'
      have hless : Queue.room { q with items := q.items ++ [o] } = n := by
        unfold Queue.room at hn ⊢
        dsimp only
        rw [List.length_append, List.length_singleton]
        omega
      have hrest := ih (some o.position) (q := { q with items := q.items ++ [o] }) hopen
      rw [hless] at hrest
      simp only [offerAll, Action.perform_bind, putIn, Action.perform_ofFun,
        Queue.offer_of_room o hopen hroom, if_true, Action.perform_pure] at hrest ⊢
      rw [hrest, hn]
      simp only [List.take_succ_cons, List.length_cons, List.getLast?_cons, List.append_assoc,
        List.singleton_append, Nat.succ_min_succ]
      cases (os.take n).getLast? <;> rfl

/-- A page is listed behind the cursor, or from the start if there is nothing behind it. -/
theorem page_besideIntake {batch : ℤ} (hbatch : 1 ≤ batch) (cursor : Option Position)
    (s : LedgerState × Queue Order) (hpending : s.1.ledger.pendingBehind none ≠ []) :
    ∃ wrapped, (page (besideIntake supply) batch cursor).perform s =
      (.ok (wrapped, (if s.1.ledger.pendingBehind cursor = [] then s.1.ledger.pendingBehind none
        else s.1.ledger.pendingBehind cursor).take batch.toNat), s) := by
  have hlist : ∀ after, ((besideIntake supply).pendingOrders after batch).perform s =
      (.ok (s.1.ledger.pendingOrders after batch), s) := fun _ => rfl
  have hempty : (s.1.ledger.pendingOrders cursor batch).isEmpty =
      decide (s.1.ledger.pendingBehind cursor = []) := by
    rw [Ledger.pendingOrders, Bool.eq_iff_iff, List.isEmpty_iff, List.take_eq_nil_iff,
      decide_eq_true_iff, or_iff_right (by omega)]
  simp only [page, Action.perform_bind, hlist, hempty]
  by_cases hnone : s.1.ledger.pendingBehind cursor = []
  · have hsome : cursor.isSome = true := by
      rw [Option.isSome_iff_ne_none]
      rintro rfl
      exact hpending hnone
    refine ⟨true, ?_⟩
    simp only [hnone, hsome, decide_true, Bool.and_self, if_true, Action.perform_bind, hlist,
      Action.perform_pure, Ledger.pendingOrders]
  · refine ⟨false, ?_⟩
    simp only [hnone, decide_false, Bool.false_and, Bool.false_eq_true, if_false,
      Action.perform_pure, Ledger.pendingOrders]

/-- A sweep takes orders from where the cursor is, and moves it behind them. -/
theorem once_turn {batch : ℤ} (hbatch : 1 ≤ batch) (book : LedgerState) {pending : List Order}
    (hpending : book.ledger.InOrder pending) (hsome : pending ≠ []) (cursor : Option Position)
    {q : Queue Order} (hopen : q.closed = false) :
    ∃ report, (once (besideIntake supply) putIn batch cursor).perform (book, q) =
        (.ok report, (book, { q with items := q.items ++
          (pending.drop (Ledger.passed cursor pending)).take (min q.room batch.toNat) })) ∧
      report.registered = min q.room
        (min batch.toNat (pending.length - Ledger.passed cursor pending)) ∧
      Ledger.passed report.cursor pending =
        (Ledger.passed cursor pending + report.registered) % pending.length := by
  obtain ⟨wrapped, hpage⟩ := page_besideIntake supply hbatch cursor (book, q)
    (by rwa [hpending.pendingBehind_none])
  rw [hpending.pendingBehind_none, ← hpending.drop_passed cursor] at hpage
  have hlt : Ledger.passed cursor pending < pending.length :=
    Nat.mod_lt _ (List.length_pos_iff.mpr hsome)
  have hoffers := offerAll_putIn book
    ((pending.drop (Ledger.passed cursor pending)).take batch.toNat) cursor hopen
  rw [List.take_take, List.length_take, List.length_drop] at hoffers
  generalize hstart : Ledger.passed cursor pending = start at hpage hoffers hlt
  obtain ⟨b, hb⟩ := Int.eq_ofNat_of_zero_le (show 0 ≤ batch by omega)
  subst hb
  rw [Int.toNat_natCast] at hpage hoffers ⊢
  generalize hcount : min q.room (min b (pending.length - start)) = count at hoffers
  simp only [once, Action.perform_bind, hpage, hoffers, Action.perform_pure, List.length_take,
    List.length_drop]
  refine ⟨_, rfl, rfl, ?_⟩
  dsimp only
  have htaken : (pending.drop start).take (min q.room b) = (pending.drop start).take count := by
    rw [List.take_eq_take_iff, List.length_drop]
    omega
  rw [htaken]
  split
  · next hends =>
    -- The page is not a whole one, so it has come to the end of the list.
    simp only [Bool.and_eq_true, beq_iff_eq, decide_eq_true_eq] at hends
    have hend : start + count = pending.length := by omega
    rw [hend, Nat.mod_self, Ledger.passed, List.countP_eq_zero.mpr (fun _ _ => by
      simp [Ledger.isBehind]), Nat.zero_mod]
  · next hgoes =>
    rcases Nat.eq_zero_or_pos count with rfl | hpos
    · rw [List.take_zero, Nat.add_zero, Nat.mod_eq_of_lt hlt, ← hstart]
      rfl
    · -- The last order taken is the one before the place that was reached.
      have hplace : start + (count - 1) < pending.length := by omega
      have hlast : ((pending.drop start).take count).getLast? =
          some pending[start + (count - 1)] := by
        rw [List.getLast?_eq_getElem?, List.length_take, List.length_drop,
          min_eq_left (by omega), List.getElem?_take_of_lt (by omega), List.getElem?_drop,
          List.getElem?_eq_getElem]
      rw [hlast]
      show Ledger.passed (some _) pending = _
      rw [hpending.passed_position]
      congr 1
      omega

end sweeps

/-! ## Going round -/

/-- Sweeps that go round a list, the first one from its order number `start` on. -/
inductive GoesRound (pending : List Order) (batch : ℕ) : ℕ → List Round → Prop where
  | nil {start : ℕ} : GoesRound pending batch start []
  | cons {start : ℕ} {r : Round} {rs : List Round}
      (htaken : r.taken = (pending.drop start).take (min r.found.room batch))
      (hqueued : r.left.items = r.found.items ++ r.taken)
      (hreturned : r.report.registered = r.taken.length)
      (hrest : GoesRound pending batch ((start + r.taken.length) % pending.length) rs) :
      GoesRound pending batch start (r :: rs)

/-- Sweeps one after another go round the pending orders. -/
theorem sweepAll_goesRound (supply : ℕ → Stamp) {batch : ℤ} (hbatch : 1 ≤ batch)
    (book : LedgerState) {pending : List Order} (hpending : book.ledger.InOrder pending)
    (hsome : pending ≠ []) (cursor : Option Position) {intakes : List (Queue Order)}
    (hopen : ∀ q ∈ intakes, q.closed = false) :
    ∃ rs cursor', sweepAll supply batch book cursor intakes = .ok (rs, book, cursor') ∧
      rs.map (·.found) = intakes ∧
      GoesRound pending batch.toNat (Ledger.passed cursor pending) rs := by
  induction intakes generalizing cursor with
  | nil => exact ⟨[], cursor, rfl, rfl, .nil⟩
  | cons q qs ih =>
    rw [List.forall_mem_cons] at hopen
    obtain ⟨report, honce, hreturned, hnext⟩ :=
      once_turn supply hbatch book hpending hsome cursor hopen.1
    obtain ⟨rs, cursor', hall, hfound, hround⟩ := ih report.cursor hopen.2
    set os := (pending.drop (Ledger.passed cursor pending)).take (min q.room batch.toNat) with hos
    let r : Round := ⟨q, { q with items := q.items ++ os }, report⟩
    have htaken : r.taken = os := List.drop_left
    have hlength : report.registered = os.length := by
      rw [hreturned, hos, List.length_take, List.length_drop, min_assoc]
    refine ⟨r :: rs, cursor', ?_, ?_, .cons (htaken.trans hos) ?_ ?_ ?_⟩
    · rw [sweepAll, honce]
      simp only [hall]
      rfl
    · rw [List.map_cons, hfound]
    · rw [htaken]
    · rw [htaken]
      exact hlength
    · rw [htaken, ← hlength, ← hnext]
      exact hround

theorem taken_cons (r : Round) (rs : List Round) : taken (r :: rs) = r.taken ++ taken rs := rfl

namespace GoesRound

variable {pending : List Order} {batch start : ℕ} {rs : List Round}

/-- A number of steps round a list comes to one of its places. -/
theorem mod_lt (hlt : start < pending.length) (n : ℕ) :
    (start + n) % pending.length < pending.length :=
  Nat.mod_lt _ (Nat.zero_lt_of_lt hlt)

/-- Later sweeps go round from where those before have come to. -/
theorem of_append (hlt : start < pending.length) {before : List Round}
    (h : GoesRound pending batch start (before ++ rs)) :
    GoesRound pending batch ((start + (taken before).length) % pending.length) rs := by
  induction before generalizing start with
  | nil => rwa [taken, List.flatMap_nil, List.length_nil, Nat.add_zero, Nat.mod_eq_of_lt hlt]
  | cons r before ih =>
    obtain _ | ⟨-, -, -, hrest⟩ := h
    have hnext := ih (mod_lt hlt _) hrest
    rwa [Nat.mod_add_mod, Nat.add_assoc, ← List.length_append, ← taken_cons] at hnext

/-- The first sweep takes what there is room for, up to a whole page and to the end of the list. -/
theorem length_taken {r : Round} (h : GoesRound pending batch start (r :: rs)) :
    r.taken.length = min r.found.room (min batch (pending.length - start)) := by
  obtain _ | ⟨htaken, -, -, -⟩ := h
  rw [htaken, List.length_take, List.length_drop, min_assoc]

/-- Orders are taken in turn, and behind the last comes the first. -/
theorem getElem?_taken (hlt : start < pending.length) (h : GoesRound pending batch start rs)
    {j : ℕ} (hj : j < (taken rs).length) :
    (taken rs)[j]? = pending[(start + j) % pending.length]? := by
  induction h generalizing j with
  | nil => cases hj
  | @cons start r rs htaken hqueued hreturned hrest ih =>
    have hlength := (GoesRound.cons htaken hqueued hreturned hrest).length_taken
    rw [taken_cons] at hj ⊢
    rcases Nat.lt_or_ge j r.taken.length with hfirst | hlater
    · rw [List.getElem?_append_left hfirst, Nat.mod_eq_of_lt (by omega), htaken,
        List.getElem?_take_of_lt (by omega), List.getElem?_drop]
    · rw [List.length_append] at hj
      rw [List.getElem?_append_right hlater, ih (mod_lt hlt _) (by omega), Nat.mod_add_mod]
      congr 2
      omega

/-- No sweep takes orders from the end of the list and from its beginning. -/
theorem isInfix_taken (h : GoesRound pending batch start rs) {r : Round} (hr : r ∈ rs) :
    r.taken <:+: pending := by
  induction h with
  | nil => cases hr
  | cons htaken _ _ _ ih =>
    rcases List.mem_cons.mp hr with rfl | hr
    · rw [htaken]
      exact (List.take_prefix _ _).isInfix.trans (List.drop_suffix _ _).isInfix
    · exact ih hr

theorem queued (h : GoesRound pending batch start rs) {r : Round} (hr : r ∈ rs) :
    r.left.items = r.found.items ++ r.taken ∧ r.report.registered = r.taken.length := by
  induction h with
  | nil => cases hr
  | cons _ hqueued hreturned _ ih =>
    rcases List.mem_cons.mp hr with rfl | hr
    · exact ⟨hqueued, hreturned⟩
    · exact ih hr

/-! ### How soon an order is taken -/

section room

variable {m : ℕ}

/-- A sweep goes on by what there is always room for, or to the end of the list. -/
theorem length_taken_cases {r : Round} (h : GoesRound pending batch start (r :: rs))
    (hroom : m ≤ r.found.room) :
    min batch m ≤ r.taken.length ∨ start + r.taken.length = pending.length ∨
      pending.length < start := by
  have hlength := h.length_taken
  omega

/-- An order that is not passed yet is taken before the end of the list is reached. -/
theorem mem_taken_ahead (h : GoesRound pending batch start rs)
    (hroom : ∀ r ∈ rs, m ≤ r.found.room) {i : ℕ} (hi : i < pending.length) (hstart : start ≤ i)
    (henough : i + 1 ≤ start + min batch m * rs.length) : pending[i] ∈ taken rs := by
  induction h with
  | nil =>
    rw [List.length_nil, Nat.mul_zero] at henough
    omega
  | @cons start r rs htaken hqueued hreturned hrest ih =>
    rw [List.forall_mem_cons] at hroom
    have hcases := (GoesRound.cons htaken hqueued hreturned hrest).length_taken_cases hroom.1
    rw [taken_cons, List.mem_append]
    rcases Nat.lt_or_ge i (start + r.taken.length) with hfirst | hlater
    · left
      rw [htaken, List.length_take] at hfirst
      rw [htaken]
      refine List.mem_of_getElem? (i := i - start) ?_
      rw [List.getElem?_take_of_lt (by omega), List.getElem?_drop,
        Nat.add_sub_cancel' hstart, List.getElem?_eq_getElem hi]
    · right
      rw [List.length_cons, Nat.mul_succ] at henough
      rw [Nat.mod_eq_of_lt (by omega)] at ih
      exact ih hroom.2 hlater (by omega)

/-- An order that is passed already is taken after the end of the list has been reached. -/
theorem mem_taken_behind (hlt : start < pending.length) (h : GoesRound pending batch start rs)
    (hroom : ∀ r ∈ rs, m ≤ r.found.room) {i : ℕ} (hi : i < start) (toEnd toOrder : ℕ)
    (hend : pending.length ≤ start + min batch m * toEnd)
    (horder : i + 1 ≤ min batch m * toOrder) (henough : toEnd + toOrder ≤ rs.length) :
    pending[i] ∈ taken rs := by
  have hpos : 0 < toEnd := by
    rw [Nat.pos_iff_ne_zero]
    rintro rfl
    omega
  obtain ⟨toEnd, rfl⟩ := Nat.exists_eq_succ_of_ne_zero hpos.ne'
  rw [Nat.mul_succ] at hend
  induction h generalizing toEnd with
  | nil =>
    rw [List.length_nil] at henough
    omega
  | @cons start r rs htaken hqueued hreturned hrest ih =>
    rw [List.forall_mem_cons] at hroom
    rw [List.length_cons] at henough
    have hcases := (GoesRound.cons htaken hqueued hreturned hrest).length_taken_cases hroom.1
    have hlength := (GoesRound.cons htaken hqueued hreturned hrest).length_taken
    rw [taken_cons, List.mem_append]
    right
    rcases Nat.lt_or_ge (start + r.taken.length) pending.length with hless | hreached
    · rw [Nat.mod_eq_of_lt hless] at ih
      cases toEnd with
      | zero => omega
      | succ toEnd =>
        rw [Nat.mul_succ] at hend
        exact ih hless hroom.2 (by omega) toEnd (by omega) (by omega) (by omega)
    · have hstart : (start + r.taken.length) % pending.length = 0 := by
        rw [show start + r.taken.length = pending.length by omega, Nat.mod_self]
      rw [hstart] at hrest
      refine hrest.mem_taken_ahead hroom.2 (by omega) (Nat.zero_le i) ?_
      calc i + 1 ≤ min batch m * toOrder := horder
        _ ≤ 0 + min batch m * rs.length := by
          rw [Nat.zero_add]
          exact Nat.mul_le_mul_left _ (by omega)

/-- With room for some orders each time, every order is taken in as many sweeps as the list has
    pages of that many, and one more. -/
theorem mem_taken (hlt : start < pending.length) (h : GoesRound pending batch start rs)
    (hroom : ∀ r ∈ rs, m ≤ r.found.room) (hm : 1 ≤ m) (hbatch : 1 ≤ batch)
    (henough : ⌈(pending.length : ℚ) / (min batch m : ℕ)⌉₊ + 1 ≤ rs.length) {o : Order}
    (ho : o ∈ pending) : o ∈ taken rs := by
  obtain ⟨i, hi, rfl⟩ := List.getElem_of_mem ho
  have hpos : 0 < min batch m := by omega
  set pages := ⌈(pending.length : ℚ) / (min batch m : ℕ)⌉₊
  have hpages : pending.length ≤ min batch m * pages := by
    have hceil := (div_le_iff₀' (Nat.cast_pos.mpr hpos)).mp
      (Nat.le_ceil ((pending.length : ℚ) / (min batch m : ℕ)))
    exact_mod_cast hceil
  have hall : min batch m * (pages + 1) ≤ min batch m * rs.length := Nat.mul_le_mul_left _ henough
  rw [Nat.mul_succ] at hall
  rcases Nat.lt_or_ge i start with hbehind | hahead
  · -- The pages to the end of the list and those up to the order overlap in one at most.
    have hdiv : min batch m * (i / min batch m) ≤ i := Nat.mul_div_le _ _
    have hmod : i < min batch m * (i / min batch m + 1) := Nat.lt_mul_div_succ _ hpos
    have hfew : i / min batch m < pages := Nat.div_lt_of_lt_mul (by omega)
    refine h.mem_taken_behind hlt hroom hbehind (pages - i / min batch m)
      (i / min batch m + 1) ?_ hmod (by omega)
    rw [Nat.mul_sub]
    omega
  · exact h.mem_taken_ahead hroom hi hahead (by omega)

end room

end GoesRound

/-! ## Rotation -/

/-- What is due to sweeps that go round a list. -/
structure Rotates (pending : List Order) (batch start : ℕ) (rs : List Round) : Prop where
  /-- What a sweep takes goes into the intake, and it returns how much that is. -/
  queued : ∀ r ∈ rs, r.left.items = r.found.items ++ r.taken ∧
    r.report.registered = r.taken.length
  /-- All of it runs through the list without a gap, and from its end on to its beginning. -/
  in_turn : ∀ j < (taken rs).length,
    (taken rs)[j]? = pending[(start + j) % pending.length]?
  /-- No sweep goes beyond the end. -/
  unbroken : ∀ r ∈ rs, r.taken <:+: pending
  /-- A sweep takes what there is room for, up to a page and to what is left of the list; where
      nothing is left, that is the whole list. -/
  counted : ∀ before r after, rs = before ++ r :: after →
    r.taken.length = min r.found.room (min batch
      (pending.length - (start + (taken before).length) % pending.length))
  /-- With room for `m` orders each time, any so many sweeps in a row come by every order. -/
  covers : ∀ before window after, rs = before ++ window ++ after → ∀ m, 1 ≤ m →
    (∀ r ∈ window, m ≤ r.found.room) →
    ⌈(pending.length : ℚ) / (min batch m : ℕ)⌉₊ + 1 ≤ window.length →
    ∀ o ∈ pending, o ∈ taken window

theorem GoesRound.of_prefix {pending : List Order} {batch start : ℕ} {rs rs' : List Round}
    (h : GoesRound pending batch start (rs ++ rs')) : GoesRound pending batch start rs := by
  induction rs generalizing start with
  | nil => exact .nil
  | cons r rs ih =>
    obtain _ | ⟨htaken, hqueued, hreturned, hrest⟩ := h
    exact .cons htaken hqueued hreturned (ih hrest)

theorem GoesRound.rotates {pending : List Order} {batch start : ℕ} {rs : List Round}
    (h : GoesRound pending batch start rs) (hlt : start < pending.length) (hbatch : 1 ≤ batch) :
    Rotates pending batch start rs where
  queued := fun _ hr => h.queued hr
  in_turn := fun _ hj => h.getElem?_taken hlt hj
  unbroken := fun _ hr => h.isInfix_taken hr
  counted := by
    rintro before r after rfl
    exact (h.of_append hlt).length_taken
  covers := by
    rintro before window after rfl m hm hroom henough o ho
    exact (h.of_prefix.of_append hlt).mem_taken (mod_lt hlt _) hroom hm hbatch henough ho

/-- Sweeps rotate through the pending orders: with any cursor and with any room in the intake before
    each sweep, all of them succeed, leave the ledger as it is, and go round the orders from the one
    behind the cursor on. -/
theorem sweeps_rotate (supply : ℕ → Stamp) {batch : ℤ} (hbatch : 1 ≤ batch) (book : LedgerState)
    {pending : List Order} (hpending : book.ledger.InOrder pending) (hsome : 1 ≤ pending.length)
    (cursor : Option Position) {intakes : List (Queue Order)}
    (hopen : ∀ q ∈ intakes, q.closed = false) :
    ∃ rs cursor' start, sweepAll supply batch book cursor intakes = .ok (rs, book, cursor') ∧
      rs.map (·.found) = intakes ∧
      (pending.drop start = if pending.filter (Ledger.isBehind cursor) = [] then pending
        else pending.filter (Ledger.isBehind cursor)) ∧
      Rotates pending batch.toNat start rs := by
  have hne : pending ≠ [] := List.length_pos_iff.mp hsome
  obtain ⟨rs, cursor', hall, hfound, hround⟩ :=
    sweepAll_goesRound supply hbatch book hpending hne cursor hopen
  refine ⟨rs, cursor', Ledger.passed cursor pending, hall, hfound, ?_,
    hround.rotates (Nat.mod_lt _ hsome) (by omega)⟩
  rw [← hpending.pendingBehind_eq]
  exact hpending.drop_passed cursor

/-- An order of ann's. All of them were submitted at one time. -/
def simultaneous (n : ℕ) : Order :=
  .submitted (.ofNat n) "ann" (String.ofList (Nat.toDigits 10 n)) (.ofMicros 1)

/-- Three of them are pending. -/
def crowded : Ledger where
  orders := [simultaneous 3, simultaneous 1, { simultaneous 4 with status := .invalid },
    simultaneous 2]

/-- Room for one order, for none, and twice for more than there are. -/
def unevenIntakes : List (Queue Order) :=
  [⟨1, [], false⟩, ⟨2, [simultaneous 1, simultaneous 2], false⟩, ⟨9, [simultaneous 3], false⟩,
    ⟨9, [], false⟩]

/-- The cursor has passed the second order. So the third one is taken, and behind it the first. -/
theorem sweeps_rotate_of_simultaneous :
    crowded.InOrder [simultaneous 1, simultaneous 2, simultaneous 3] ∧
      (∀ q ∈ unevenIntakes, q.closed = false) ∧
      ∃ rs cursor' start, sweepAll .number 2 ⟨crowded, 5⟩ (some (simultaneous 2).position)
          unevenIntakes = .ok (rs, ⟨crowded, 5⟩, cursor') ∧
        rs.map (·.found) = unevenIntakes ∧
        [simultaneous 1, simultaneous 2, simultaneous 3].drop start = [simultaneous 3] ∧
        Rotates [simultaneous 1, simultaneous 2, simultaneous 3] 2 start rs := by
  have hpending : crowded.InOrder [simultaneous 1, simultaneous 2, simultaneous 3] :=
    ⟨by decide +kernel, by decide +kernel⟩
  have hopen : ∀ q ∈ unevenIntakes, q.closed = false := by simp [unevenIntakes]
  have hbatch : (1 : ℤ) ≤ 2 := by decide
  obtain ⟨rs, cursor', start, hall, hfound, hstart, hrotates⟩ :=
    sweeps_rotate .number hbatch ⟨crowded, 5⟩ hpending (by decide)
      (some (simultaneous 2).position) hopen
  exact ⟨hpending, hopen, rs, cursor', start, hall, hfound, hstart, hrotates⟩

end Sweep

end LoyaltyPoints
