import LoyaltyPoints.Database.Repository
import LoyaltyPoints.Proofs.Database.Numeric

/-! # Database: what the statements mean

    The tables of the schema, and what each statement of the ledger does to them. A parameter is
    received only if its type admits it, a column holds only what its type admits and a table only
    rows whose keys differ, so nothing can be broken by a statement: one that would is refused and
    changes nothing. What SQL leaves open is left open: a `Plan` brings the rows that a statement
    asks for in any order, and only `ORDER BY` sorts them.

    `server` is a server with these tables. Its transactions run one after another. -/

namespace LoyaltyPoints.Database

/-! ## Texts and times -/

/-- Whether a text is one for the server, which knows all characters but the one with the number
    zero. -/
def IsText (s : String) : Prop := '\x00' ∉ s.toList
deriving Decidable

/-- What any other text is refused with. -/
def notAText : DatabaseError :=
  .server "22021" "invalid byte sequence for encoding \"UTF8\": 0x00"

/-- The microseconds that a time is sent as. They are counted from the beginning of the year 2000,
    and what is finer is cut off in that direction. -/
def sentMicros (t : Instant) : ℤ :=
  946684800000000 + ((t.seconds - 946684800) * 1000000000 + t.nanos).tdiv 1000

/-- Whether a number of microseconds is a time for the server: from the first of the Julian days to
    the end of the year 294276. -/
def IsTime (n : ℤ) : Prop := -2440588 * 86400000000 ≤ n ∧ n < 106762940 * 86400000000
deriving Decidable

/-- What any other time is refused with. -/
def notATime : DatabaseError := .server "22008" "timestamp out of range"

/-- Why a parameter is not received, if it is not. -/
def Parameter.refusal? : Parameter → Option DatabaseError
  | .text s => if IsText s then none else some notAText
  | .time t => if IsTime (sentMicros t) then none else some notATime
  | _ => none

theorem sentMicros_ofMicros (n : ℤ) : sentMicros (.ofMicros n) = n := by
  unfold sentMicros Instant.ofMicros
  rw [Int.fdiv_eq_ediv_of_nonneg n (by norm_num), Int.fmod_eq_emod_of_nonneg n (by norm_num)]
  have hnanos : (n / 1000000 - 946684800) * 1000000000 + ((n % 1000000).toNat * 1000 : ℕ) =
      (n - 946684800000000) * 1000 := by
    omega
  rw [hnanos, Int.mul_tdiv_cancel _ (by norm_num)]
  omega

/-! ## Columns -/

/-- Whether a column of so many characters holds a text. -/
structure Varchar.Holds (limit : ℕ) (s : String) : Prop where
  isText : IsText s
  length_le : s.length ≤ limit

/-- A text of at most so many characters. -/
@[ext]
structure Varchar (limit : ℕ) where
  value : String
  holds : Varchar.Holds limit value
deriving DecidableEq

/-- Stores a text. Blanks that are too many are cut off, and any other text that is too long is
    refused. -/
def Varchar.store (limit : ℕ) (s : String) : Except DatabaseError (Varchar limit) :=
  if htext : IsText s then
    if hlength : s.length ≤ limit then .ok ⟨s, htext, hlength⟩
    else if (s.toList.drop limit).all (· == ' ') then
      .ok ⟨String.ofList (s.toList.take limit), by
        rw [IsText, String.toList_ofList]
        exact fun hzero => htext (List.mem_of_mem_take hzero), by simp⟩
    else
      .error (.server "22001"
        ("value too long for type character varying(" ++ toString limit ++ ")"))
  else .error notAText

theorem Varchar.store_of_holds {limit : ℕ} {s : String} (h : Holds limit s) :
    store limit s = .ok ⟨s, h⟩ := by
  rw [store, dif_pos h.isText, dif_pos h.length_le]

/-- The columns hold all statuses. -/
theorem Varchar.holds_toText (status : OrderStatus) : Holds 16 status.toText := by
  cases status <;> exact ⟨by decide, by decide⟩

/-- An amount of sixteen digits, two of them behind the point. -/
structure Money where
  cents : ℤ
  cents_lt : cents.natAbs < 10 ^ 16
deriving DecidableEq

namespace Money

/-- The amount of a balance that has just been opened. -/
def zero : Money := ⟨0, by norm_num⟩

def value (m : Money) : ℚ := m.cents / 100

/-- The integer nearest to a number, a half away from zero. -/
def nearest (q : ℚ) : ℤ := if 0 ≤ q then ⌊q + 1 / 2⌋ else -⌊1 / 2 - q⌋

/-- Stores a number, rounded to cents. -/
def store (q : ℚ) : Except DatabaseError Money :=
  if h : (nearest (q * 100)).natAbs < 10 ^ 16 then .ok ⟨nearest (q * 100), h⟩
  else .error (.server "22003" "numeric field overflow")

/-- The amount as the server sends it. -/
def toNumeric (m : Money) : Numeric := .number (decide (m.cents < 0)) m.cents.natAbs 2

@[simp] theorem value_zero : zero.value = 0 := by
  simp [value, zero]

theorem isCents_value (m : Money) : IsCents m.value := ⟨m.cents, rfl⟩

theorem nearest_intCast (k : ℤ) : nearest k = k := by
  unfold nearest
  split
  · rw [Int.floor_intCast_add, Int.floor_eq_zero_iff.mpr ⟨by norm_num, by norm_num⟩, add_zero]
  · rw [sub_eq_add_neg, ← Int.cast_neg, Int.floor_add_intCast,
      Int.floor_eq_zero_iff.mpr ⟨by norm_num, by norm_num⟩]
    omega

/-- The cents of an amount that is not too large. -/
theorem natAbs_lt {k : ℤ} (h : |(k : ℚ) / 100| < 10 ^ 14) : k.natAbs < 10 ^ 16 := by
  rw [abs_div, abs_of_pos (by norm_num : (0 : ℚ) < 100), div_lt_iff₀ (by norm_num)] at h
  have habs : |(k : ℚ)| < 10 ^ 16 := by linarith
  rw [← Int.cast_abs, Int.abs_eq_natAbs] at habs
  exact_mod_cast habs

/-- An amount of cents that is not too large is stored as it is. -/
theorem store_of_cents {q : ℚ} (hcents : IsCents q) (hlt : |q| < 10 ^ 14) :
    ∃ m, store q = .ok m ∧ m.value = q := by
  obtain ⟨k, rfl⟩ := hcents
  have hnearest : nearest ((k : ℚ) / 100 * 100) = k := by
    rw [div_mul_cancel₀ _ (by norm_num), nearest_intCast]
  have hk := natAbs_lt hlt
  refine ⟨⟨k, hk⟩, ?_, rfl⟩
  rw [store, dif_pos (by rwa [hnearest])]
  simp only [hnearest]

/-- An amount is read as the number that it is. -/
theorem toDecimal_toNumeric (m : Money) :
    ∃ d, m.toNumeric.toDecimal = .ok d ∧ d.value = m.value := by
  obtain ⟨d, hd, hvalue⟩ := Numeric.toDecimal_of_cents (decide (m.cents < 0)) m.cents_lt
  refine ⟨d, hd, ?_⟩
  rw [hvalue, value]
  have habs : ((m.cents.natAbs : ℕ) : ℚ) = ((|m.cents| : ℤ) : ℚ) := by
    rw [Int.abs_eq_natAbs, Int.cast_natCast]
  rcases lt_or_ge m.cents 0 with h | h
  · rw [habs, abs_of_neg h]
    simp [h]
  · rw [habs, abs_of_nonneg h]
    simp [h]

end Money

/-! ## Rows and keys -/

/-- A row of the orders. Times are whole microseconds. -/
structure OrderRow where
  id : Uuid
  user : Varchar 64
  number : Varchar 32
  status : Varchar 16
  accrual : Money
  uploadedAt : ℤ

/-- A row of the balances. -/
structure BalanceRow where
  id : Uuid
  user : Varchar 64
  current : Money
  withdrawn : Money
  createdAt : ℤ
  updatedAt : ℤ

/-- A row of the withdrawals. -/
structure WithdrawalRow where
  id : Uuid
  user : Varchar 64
  number : Varchar 32
  sum : Money
  processedAt : ℤ

/-- Whether an order is selected by `status IN ('NEW', 'PROCESSING')`. -/
def OrderRow.isOpen (r : OrderRow) : Bool :=
  r.status.value == "NEW" || r.status.value == "PROCESSING"

def OrderRow.cells (r : OrderRow) : Row :=
  [("order_id", .uuid r.id), ("user_id", .text r.user.value), ("number", .text r.number.value),
    ("status", .text r.status.value), ("accrual", .numeric r.accrual.toNumeric),
    ("uploaded_at", .time (.ofMicros r.uploadedAt))]

def BalanceRow.cells (r : BalanceRow) : Row :=
  [("balance_id", .uuid r.id), ("user_id", .text r.user.value),
    ("current", .numeric r.current.toNumeric), ("withdrawn", .numeric r.withdrawn.toNumeric),
    ("created_at", .time (.ofMicros r.createdAt)), ("updated_at", .time (.ofMicros r.updatedAt))]

def WithdrawalRow.cells (r : WithdrawalRow) : Row :=
  [("withdrawal_id", .uuid r.id), ("user_id", .text r.user.value),
    ("order_number", .text r.number.value), ("sum", .numeric r.sum.toNumeric),
    ("processed_at", .time (.ofMicros r.processedAt))]

/-- Rows with keys. -/
class Keyed (ρ : Type) where
  /-- Whether two rows have no key in common. -/
  apart : ρ → ρ → Bool

instance : Keyed OrderRow := ⟨fun a b => a.id != b.id && a.number != b.number⟩

instance : Keyed BalanceRow := ⟨fun a b => a.id != b.id && a.user != b.user⟩

instance : Keyed WithdrawalRow := ⟨fun a b => a.id != b.id⟩

theorem OrderRow.not_apart {a b : OrderRow} (h : a.number.value = b.number.value) :
    Keyed.apart a b = false := by
  have hnumber : a.number = b.number := Varchar.ext h
  simp [Keyed.apart, hnumber]

theorem BalanceRow.not_apart {a b : BalanceRow} (h : a.user.value = b.user.value) :
    Keyed.apart a b = false := by
  have huser : a.user = b.user := Varchar.ext h
  simp [Keyed.apart, huser]

/-! ## Tables -/

/-- A table: no two of its rows have a key in common. -/
structure Table (ρ : Type) [Keyed ρ] where
  rows : List ρ := []
  apart : rows.Pairwise fun a b => Keyed.apart a b = true := by exact .nil

/-- Changes that go well are made in place. -/
theorem mapM_ite_eq {ρ : Type} {p : ρ → Bool} {set : ρ → Except DatabaseError ρ} {f : ρ → ρ}
    {rows : List ρ} (hset : ∀ r ∈ rows, p r = true → set r = .ok (f r)) :
    (rows.mapM fun r => if p r then set r else pure r) =
      .ok (rows.map fun r => if p r then f r else r) := by
  induction rows with
  | nil => rfl
  | cons r rows ih =>
    rw [List.forall_mem_cons] at hset
    rw [List.mapM_cons, ih hset.2, List.map_cons]
    by_cases hp : p r = true
    · rw [if_pos hp, hset.1 hp, if_pos hp]
      rfl
    · rw [if_neg hp, if_neg hp]
      rfl

namespace Table

variable {ρ : Type} [Keyed ρ]

/-- What a key that is not new is refused with. -/
def duplicateKey : DatabaseError :=
  .server "23505" "duplicate key value violates unique constraint"

/-- The table with these rows. -/
def ofRows (rows : List ρ) : Except DatabaseError (Table ρ) :=
  if h : rows.Pairwise fun a b => Keyed.apart a b = true then .ok ⟨rows, h⟩
  else .error duplicateKey

def insert (r : ρ) (t : Table ρ) : Except DatabaseError (Table ρ) := ofRows (t.rows ++ [r])

/-- Changes the rows that are asked for: these rows behind the change, and the table. -/
def update (p : ρ → Bool) (set : ρ → Except DatabaseError ρ) (t : Table ρ) :
    Except DatabaseError (List ρ × Table ρ) := do
  let rows ← t.rows.mapM fun r => if p r then set r else pure r
  let changed ← (t.rows.filter p).mapM set
  return (changed, ← ofRows rows)

theorem ofRows_eq {rows : List ρ} (h : rows.Pairwise fun a b => Keyed.apart a b = true) :
    ofRows rows = .ok ⟨rows, h⟩ :=
  dif_pos h

/-- A row whose keys are new is appended. -/
theorem insert_of_apart {r : ρ} {t : Table ρ} (h : ∀ a ∈ t.rows, Keyed.apart a r = true) :
    ∃ t', t.insert r = .ok t' ∧ t'.rows = t.rows ++ [r] := by
  have hpair : (t.rows ++ [r]).Pairwise fun a b => Keyed.apart a b = true :=
    List.pairwise_append.mpr ⟨t.apart, List.pairwise_singleton _ _, by simpa using h⟩
  exact ⟨_, ofRows_eq hpair, rfl⟩

theorem insert_of_clash {a r : ρ} {t : Table ρ} (ha : a ∈ t.rows) (h : Keyed.apart a r = false) :
    t.insert r = .error duplicateKey := by
  refine dif_neg fun hpair => ?_
  have hapart := (List.pairwise_append.mp hpair).2.2 a ha r (List.mem_singleton_self r)
  rw [h] at hapart
  cases hapart

/-- A condition that only rows with a common key meet is met by one row at most. -/
theorem filter_eq_toList {t : Table ρ} {p : ρ → Bool}
    (h : ∀ a b, p a = true → p b = true → Keyed.apart a b = false) :
    t.rows.filter p = (t.rows.find? p).toList := by
  have hpair := t.apart.filter p
  -- Two rows that meet the condition would not be apart.
  rw [← List.head?_filter]
  have hp : ∀ a ∈ t.rows.filter p, p a = true := fun a ha => (List.mem_filter.mp ha).2
  match hrows : t.rows.filter p with
  | [] => rfl
  | [a] => rfl
  | a :: b :: rest =>
    rw [hrows] at hpair hp
    have hapart := List.rel_of_pairwise_cons hpair (List.mem_cons_self (a := b))
    rw [h a b (hp a (by simp)) (hp b (by simp))] at hapart
    cases hapart

/-- A change that goes well in each row and keeps the keys is made in place. -/
theorem update_eq (t : Table ρ) (p : ρ → Bool) (set : ρ → Except DatabaseError ρ) (f : ρ → ρ)
    (hset : ∀ r ∈ t.rows, p r = true → set r = .ok (f r))
    (hkeys : ∀ r ∈ t.rows, p r = true → ∀ a, Keyed.apart (f r) a = Keyed.apart r a ∧
      Keyed.apart a (f r) = Keyed.apart a r) :
    ∃ t', t.update p set = .ok ((t.rows.filter p).map f, t') ∧
      t'.rows = t.rows.map fun r => if p r then f r else r := by
  -- Rows that are not changed keep their keys as well, so all rows are as far apart as before.
  have hkept : ∀ r ∈ t.rows, ∀ a, Keyed.apart (if p r then f r else r) a = Keyed.apart r a ∧
      Keyed.apart a (if p r then f r else r) = Keyed.apart a r := by
    intro r hr a
    split
    · next hp => exact hkeys r hr hp a
    · exact ⟨rfl, rfl⟩
  have hpair : (t.rows.map fun r => if p r then f r else r).Pairwise
      fun a b => Keyed.apart a b = true := by
    rw [List.pairwise_map]
    refine t.apart.imp_of_mem fun ha hb hapart => ?_
    rw [(hkept _ ha _).1, (hkept _ hb _).2, hapart]
  have hchanged : (t.rows.filter p).mapM set = .ok ((t.rows.filter p).map f) := by
    have hmem : ∀ r ∈ t.rows.filter p, true = true → set r = .ok (f r) := fun r hr _ =>
      hset r (List.mem_filter.mp hr).1 (List.mem_filter.mp hr).2
    exact mapM_ite_eq (p := fun _ => true) hmem
  refine ⟨⟨_, hpair⟩, ?_, rfl⟩
  rw [update, mapM_ite_eq hset, hchanged]
  show (ofRows _ >>= fun t' => pure (_, t')) = _
  rw [ofRows_eq hpair]
  rfl

end Table

/-- The tables of the ledger. -/
structure Tables where
  orders : Table OrderRow := {}
  balances : Table BalanceRow := {}
  withdrawals : Table WithdrawalRow := {}

/-- The order in which a statement meets the rows that it asks for. -/
structure Plan where
  scan {ρ : Type} : Statement → List ρ → List ρ
  scan_perm {ρ : Type} (s : Statement) (rows : List ρ) : (scan s rows).Perm rows

/-! ## Statements -/

/-- The answer that consists of these rows. -/
def Reply.ofRows (rows : List Row) : Reply := ⟨rows, rows.length⟩

/-- Whether `(uploaded_at, order_id)` is behind a position. -/
def OrderRow.isBehind (after : Option Position) (r : OrderRow) : Bool :=
  match after with
  | none => true
  | some p => decide (sentMicros p.uploadedAt < r.uploadedAt ∨
      (sentMicros p.uploadedAt = r.uploadedAt ∧ p.id.value < r.id.value))

/-- How two orders stand in `ORDER BY uploaded_at ASC, order_id ASC`. -/
def OrderRow.le (a b : OrderRow) : Bool :=
  decide (a.uploadedAt < b.uploadedAt ∨ (a.uploadedAt = b.uploadedAt ∧ a.id.value ≤ b.id.value))

/-- The row of an order that is new. -/
def OrderRow.store (o : Order) : Except DatabaseError OrderRow :=
  return ⟨o.id, ← Varchar.store 64 o.user, ← Varchar.store 32 o.number,
    ← Varchar.store 16 o.status.toText, ← Money.store o.accrual.value, sentMicros o.uploadedAt⟩

def OrderRow.mark (status : OrderStatus) (r : OrderRow) : Except DatabaseError OrderRow :=
  return { r with status := ← Varchar.store 16 status.toText }

def OrderRow.settle (amount : Decimal) (r : OrderRow) : Except DatabaseError OrderRow :=
  return { r with status := ← Varchar.store 16 "PROCESSED", accrual := ← Money.store amount.value }

def BalanceRow.credit (now : ℤ) (amount : Decimal) (r : BalanceRow) :
    Except DatabaseError BalanceRow :=
  return { r with current := ← Money.store (r.current.value + amount.value), updatedAt := now }

def BalanceRow.debit (now : ℤ) (amount : Decimal) (r : BalanceRow) :
    Except DatabaseError BalanceRow :=
  return { r with
    current := ← Money.store (r.current.value - amount.value),
    withdrawn := ← Money.store (r.withdrawn.value + amount.value), updatedAt := now }

namespace Plan

variable (plan : Plan) (now : ℤ)

/-- The rows of a table that a statement asks for. -/
def select {ρ : Type} [Keyed ρ] (s : Statement) (t : Table ρ) (p : ρ → Bool) : List ρ :=
  plan.scan s (t.rows.filter p)

theorem select_eq_toList {ρ : Type} [Keyed ρ] (s : Statement) (t : Table ρ) {p : ρ → Bool}
    (h : ∀ a b, p a = true → p b = true → Keyed.apart a b = false) :
    plan.select s t p = (t.rows.find? p).toList := by
  have hperm := plan.scan_perm s (t.rows.filter p)
  rw [← select, Table.filter_eq_toList h] at hperm
  cases hrow : t.rows.find? p with
  | none =>
    rw [hrow] at hperm
    exact hperm.eq_nil
  | some r =>
    rw [hrow] at hperm
    exact List.perm_singleton.mp hperm

/-- What a statement answers whose parameters have been received, and the tables behind it. -/
def run (s : Statement) (t : Tables) : Except DatabaseError (Reply × Tables) :=
  match s with
  | .probe => .ok (.ofRows [[("?column?", .numeric (.number false 1 0))]], t)
  | .orderByNumber number =>
    .ok (.ofRows ((plan.select s t.orders (·.number.value == number)).map OrderRow.cells), t)
  | .userOrder user number =>
    .ok (.ofRows ((plan.select s t.orders fun r =>
      r.user.value == user && r.number.value == number).map OrderRow.cells), t)
  | .userOrders user =>
    .ok (.ofRows (((plan.select s t.orders (·.user.value == user)).mergeSort fun a b =>
      decide (a.uploadedAt ≤ b.uploadedAt)).map OrderRow.cells), t)
  | .pendingOrders after limit =>
    if limit < 0 then .error (.server "2201W" "LIMIT must not be negative")
    else
      .ok (.ofRows ((((plan.select s t.orders fun r => r.isOpen && r.isBehind after).mergeSort
        OrderRow.le).take limit.toNat).map OrderRow.cells), t)
  | .insertOrder o => do
    let r ← OrderRow.store o
    let orders ← t.orders.insert r
    return (.ofRows [r.cells], { t with orders })
  | .markOrders ids status => do
    let (changed, orders) ← t.orders.update (fun r => ids.contains r.id && r.isOpen)
      (OrderRow.mark status)
    return (⟨[], changed.length⟩, { t with orders })
  | .openBalance id user => do
    let user ← Varchar.store 64 user
    if t.balances.rows.any (·.user == user) then return ({}, t)
    else
      let balances ← t.balances.insert ⟨id, user, .zero, .zero, now, now⟩
      return (⟨[], 1⟩, { t with balances })
  | .balance user | .lockBalance user =>
    .ok (.ofRows ((plan.select s t.balances (·.user.value == user)).map BalanceRow.cells), t)
  | .settleOrder number user amount => do
    let (changed, orders) ← t.orders.update
      (fun r => r.number.value == number && r.user.value == user && r.isOpen)
      (OrderRow.settle amount)
    return (.ofRows (changed.map fun r => [("order_id", .uuid r.id)]), { t with orders })
  | .creditBalance user amount => do
    let (changed, balances) ← t.balances.update (·.user.value == user)
      (BalanceRow.credit now amount)
    return (⟨[], changed.length⟩, { t with balances })
  | .debitBalance user amount => do
    let (changed, balances) ← t.balances.update (·.user.value == user)
      (BalanceRow.debit now amount)
    return (.ofRows (changed.map BalanceRow.cells), { t with balances })
  | .insertWithdrawal id user number amount => do
    let r : WithdrawalRow := ⟨id, ← Varchar.store 64 user, ← Varchar.store 32 number,
      ← Money.store amount.value, now⟩
    let withdrawals ← t.withdrawals.insert r
    return (.ofRows [r.cells], { t with withdrawals })
  | .withdrawals user =>
    .ok (.ofRows (((plan.select s t.withdrawals (·.user.value == user)).mergeSort fun a b =>
      decide (a.processedAt ≤ b.processedAt)).map WithdrawalRow.cells), t)

/-- What a statement answers, and the tables behind it. -/
def execute (s : Statement) (t : Tables) : Except DatabaseError (Reply × Tables) :=
  match s.parameters.findSome? Parameter.refusal? with
  | some e => .error e
  | none => plan.run now s t

/-- A statement is run if no parameter is refused. -/
theorem execute_eq_run {s : Statement} (h : ∀ p ∈ s.parameters, p.refusal? = none) (t : Tables) :
    plan.execute now s t = plan.run now s t := by
  rw [execute, List.findSome?_eq_none_iff.mpr h]

end Plan

/-! ## The server -/

/-- What the calls of one client see of the server. -/
structure Session where
  tables : Tables
  /-- The tables as the transaction found them, while there is one. -/
  saved : Option Tables := none
  /-- The fresh ids, the next one first. -/
  draws : ℕ → Uuid
  /-- The time, for the client and for `NOW()`. -/
  now : Instant

/-- What lasts if the client goes away: a transaction that has not ended does not. -/
def Session.committed (c : Session) : Tables := c.saved.getD c.tables

/-- A server with tables. -/
def server (plan : Plan) : Server Session where
  execute s := .ofFun fun c =>
    match plan.execute c.now.micros s c.tables with
    | .ok (reply, tables) => (.ok reply, { c with tables })
    | .error e => (.error (.error (.database e)), c)
  begin := .ofFun fun c => (.ok (), { c with saved := some c.tables })
  commit := .ofFun fun c => (.ok (), { c with saved := none })
  rollback := .ofFun fun c => (.ok (), { c with tables := c.committed, saved := none })
  abandon := .ofFun fun c => (.ok (), { c with tables := c.committed, saved := none })
  freshId := .ofFun fun c => (.ok (c.draws 0), { c with draws := fun n => c.draws (n + 1) })
  now := .ofFun fun c => (.ok c.now, c)

end LoyaltyPoints.Database
