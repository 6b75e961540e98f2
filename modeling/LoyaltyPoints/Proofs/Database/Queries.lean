import LoyaltyPoints.Proofs.Database.Tables
import LoyaltyPoints.Proofs.Ledger.Listing

/-! # Database: what queries answer

    The ledger in memory and the one in tables write the same amount in different ways: one as a
    decimal with some places, the other as a number of cents. An entry is a record with numbers
    for amounts, and tables show a ledger if the entries are the same. A query of such tables
    answers the entries that the ledger answers. Rows that a plan brings in another order are no
    obstacle: they are alone, or they are sorted by times that are all different. -/

namespace LoyaltyPoints

/-! ## Times in microseconds -/

namespace Instant

theorem micros_ofMicros (n : ℤ) : (ofMicros n).micros = n := by
  unfold micros ofMicros
  rw [Int.fdiv_eq_ediv_of_nonneg n (by norm_num), Int.fmod_eq_emod_of_nonneg n (by norm_num)]
  dsimp only
  omega

theorem ofMicros_injective : Function.Injective ofMicros :=
  Function.LeftInverse.injective micros_ofMicros

theorem key_ofMicros_strictMono : StrictMono fun n => (ofMicros n).key := by
  intro m n h
  show (ofMicros m).key < (ofMicros n).key
  unfold key ofMicros
  rw [Prod.Lex.toLex_lt_toLex]
  simp only [Int.fdiv_eq_ediv_of_nonneg _ (show (0 : ℤ) ≤ 1000000 by norm_num),
    Int.fmod_eq_emod_of_nonneg _ (show (0 : ℤ) ≤ 1000000 by norm_num)]
  omega

theorem compare_ne_gt_iff {a b : Instant} : (a.compare b != .gt) = true ↔ a.key ≤ b.key := by
  rw [compare_eq, bne_iff_ne, ne_eq, compare_gt_iff_gt, not_lt]

end Instant

/-! ## Entries -/

/-- An order with its status as it is written and its points as a number. -/
structure OrderEntry where
  id : Uuid
  user : String
  number : String
  status : String
  accrual : ℚ
  uploadedAt : Instant

/-- A withdrawal with its sum as a number. -/
structure WithdrawalEntry where
  id : Uuid
  user : String
  number : String
  sum : ℚ
  processedAt : Instant

/-- The points of a user as numbers. -/
structure BalanceEntry where
  user : String
  current : ℚ
  withdrawn : ℚ

def OrderEntry.position (e : OrderEntry) : Position := ⟨e.uploadedAt, e.id⟩

def Order.entry (o : Order) : OrderEntry :=
  ⟨o.id, o.user, o.number, o.status.toText, o.accrual.value, o.uploadedAt⟩

def Withdrawal.entry (w : Withdrawal) : WithdrawalEntry :=
  ⟨w.id, w.user, w.number, w.sum.value, w.processedAt⟩

def Balance.entry (b : Balance) : BalanceEntry := ⟨b.user, b.current.value, b.withdrawn.value⟩

theorem OrderStatus.ofText?_toText (s : OrderStatus) : ofText? s.toText = some s := by
  cases s <;> rfl

namespace Database

def OrderRow.entry (r : OrderRow) : OrderEntry :=
  ⟨r.id, r.user.value, r.number.value, r.status.value, r.accrual.value, .ofMicros r.uploadedAt⟩

def WithdrawalRow.entry (r : WithdrawalRow) : WithdrawalEntry :=
  ⟨r.id, r.user.value, r.number.value, r.sum.value, .ofMicros r.processedAt⟩

def BalanceRow.entry (r : BalanceRow) : BalanceEntry :=
  ⟨r.user.value, r.current.value, r.withdrawn.value⟩

/-! ## Reading rows -/

theorem asAmount_numeric (m : Money) :
    ∃ d, Row.asAmount (.numeric m.toNumeric) = .ok d ∧ d.value = m.value :=
  m.toDecimal_toNumeric

/-- The row of an order is read as that order. -/
theorem OrderRow.read_cells {r : OrderRow} {o : Order} (h : r.entry = o.entry) :
    ∃ o' : Order, Row.toOrder r.cells = .ok o' ∧ o'.entry = o.entry := by
  obtain ⟨d, hd, hvalue⟩ := asAmount_numeric r.accrual
  have hstatus : r.status.value = o.status.toText := congrArg OrderEntry.status h
  have hread : Row.asStatus (.text r.status.value) = .ok o.status := by
    rw [Row.asStatus, hstatus, OrderStatus.ofText?_toText]
  refine ⟨⟨r.id, r.user.value, r.number.value, o.status, d, .ofMicros r.uploadedAt⟩, ?_, ?_⟩
  · simp [Row.toOrder, OrderRow.cells, Row.get, Row.asUuid, Row.asText, Row.asTime, hread, hd]
    rfl
  · rw [← h, Order.entry, OrderRow.entry, hvalue, hstatus]

theorem WithdrawalRow.read_cells (r : WithdrawalRow) :
    ∃ w : Withdrawal, Row.toWithdrawal r.cells = .ok w ∧ w.entry = r.entry := by
  obtain ⟨d, hd, hvalue⟩ := asAmount_numeric r.sum
  refine ⟨⟨r.id, r.user.value, r.number.value, d, .ofMicros r.processedAt⟩, ?_, ?_⟩
  · simp [Row.toWithdrawal, WithdrawalRow.cells, Row.get, Row.asUuid, Row.asText, Row.asTime, hd]
    rfl
  · rw [Withdrawal.entry, WithdrawalRow.entry, hvalue]

theorem BalanceRow.read_cells (r : BalanceRow) :
    ∃ b : Balance, Row.toBalance r.cells = .ok b ∧ b.id = r.id ∧ b.entry = r.entry := by
  obtain ⟨current, hcurrent, hcurrentValue⟩ := asAmount_numeric r.current
  obtain ⟨withdrawn, hwithdrawn, hwithdrawnValue⟩ := asAmount_numeric r.withdrawn
  refine ⟨⟨r.id, r.user.value, current, withdrawn, .ofMicros r.createdAt, .ofMicros r.updatedAt⟩,
    ?_, rfl, ?_⟩
  · simp [Row.toBalance, BalanceRow.cells, Row.get, Row.asUuid, Row.asText, Row.asTime, hcurrent,
      hwithdrawn]
    rfl
  · rw [Balance.entry, BalanceRow.entry, hcurrentValue, hwithdrawnValue]

/-! ## Lists with the same entries -/

section entries

variable {α β γ : Type} {e : α → γ} {e' : β → γ} {xs : List α} {ys : List β}

theorem mem_entries (h : xs.map e = ys.map e') {x : α} (hx : x ∈ xs) : ∃ y ∈ ys, e' y = e x := by
  have hmem : e x ∈ ys.map e' := h ▸ List.mem_map_of_mem hx
  exact List.mem_map.mp hmem

/-- Conditions that agree on entries choose the same ones. -/
theorem filter_entries (h : xs.map e = ys.map e') {p : α → Bool} {q : β → Bool}
    (hpq : ∀ x ∈ xs, ∀ y ∈ ys, e x = e' y → p x = q y) :
    (xs.filter p).map e = (ys.filter q).map e' := by
  induction xs generalizing ys with
  | nil =>
    obtain rfl : ys = [] := by simpa using h.symm
    rfl
  | cons x xs ih =>
    cases ys with
    | nil => cases h
    | cons y ys =>
      obtain ⟨hxy, hrest⟩ := List.cons_eq_cons.mp h
      have hrest := ih hrest fun x hx y hy =>
        hpq x (List.mem_cons_of_mem _ hx) y (List.mem_cons_of_mem _ hy)
      rw [List.filter_cons, List.filter_cons, hpq x (by simp) y (by simp) hxy]
      split
      · rw [List.map_cons, List.map_cons, hxy, hrest]
      · exact hrest

theorem find?_entries (h : xs.map e = ys.map e') {p : α → Bool} {q : β → Bool}
    (hpq : ∀ x ∈ xs, ∀ y ∈ ys, e x = e' y → p x = q y) :
    (xs.find? p).map e = (ys.find? q).map e' := by
  rw [← List.head?_filter, ← List.head?_filter, ← List.head?_map, ← List.head?_map,
    filter_entries h hpq]

/-- Changes that agree on entries lead to the same ones. -/
theorem map_entries (h : xs.map e = ys.map e') {f : α → α} {g : β → β}
    (hfg : ∀ x ∈ xs, ∀ y ∈ ys, e x = e' y → e (f x) = e' (g y)) :
    (xs.map f).map e = (ys.map g).map e' := by
  induction xs generalizing ys with
  | nil =>
    obtain rfl : ys = [] := by simpa using h.symm
    rfl
  | cons x xs ih =>
    cases ys with
    | nil => cases h
    | cons y ys =>
      obtain ⟨hxy, hrest⟩ := List.cons_eq_cons.mp h
      have hrest := ih hrest fun x hx y hy =>
        hfg x (List.mem_cons_of_mem _ hx) y (List.mem_cons_of_mem _ hy)
      rw [List.map_cons, List.map_cons, List.map_cons, List.map_cons,
        hfg x (by simp) y (by simp) hxy, hrest]

theorem pairwise_mergeSort_entries {κ : Type} [LinearOrder κ] (key : γ → κ) {le : α → α → Bool}
    (hle : ∀ a b, le a b = true ↔ key (e a) ≤ key (e b)) (xs : List α) :
    ((xs.mergeSort le).map e).Pairwise fun a b => key a ≤ key b := by
  rw [List.pairwise_map]
  refine (List.pairwise_mergeSort ?_ ?_ xs).imp fun hab => (hle _ _).mp hab
  · intro a b c hab hbc
    rw [hle] at hab hbc ⊢
    exact hab.trans hbc
  · intro a b
    rw [Bool.or_eq_true, hle, hle]
    exact le_total _ _

/-- There is one way to sort entries by a key that tells them apart. -/
theorem mergeSort_entries {κ : Type} [LinearOrder κ] (key : γ → κ) (le : α → α → Bool)
    (le' : β → β → Bool) (hle : ∀ a b, le a b = true ↔ key (e a) ≤ key (e b))
    (hle' : ∀ a b, le' a b = true ↔ key (e' a) ≤ key (e' b))
    (hperm : (xs.map e).Perm (ys.map e'))
    (hkey : ∀ a ∈ ys, ∀ b ∈ ys, key (e' a) = key (e' b) → e' a = e' b) :
    (xs.mergeSort le).map e = (ys.mergeSort le').map e' := by
  have hsame : ((xs.mergeSort le).map e).Perm ((ys.mergeSort le').map e') :=
    ((List.mergeSort_perm xs le).map e).trans
      (hperm.trans ((List.mergeSort_perm ys le').map e').symm)
  -- Both lists are sorted, and no two entries share a key that the order could leave open.
  refine hsame.eq_of_pairwise ?_ (pairwise_mergeSort_entries key hle xs)
    (pairwise_mergeSort_entries key hle' ys)
  intro a b ha hb hab hba
  obtain ⟨b', hb', rfl⟩ := List.mem_map.mp hb
  obtain ⟨a', ha', rfl⟩ := List.mem_map.mp (hsame.mem_iff.mp ha)
  exact hkey a' (List.mem_mergeSort.mp ha') b' (List.mem_mergeSort.mp hb') (le_antisymm hab hba)

/-- Rows that are read one by one are read as a list. -/
theorem mapM_entries {cells : α → Row} {read : Row → Except DatabaseError β}
    (hread : ∀ x y, e x = e' y → ∃ z, read (cells x) = .ok z ∧ e' z = e' y)
    (h : xs.map e = ys.map e') :
    ∃ zs, (xs.map cells).mapM read = .ok zs ∧ zs.map e' = ys.map e' := by
  induction xs generalizing ys with
  | nil =>
    obtain rfl : ys = [] := by simpa using h.symm
    exact ⟨[], rfl, rfl⟩
  | cons x xs ih =>
    cases ys with
    | nil => cases h
    | cons y ys =>
      obtain ⟨hxy, hrest⟩ := List.cons_eq_cons.mp h
      obtain ⟨z, hz, hzy⟩ := hread x y hxy
      obtain ⟨zs, hzs, hentries⟩ := ih hrest
      refine ⟨z :: zs, ?_, by rw [List.map_cons, List.map_cons, hzy, hentries]⟩
      rw [List.map_cons, List.mapM_cons, hz, hzs]
      rfl

end entries

/-! ## Fetching -/

section fetching

variable {plan : Plan} {c : Session} {s : Statement} {α : Type}
  (read : Row → Except DatabaseError α) {reply : Reply} {tables : Tables}

theorem perform_execute (h : plan.execute c.now.micros s c.tables = .ok (reply, tables)) :
    ((server plan).execute s).perform c = (.ok reply, { c with tables }) := by
  rw [server, Action.perform_ofFun, h]

theorem perform_fetchAll (h : plan.execute c.now.micros s c.tables = .ok (reply, tables))
    {xs : List α} (hread : reply.rows.mapM read = .ok xs) :
    ((server plan).fetchAll read s).perform c = (.ok xs, { c with tables }) := by
  rw [Server.fetchAll, Action.perform_bind, perform_execute h]
  dsimp only
  rw [hread]
  rfl

theorem perform_fetchOptional_nil (h : plan.execute c.now.micros s c.tables = .ok (reply, tables))
    (hrows : reply.rows = []) :
    ((server plan).fetchOptional read s).perform c = (.ok none, { c with tables }) := by
  rw [Server.fetchOptional, Action.perform_bind, perform_execute h]
  dsimp only
  rw [hrows]
  rfl

theorem perform_fetchOptional_cons (h : plan.execute c.now.micros s c.tables = .ok (reply, tables))
    {r : Row} {rows : List Row} (hrows : reply.rows = r :: rows) {x : α} (hread : read r = .ok x) :
    ((server plan).fetchOptional read s).perform c = (.ok (some x), { c with tables }) := by
  rw [Server.fetchOptional, Action.perform_bind, perform_execute h]
  dsimp only
  rw [hrows]
  dsimp only
  rw [hread]
  rfl

theorem perform_fetchOne (h : plan.execute c.now.micros s c.tables = .ok (reply, tables))
    {r : Row} {rows : List Row} (hrows : reply.rows = r :: rows) {x : α} (hread : read r = .ok x) :
    ((server plan).fetchOne read s).perform c = (.ok x, { c with tables }) := by
  rw [Server.fetchOne, Action.perform_bind, perform_fetchOptional_cons read h hrows hread]
  rfl

end fetching

/-! ## Tables that show a ledger -/

namespace Tables

/-- The row of a user's balance. -/
def balance? (user : String) (t : Tables) : Option BalanceRow :=
  t.balances.rows.find? (·.user.value == user)

/-- The points that a user can spend; none without a row. -/
def current (user : String) (t : Tables) : ℚ := ((t.balance? user).map (·.current.value)).getD 0

/-- The points that a user has spent. -/
def withdrawn (user : String) (t : Tables) : ℚ :=
  ((t.balance? user).map (·.withdrawn.value)).getD 0

/-- Tables and a ledger with the same entries. A balance that is not there counts as one without
    points. -/
structure Shows (t : Tables) (l : Ledger) : Prop where
  orders : t.orders.rows.map OrderRow.entry = l.orders.map Order.entry
  withdrawals : t.withdrawals.rows.map WithdrawalRow.entry = l.withdrawals.map Withdrawal.entry
  current : ∀ user, t.current user = (l.current user).value
  withdrawn : ∀ user, t.withdrawn user = (l.withdrawn user).value

end Tables

/-! ## Queries of orders and withdrawals -/

section queries

variable (plan : Plan) {c : Session} {l : Ledger}

/-- The entries that are selected are those the ledger filters, in any order. -/
theorem select_perm {ρ α γ : Type} [Keyed ρ] {e : ρ → γ} {e' : α → γ} {t : Table ρ} {ys : List α}
    (h : t.rows.map e = ys.map e') (s : Statement) {p : ρ → Bool} {q : α → Bool}
    (hpq : ∀ x y, e x = e' y → p x = q y) :
    ((plan.select s t p).map e).Perm ((ys.filter q).map e') := by
  refine ((plan.scan_perm s _).map _).trans (List.Perm.of_eq ?_)
  exact filter_entries h fun x _ y _ heq => hpq x y heq

/-- A query by a key answers the one order that the ledger finds. -/
theorem perform_findOrder (h : c.tables.Shows l) {s : Statement} {p : OrderRow → Bool}
    {q : Order → Bool} (hpq : ∀ r o, r.entry = o.entry → p r = q o)
    (hkey : ∀ a b, p a = true → p b = true → Keyed.apart a b = false)
    (hexec : plan.execute c.now.micros s c.tables =
      .ok (.ofRows ((plan.select s c.tables.orders p).map OrderRow.cells), c.tables)) :
    ∃ o, ((server plan).fetchOptional Row.toOrder s).perform c = (.ok o, c) ∧
      o.map Order.entry = (l.orders.find? q).map Order.entry := by
  have hfind := find?_entries h.orders fun r _ o _ heq => hpq r o heq
  rw [Plan.select_eq_toList plan s _ hkey] at hexec
  cases hrow : c.tables.orders.rows.find? p with
  | none =>
    rw [hrow] at hexec hfind
    exact ⟨none, perform_fetchOptional_nil _ hexec rfl, hfind⟩
  | some r =>
    rw [hrow] at hexec hfind
    obtain ⟨o, ho, hentry⟩ := Option.map_eq_some_iff.mp hfind.symm
    obtain ⟨o', hread, hentry'⟩ := OrderRow.read_cells hentry.symm
    refine ⟨some o', perform_fetchOptional_cons _ hexec rfl hread, ?_⟩
    rw [ho, Option.map_some, Option.map_some, hentry']

theorem perform_orderByNumber (h : c.tables.Shows l) {number : String} (hnumber : IsText number) :
    ∃ o, ((server plan).store.orderByNumber number).perform c = (.ok o, c) ∧
      o.map Order.entry = (l.orderByNumber number).map Order.entry := by
  refine perform_findOrder plan h (p := (·.number.value == number)) ?_ ?_
    (plan.execute_eq_run _ (by simp [Statement.parameters, Parameter.refusal?, hnumber]) _)
  · intro r o heq
    have hnumber : r.number.value = o.number := congrArg OrderEntry.number heq
    rw [hnumber]
  · intro a b ha hb
    exact OrderRow.not_apart ((beq_iff_eq.mp ha).trans (beq_iff_eq.mp hb).symm)

theorem perform_userOrder (h : c.tables.Shows l) {user number : String} (huser : IsText user)
    (hnumber : IsText number) :
    ∃ o, ((server plan).store.userOrder user number).perform c = (.ok o, c) ∧
      o.map Order.entry = (l.userOrder user number).map Order.entry := by
  refine perform_findOrder plan h
    (p := fun r => r.user.value == user && r.number.value == number) ?_ ?_
    (plan.execute_eq_run _ (by simp [Statement.parameters, Parameter.refusal?, huser, hnumber]) _)
  · intro r o heq
    have huser : r.user.value = o.user := congrArg OrderEntry.user heq
    have hnumber : r.number.value = o.number := congrArg OrderEntry.number heq
    rw [huser, hnumber, Bool.and_comm]
  · intro a b ha hb
    rw [Bool.and_eq_true, beq_iff_eq, beq_iff_eq] at ha hb
    exact OrderRow.not_apart (ha.2.trans hb.2.symm)

/-- Orders of different times have the same place in both lists. -/
theorem eq_of_uploadedAt (htimes : (l.orders.map (·.uploadedAt)).Nodup) {q : Order → Bool}
    {a b : Order} (ha : a ∈ l.orders.filter q) (hb : b ∈ l.orders.filter q)
    (h : a.uploadedAt.key = b.uploadedAt.key) : a = b :=
  List.inj_on_of_nodup_map htimes (List.mem_filter.mp ha).1 (List.mem_filter.mp hb).1
    (Instant.key_injective h)

/-- The orders of a user are sorted by times. -/
theorem perform_userOrders (h : c.tables.Shows l)
    (htimes : (l.orders.map (·.uploadedAt)).Nodup) {user : String} (huser : IsText user) :
    ∃ os, ((server plan).store.userOrders user).perform c = (.ok os, c) ∧
      os.map Order.entry = (l.userOrders user).map Order.entry := by
  have hperm := select_perm plan h.orders (.userOrders user)
    (p := (·.user.value == user)) (q := (·.user == user)) (by
      intro r o heq
      have huser : r.user.value = o.user := congrArg OrderEntry.user heq
      rw [huser])
  have hsort := mergeSort_entries (fun e => e.uploadedAt.key)
    (fun a b => decide (a.uploadedAt ≤ b.uploadedAt))
    (fun a b => a.uploadedAt.compare b.uploadedAt != .gt)
    (by
      intro a b
      rw [decide_eq_true_iff]
      exact Instant.key_ofMicros_strictMono.le_iff_le.symm)
    (fun a b => Instant.compare_ne_gt_iff) hperm
    (fun a ha b hb hkey => congrArg Order.entry (eq_of_uploadedAt htimes ha hb hkey))
  obtain ⟨os, hos, hentries⟩ := mapM_entries (fun _ _ => OrderRow.read_cells) hsort
  have hexec := plan.execute_eq_run c.now.micros (s := .userOrders user)
    (by simp [Statement.parameters, Parameter.refusal?, huser]) c.tables
  exact ⟨os, perform_fetchAll _ hexec hos, hentries⟩

theorem isOpen_eq_isPending {r : OrderRow} {o : Order} (h : r.entry = o.entry) :
    r.isOpen = o.isPending := by
  have hstatus : r.status.value = o.status.toText := congrArg OrderEntry.status h
  rw [OrderRow.isOpen, hstatus, Order.isPending]
  cases o.status <;> rfl

/-- A row is compared with a position as its order is. -/
theorem isBehind_eq {after : Option Position}
    (hafter : ∀ p ∈ after, ∃ n, IsTime n ∧ p.uploadedAt = .ofMicros n) {r : OrderRow} {o : Order}
    (h : r.entry = o.entry) : r.isBehind after = Ledger.isBehind after o := by
  have hid : r.id = o.id := congrArg OrderEntry.id h
  have htime : Instant.ofMicros r.uploadedAt = o.uploadedAt := congrArg OrderEntry.uploadedAt h
  cases after with
  | none => rfl
  | some p =>
    obtain ⟨n, -, hn⟩ := hafter p rfl
    rw [Bool.eq_iff_iff, OrderRow.isBehind, decide_eq_true_iff, Ledger.isBehind,
      Position.before_iff, Position.key, Position.key, Prod.Lex.toLex_lt_toLex, Order.position,
      hn, ← htime, hid, sentMicros_ofMicros]
    dsimp only
    rw [Instant.key_ofMicros_strictMono.lt_iff_lt, Instant.key_injective.eq_iff,
      Instant.ofMicros_injective.eq_iff]

/-- A page of pending orders is sorted by positions and cut off at the same length. -/
theorem perform_pendingOrders (h : c.tables.Shows l)
    (htimes : (l.orders.map (·.uploadedAt)).Nodup) {after : Option Position}
    (hafter : ∀ p ∈ after, ∃ n, IsTime n ∧ p.uploadedAt = .ofMicros n) {limit : ℤ}
    (hlimit : 0 ≤ limit) :
    ∃ os, ((server plan).store.pendingOrders after limit).perform c = (.ok os, c) ∧
      os.map Order.entry = (l.pendingOrders after limit).map Order.entry := by
  have hperm := select_perm plan h.orders (.pendingOrders after limit)
    (p := fun r => r.isOpen && r.isBehind after)
    (q := fun o => o.isPending && Ledger.isBehind after o) (by
      intro r o heq
      rw [isOpen_eq_isPending heq, isBehind_eq hafter heq])
  have hsort := mergeSort_entries (fun e => e.position.key) OrderRow.le
    (fun a b => a.position.compare b.position != .gt)
    (by
      intro a b
      rw [OrderRow.le, decide_eq_true_iff]
      show _ ↔ Position.key ⟨.ofMicros a.uploadedAt, a.id⟩ ≤
        Position.key ⟨.ofMicros b.uploadedAt, b.id⟩
      rw [Position.key, Position.key, Prod.Lex.toLex_le_toLex]
      dsimp only
      rw [Instant.key_ofMicros_strictMono.lt_iff_lt, Instant.key_injective.eq_iff,
        Instant.ofMicros_injective.eq_iff])
    (fun a b => Position.compare_ne_gt_iff) hperm
    (by
      intro a ha b hb hkey
      have hposition : a.position = b.position := Position.key_injective hkey
      refine congrArg Order.entry (eq_of_uploadedAt htimes ha hb ?_)
      exact congrArg (fun p => p.uploadedAt.key) hposition)
  have htake := congrArg (List.take limit.toNat) hsort
  rw [← List.map_take, ← List.map_take] at htake
  obtain ⟨os, hos, hentries⟩ := mapM_entries (fun _ _ => OrderRow.read_cells) htake
  have hreceived : ∀ p ∈ (Statement.pendingOrders after limit).parameters,
      p.refusal? = none := by
    cases after with
    | none => simp [Statement.parameters, Parameter.refusal?]
    | some p =>
      obtain ⟨n, htime, hn⟩ := hafter p rfl
      simp [Statement.parameters, Parameter.refusal?, hn, sentMicros_ofMicros, htime]
  have hrun : plan.run c.now.micros (.pendingOrders after limit) c.tables =
      .ok (.ofRows ((((plan.select (.pendingOrders after limit) c.tables.orders fun r =>
        r.isOpen && r.isBehind after).mergeSort OrderRow.le).take limit.toNat).map
          OrderRow.cells), c.tables) :=
    if_neg (not_lt.mpr hlimit)
  have hexec := (plan.execute_eq_run c.now.micros hreceived c.tables).trans hrun
  exact ⟨os, perform_fetchAll _ hexec hos, hentries⟩

/-- The withdrawals of a user are sorted by times. -/
theorem perform_withdrawals (h : c.tables.Shows l)
    (htimes : (l.withdrawals.map (·.processedAt)).Nodup) {user : String} (huser : IsText user) :
    ∃ ws, ((server plan).store.withdrawals user).perform c = (.ok ws, c) ∧
      ws.map Withdrawal.entry = (l.userWithdrawals user).map Withdrawal.entry := by
  have hperm := select_perm plan h.withdrawals (.withdrawals user)
    (p := (·.user.value == user)) (q := (·.user == user)) (by
      intro r w heq
      have huser : r.user.value = w.user := congrArg WithdrawalEntry.user heq
      rw [huser])
  have hsort := mergeSort_entries (fun e => e.processedAt.key)
    (fun a b => decide (a.processedAt ≤ b.processedAt))
    (fun a b => a.processedAt.compare b.processedAt != .gt)
    (by
      intro a b
      rw [decide_eq_true_iff]
      exact Instant.key_ofMicros_strictMono.le_iff_le.symm)
    (fun a b => Instant.compare_ne_gt_iff) hperm
    (by
      intro a ha b hb hkey
      exact congrArg Withdrawal.entry (List.inj_on_of_nodup_map htimes (List.mem_filter.mp ha).1
        (List.mem_filter.mp hb).1 (Instant.key_injective hkey)))
  obtain ⟨ws, hws, hentries⟩ := mapM_entries (fun r w heq => by
    obtain ⟨w', hread, hentry⟩ := r.read_cells
    exact ⟨w', hread, hentry.trans heq⟩) hsort
  have hexec := plan.execute_eq_run c.now.micros (s := .withdrawals user)
    (by simp [Statement.parameters, Parameter.refusal?, huser]) c.tables
  exact ⟨ws, perform_fetchAll _ hexec hws, hentries⟩

end queries

end Database

end LoyaltyPoints
