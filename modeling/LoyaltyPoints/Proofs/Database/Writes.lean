import LoyaltyPoints.Proofs.Database.Queries

/-! # Database: what writes to orders do

    Orders are stored, marked and settled by one statement each. On tables that show a ledger each
    of them answers what the ledger answers to the same operation, and leaves tables that show
    what the ledger becomes. A number that is taken is refused by a key, a terminal order is left
    alone by a condition; the ledger asks before it writes. -/

namespace LoyaltyPoints.Database

/-! ## Steps of an operation -/

/-- The session after an id was drawn. -/
def Session.drawn (c : Session) : Session := { c with draws := fun n => c.draws (n + 1) }

@[simp] theorem Session.drawn_now (c : Session) : c.drawn.now = c.now := rfl

@[simp] theorem Session.drawn_tables (c : Session) : c.drawn.tables = c.tables := rfl

section steps

variable {plan : Plan} {c c' : Session} {α : Type} {s : Statement}

/-- What follows a step that went well. -/
theorem perform_bind_ok {β : Type} {a : Action Session α} {f : α → Action Session β} {x : α}
    (h : a.perform c = (.ok x, c')) : (a >>= f).perform c = (f x).perform c' := by
  rw [Action.perform_bind, h]

theorem perform_freshId : (server plan).freshId.perform c = (.ok (c.draws 0), c.drawn) := rfl

theorem perform_now : (server plan).now.perform c = (.ok c.now, c) := rfl

theorem perform_execute_error {e : DatabaseError}
    (h : plan.execute c.now.micros s c.tables = .error e) :
    ((server plan).execute s).perform c = (.error (.error (.database e)), c) := by
  rw [server, Action.perform_ofFun, h]

theorem perform_fetchOne_error (read : Row → Except DatabaseError α) {e : DatabaseError}
    (h : plan.execute c.now.micros s c.tables = .error e) :
    ((server plan).fetchOne read s).perform c = (.error (.error (.database e)), c) := by
  rw [Server.fetchOne, Action.perform_bind, Server.fetchOptional, Action.perform_bind,
    perform_execute_error h]

theorem perform_attempt_ok {a : Action Session α} {x : α} (h : a.perform c = (.ok x, c')) :
    a.attempt.perform c = (.ok (.ok x), c') := by
  rw [Action.attempt, Action.perform_ofFun, h]

theorem perform_attempt_error {a : Action Session α} {e : Error}
    (h : a.perform c = (.error (.error e), c')) : a.attempt.perform c = (.ok (.error e), c') := by
  rw [Action.attempt, Action.perform_ofFun, h]

end steps

/-! ## Orders -/

section orders

variable (plan : Plan) {c : Session} {l : Ledger}

/-- The orders of a ledger that tables show have different numbers. -/
theorem Tables.Shows.numbers_nodup {t : Tables} (h : t.Shows l) :
    (l.orders.map (·.number)).Nodup := by
  have hrows : (t.orders.rows.map (·.number.value)).Nodup := by
    rw [List.Nodup, List.pairwise_map]
    refine t.orders.apart.imp ?_
    intro a b hapart heq
    rw [OrderRow.not_apart heq] at hapart
    cases hapart
  have hsame := congrArg (List.map OrderEntry.number) h.orders
  rw [List.map_map, List.map_map] at hsame
  exact hsame ▸ hrows

/-- An order is the one that its number is found by. -/
theorem Tables.Shows.orderByNumber_eq {t : Tables} (h : t.Shows l) {o : Order}
    (ho : o ∈ l.orders) : l.orderByNumber o.number = some o := by
  cases hfind : l.orderByNumber o.number with
  | none => exact absurd (List.mem_map_of_mem ho) (Ledger.orderByNumber_eq_none_iff.mp hfind)
  | some o' =>
    rw [List.inj_on_of_nodup_map h.numbers_nodup (Ledger.mem_of_orderByNumber hfind) ho
      (Ledger.number_of_orderByNumber hfind)]

/-- Tables whose orders alone are others show the ledger with these orders. -/
theorem Tables.Shows.withOrders {t : Tables} (h : t.Shows l) {rows : Table OrderRow}
    {os : List Order} (horders : rows.rows.map OrderRow.entry = os.map Order.entry) :
    Shows { t with orders := rows } { l with orders := os } :=
  ⟨horders, h.withdrawals, h.current, h.withdrawn⟩

/-- A new order is stored as it was submitted. -/
theorem OrderRow.store_submitted (id : Uuid) {user number : String} (n : ℤ)
    (huser : Varchar.Holds 64 user) (hnumber : Varchar.Holds 32 number) :
    ∃ r, OrderRow.store (.submitted id user number (.ofMicros n)) = .ok r ∧
      r.entry = (Order.submitted id user number (.ofMicros n)).entry := by
  obtain ⟨m, hm, hvalue⟩ := Money.store_of_cents (q := Decimal.zero.value)
    (by rw [Decimal.value_zero]; exact IsCents.zero) (by rw [Decimal.value_zero]; norm_num)
  refine ⟨⟨id, ⟨user, huser⟩, ⟨number, hnumber⟩, ⟨_, Varchar.holds_toText .new⟩, m, n⟩, ?_, ?_⟩
  · simp only [OrderRow.store, Order.submitted, Varchar.store_of_holds huser,
      Varchar.store_of_holds hnumber, hm, sentMicros_ofMicros,
      Varchar.store_of_holds (Varchar.holds_toText .new)]
    rfl
  · rw [OrderRow.entry, Order.entry, hvalue]
    rfl

/-- The parameters of a new order are received. -/
theorem received_insertOrder (id : Uuid) {user number : String} {n : ℤ} (huser : IsText user)
    (hnumber : IsText number) (htime : IsTime n) :
    ∀ p ∈ (Statement.insertOrder (.submitted id user number (.ofMicros n))).parameters,
      p.refusal? = none := by
  simp [Statement.parameters, Parameter.refusal?, Order.submitted, huser, hnumber,
    sentMicros_ofMicros, htime, (Varchar.holds_toText .new).isText]

/-- An order whose number is new is stored. -/
theorem perform_createOrder_new (h : c.tables.Shows l) {user number : String} {n : ℤ}
    (huser : Varchar.Holds 64 user) (hnumber : Varchar.Holds 32 number) (htime : IsTime n)
    (hnow : c.now = .ofMicros n) (hid : ∀ o ∈ l.orders, o.id ≠ c.draws 0)
    (hnew : l.orderByNumber number = none) :
    ∃ o orders, ((server plan).store.createOrder user number).perform c =
        (.ok o, { c.drawn with tables := { c.tables with orders } }) ∧
      o.entry = (Order.submitted (c.draws 0) user number c.now).entry ∧
      Tables.Shows { c.tables with orders }
        { l with orders := l.orders ++ [.submitted (c.draws 0) user number c.now] } := by
  obtain ⟨r, hr, hentry⟩ := OrderRow.store_submitted (c.draws 0) n huser hnumber
  rw [← hnow] at hr hentry
  -- Neither the id, which is fresh, nor the number is that of a row.
  have hapart : ∀ a ∈ c.tables.orders.rows, Keyed.apart a r = true := by
    intro a ha
    obtain ⟨o, ho, heq⟩ := mem_entries h.orders ha
    have haid : o.id = a.id := congrArg OrderEntry.id heq
    have hanumber : o.number = a.number.value := congrArg OrderEntry.number heq
    have hrid : r.id = c.draws 0 := congrArg OrderEntry.id hentry
    have hrnumber : r.number.value = number := congrArg OrderEntry.number hentry
    have hne : a.id ≠ r.id := by
      rw [← haid, hrid]
      exact hid o ho
    have hnumberNe : a.number ≠ r.number := by
      intro heq
      refine Ledger.orderByNumber_eq_none_iff.mp hnew ?_
      rw [← hrnumber, ← heq, ← hanumber]
      exact List.mem_map_of_mem ho
    exact Bool.and_eq_true_iff.mpr ⟨bne_iff_ne.mpr hne, bne_iff_ne.mpr hnumberNe⟩
  obtain ⟨orders, hinsert, hrows⟩ := Table.insert_of_apart hapart
  obtain ⟨o, hread, ho⟩ := OrderRow.read_cells hentry
  have hexec : plan.execute c.drawn.now.micros (.insertOrder (.submitted (c.draws 0) user number
      c.now)) c.drawn.tables = .ok (.ofRows [r.cells], { c.tables with orders }) := by
    rw [hnow, plan.execute_eq_run _ (received_insertOrder _ huser.isText hnumber.isText htime),
      ← hnow]
    show (OrderRow.store _ >>= _) = _
    rw [hr]
    show (c.tables.orders.insert r >>= _) = _
    rw [hinsert]
    rfl
  have hfetch := perform_fetchOne Row.toOrder hexec rfl hread
  refine ⟨o, orders, ?_, ho, h.withOrders ?_⟩
  · show (Server.createOrder (server plan) user number).perform c = _
    rw [Server.createOrder, perform_bind_ok perform_freshId, perform_bind_ok perform_now,
      Session.drawn_now, perform_bind_ok (perform_attempt_ok hfetch)]
    rfl
  · rw [hrows, List.map_append, List.map_append, h.orders, List.map_singleton, List.map_singleton,
      hentry]

/-- An order whose number is taken is refused by the key of the table. -/
theorem perform_createOrder_taken (h : c.tables.Shows l) {user number : String} {n : ℤ}
    (huser : Varchar.Holds 64 user) (hnumber : Varchar.Holds 32 number) (htime : IsTime n)
    (hnow : c.now = .ofMicros n) {o : Order} (ho : l.orderByNumber number = some o) :
    ((server plan).store.createOrder user number).perform c =
      (.error (.error (.duplicateOrderNumber number)), c.drawn) := by
  obtain ⟨r, hr, hentry⟩ := OrderRow.store_submitted (c.draws 0) n huser hnumber
  rw [← hnow] at hr hentry
  -- The row of that order has the number as well, so the new row has a key in common with it.
  obtain ⟨a, ha, heq⟩ := mem_entries h.orders.symm (Ledger.mem_of_orderByNumber ho)
  have hclash : Keyed.apart a r = false := by
    have hanumber : a.number.value = o.number := congrArg OrderEntry.number heq
    have hrnumber : r.number.value = number := congrArg OrderEntry.number hentry
    refine OrderRow.not_apart ?_
    rw [hanumber, hrnumber, Ledger.number_of_orderByNumber ho]
  have hexec : plan.execute c.drawn.now.micros (.insertOrder (.submitted (c.draws 0) user number
      c.now)) c.drawn.tables = .error Table.duplicateKey := by
    rw [hnow, plan.execute_eq_run _ (received_insertOrder _ huser.isText hnumber.isText htime),
      ← hnow]
    show (OrderRow.store _ >>= _) = _
    rw [hr]
    show (c.tables.orders.insert r >>= _) = _
    rw [Table.insert_of_clash ha hclash]
    rfl
  have hfetch := perform_fetchOne_error Row.toOrder hexec
  show (Server.createOrder (server plan) user number).perform c = _
  rw [Server.createOrder, perform_bind_ok perform_freshId, perform_bind_ok perform_now,
    Session.drawn_now, perform_bind_ok (perform_attempt_error hfetch)]
  rfl

/-- A statement that marks orders marks those that the ledger marks. -/
theorem isMarked_eq (ids : List Uuid) {status : OrderStatus} (hmark : status.isMarkable = true)
    {r : OrderRow} {o : Order} (h : r.entry = o.entry) :
    (ids.contains r.id && r.isOpen) = Ledger.isMarked ids status o := by
  have hid : r.id = o.id := congrArg OrderEntry.id h
  have hpending : o.isPending = o.status.canBecome status := by
    rw [Order.isPending]
    cases status with
    | processing | invalid => cases o.status <;> rfl
    | new | processed => cases hmark
  rw [isOpen_eq_isPending h, hpending, hid, Ledger.isMarked]

/-- Marks are made in place, and as many as the ledger makes. -/
theorem execute_markOrders {t : Tables} (h : t.Shows l) (now : ℤ) (ids : List Uuid)
    {status : OrderStatus} (hmark : status.isMarkable = true) :
    ∃ orders, plan.execute now (.markOrders ids status) t =
        .ok (⟨[], l.orders.countP (Ledger.isMarked ids status)⟩, { t with orders }) ∧
      Tables.Shows { t with orders } (l.marked ids status) := by
  have hholds := Varchar.holds_toText status
  obtain ⟨orders, hupdate, hrows⟩ := Table.update_eq t.orders
    (fun r => ids.contains r.id && r.isOpen) (OrderRow.mark status)
    (fun r => { r with status := ⟨status.toText, hholds⟩ })
    (fun r _ _ => by rw [OrderRow.mark, Varchar.store_of_holds hholds]; rfl)
    (fun r _ _ a => ⟨rfl, rfl⟩)
  have hcount := congrArg List.length (filter_entries h.orders fun r _ o _ heq =>
    isMarked_eq ids hmark heq)
  rw [List.length_map, List.length_map, ← List.countP_eq_length_filter] at hcount
  refine ⟨orders, ?_, h.withOrders ?_⟩
  · rw [plan.execute_eq_run _ (by simp [Statement.parameters, Parameter.refusal?, hholds.isText])]
    show (t.orders.update _ _ >>= _) = _
    rw [hupdate, List.countP_eq_length_filter, ← hcount, List.countP_eq_length_filter,
      ← List.length_map]
    rfl
  · rw [hrows]
    refine map_entries h.orders fun r _ o _ heq => ?_
    rw [isMarked_eq ids hmark heq]
    split
    · exact congrArg (fun e : OrderEntry => { e with status := status.toText }) heq
    · exact heq

/-- Marks are judged before a statement is sent, and no ids need no statement. -/
theorem perform_markOrders (h : c.tables.Shows l) (ids : List Uuid) (status : OrderStatus) :
    ∃ orders, ((server plan).store.markOrders ids status).perform c =
        ((l.markOrders ids status).1, { c with tables := { c.tables with orders } }) ∧
      Tables.Shows { c.tables with orders } (l.markOrders ids status).2 := by
  show ∃ orders, (Server.markOrders (server plan) ids status).perform c = _ ∧ _
  unfold Server.markOrders
  rcases l.markOrders_cases ids status with ⟨hmark, hledger⟩ | ⟨hmark, hledger⟩
  · rw [hledger, if_pos hmark]
    by_cases hids : ids = []
    · subst hids
      have hnone : l.orders.countP (Ledger.isMarked [] status) = 0 := List.countP_eq_zero.mpr (by
        intro o _ hmarked
        cases hmarked)
      have hsame : l.marked [] status = l := by simp [Ledger.marked, Ledger.isMarked]
      exact ⟨c.tables.orders, by rw [hnone]; rfl, by rwa [hsame]⟩
    · obtain ⟨orders, hexec, hshows⟩ := execute_markOrders plan h c.now.micros ids hmark
      refine ⟨orders, ?_, hshows⟩
      rw [if_neg (by simpa using hids), perform_bind_ok (perform_execute hexec)]
      rfl
  · rw [hledger, hmark]
    exact ⟨c.tables.orders, rfl, h⟩

/-- The condition that the statement of a credit puts on a row. -/
def settleable (cr : Credit) (r : OrderRow) : Bool :=
  r.number.value == cr.number && r.user.value == cr.user && r.isOpen

theorem settleable_eq {cr : Credit} {r : OrderRow} {o : Order} (h : r.entry = o.entry) :
    settleable cr r = (o.number == cr.number && Ledger.settles cr o) := by
  have hnumber : r.number.value = o.number := congrArg OrderEntry.number h
  have huser : r.user.value = o.user := congrArg OrderEntry.user h
  have hstatus : o.isPending = o.status.canBecome .processed := by
    rw [Order.isPending]
    cases o.status <;> rfl
  rw [settleable, hnumber, huser, isOpen_eq_isPending h, hstatus, Ledger.settles, Bool.and_assoc]

/-- The order of a credit is settled in place. -/
theorem execute_settleOrder {t : Tables} (h : t.Shows l) (now : ℤ) {cr : Credit} {o : Order}
    (hnumber : IsText cr.number) (huser : IsText cr.user)
    (ho : l.orderByNumber cr.number = some o) (hs : Ledger.settles cr o = true)
    (hcents : IsCents cr.amount.value) (hlt : |cr.amount.value| < 10 ^ 14) :
    ∃ reply orders, plan.execute now (.settleOrder cr.number cr.user cr.amount) t =
        .ok (reply, { t with orders }) ∧
      (∃ id rest, reply.rows = [("order_id", .uuid id)] :: rest) ∧
      Tables.Shows { t with orders } (l.settled cr) := by
  obtain ⟨m, hm, hvalue⟩ := Money.store_of_cents hcents hlt
  have hholds := Varchar.holds_toText .processed
  obtain ⟨orders, hupdate, hrows⟩ := Table.update_eq t.orders (settleable cr)
    (OrderRow.settle cr.amount) (fun r => { r with status := ⟨_, hholds⟩, accrual := m })
    (fun r _ _ => by
      show (Varchar.store 16 OrderStatus.processed.toText >>= _) = _
      rw [Varchar.store_of_holds hholds, hm]
      rfl)
    (fun r _ _ a => ⟨rfl, rfl⟩)
  have hexec : plan.execute now (.settleOrder cr.number cr.user cr.amount) t =
      .ok (.ofRows (((t.orders.rows.filter (settleable cr)).map fun r =>
        ({ r with status := ⟨_, hholds⟩, accrual := m } : OrderRow)).map
          fun r => [("order_id", .uuid r.id)]), { t with orders }) := by
    rw [plan.execute_eq_run _ (by simp [Statement.parameters, Parameter.refusal?, hnumber, huser])]
    show (t.orders.update (settleable cr) _ >>= _) = _
    rw [hupdate]
    rfl
  refine ⟨_, orders, hexec, ?_, h.withOrders ?_⟩
  · -- The row of the order itself is among those that were changed.
    obtain ⟨r, hr, heq⟩ := mem_entries h.orders.symm (Ledger.mem_of_orderByNumber ho)
    have hset : settleable cr r = true := by
      rw [settleable_eq heq, hs, Bool.and_true, beq_iff_eq]
      exact Ledger.number_of_orderByNumber ho
    have hmem : r ∈ t.orders.rows.filter (settleable cr) := List.mem_filter.mpr ⟨hr, hset⟩
    obtain ⟨x, xs, hxs⟩ := List.exists_cons_of_ne_nil (List.ne_nil_of_mem hmem)
    rw [hxs]
    exact ⟨_, _, rfl⟩
  · show orders.rows.map OrderRow.entry =
      (Ledger.updateOrder cr.number (Ledger.settledBy cr) l.orders).map Order.entry
    rw [hrows, Ledger.updateOrder_of_nodup _ h.numbers_nodup]
    refine map_entries h.orders fun r _ o' ho' heq => ?_
    rw [settleable_eq heq]
    by_cases hsought : o'.number = cr.number
    · -- There is one order with this number.
      have hsame : o' = o := by
        have hfind := h.orderByNumber_eq ho'
        rw [hsought, ho] at hfind
        exact (Option.some_inj.mp hfind).symm
      rw [hsame, hs, Bool.and_true]
      split
      · rw [← hsame, Ledger.settledBy, OrderRow.entry, hvalue]
        exact congrArg (fun e : OrderEntry =>
          { e with status := "PROCESSED", accrual := cr.amount.value }) heq
      · rw [← hsame]
        exact heq
    · have hne : (o'.number == cr.number) = false := beq_eq_false_iff_ne.mpr hsought
      rw [hne]
      exact heq

/-- A credit that settles nothing in the ledger changes no row. -/
theorem execute_settleOrder_nil {t : Tables} (h : t.Shows l) (now : ℤ) {cr : Credit}
    (hnumber : IsText cr.number) (huser : IsText cr.user)
    (hnone : ∀ o, l.orderByNumber cr.number = some o → Ledger.settles cr o = false) :
    ∃ orders, plan.execute now (.settleOrder cr.number cr.user cr.amount) t =
      .ok (.ofRows [], { t with orders }) := by
  have hno : ∀ r ∈ t.orders.rows, ¬ settleable cr r = true := by
    intro r hr hset
    obtain ⟨o, ho, heq⟩ := mem_entries h.orders hr
    rw [settleable_eq heq.symm, Bool.and_eq_true, beq_iff_eq] at hset
    rw [hnone o (hset.1 ▸ h.orderByNumber_eq ho)] at hset
    cases hset.2
  obtain ⟨orders, hupdate, -⟩ := Table.update_eq t.orders (settleable cr)
    (OrderRow.settle cr.amount) id (fun r hr hset => absurd hset (hno r hr))
    (fun r hr hset => absurd hset (hno r hr))
  refine ⟨orders, ?_⟩
  rw [plan.execute_eq_run _ (by simp [Statement.parameters, Parameter.refusal?, hnumber, huser])]
  show (t.orders.update (settleable cr) _ >>= _) = _
  rw [hupdate, List.filter_eq_nil_iff.mpr hno]
  rfl

end orders

end LoyaltyPoints.Database
