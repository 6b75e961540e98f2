import LoyaltyPoints.Proofs.Database.Writes

/-! # Database: what transactions do

    Points move inside of transactions. A credit and a debit open the balance of the user, lock it,
    and change it by one statement; the order or the withdrawal belongs to the same transaction. A
    credit that settles nothing and a debit that is not covered roll back, and then nothing has
    happened, not even the opening of the balance. -/

namespace LoyaltyPoints

/-- The id of a user's balance. -/
def Ledger.balanceId (user : String) (l : Ledger) : Option Uuid := (l.balance? user).map (·.id)

namespace Database

/-! ## Rows of balances -/

namespace Tables

variable {t t' t'' : Tables} {l l' : Ledger} {user : String} {r r' : BalanceRow}

def balanceId (user : String) (t : Tables) : Option Uuid := (t.balance? user).map (·.id)

theorem user_of_balance? (h : t.balance? user = some r) : r.user.value = user := by
  simpa using List.find?_some h

/-- Each row is the balance of its user. -/
theorem balance?_of_mem {x : BalanceRow} (hx : x ∈ t.balances.rows) :
    t.balance? x.user.value = some x := by
  have hfilter := Table.filter_eq_toList (t := t.balances) (p := (·.user.value == x.user.value))
    fun a b ha hb => BalanceRow.not_apart ((beq_iff_eq.mp ha).trans (beq_iff_eq.mp hb).symm)
  have hmem : x ∈ (t.balance? x.user.value).toList := by
    rw [balance?, ← hfilter]
    exact List.mem_filter.mpr ⟨hx, beq_self_eq_true _⟩
  exact Option.mem_toList.mp hmem

/-- Points that tables show are a number of cents. -/
theorem Shows.isCents_current (h : t.Shows l) (user : String) : IsCents (l.current user).value := by
  rw [← h.current, Tables.current]
  cases t.balance? user with
  | none => exact IsCents.zero
  | some r => exact r.current.isCents_value

theorem Shows.isCents_withdrawn (h : t.Shows l) (user : String) :
    IsCents (l.withdrawn user).value := by
  rw [← h.withdrawn, Tables.withdrawn]
  cases t.balance? user with
  | none => exact IsCents.zero
  | some r => exact r.withdrawn.isCents_value

/-- Tables that differ in one balance: the row of this user is `r` now. -/
structure Puts (user : String) (r : BalanceRow) (t t' : Tables) : Prop where
  orders : t'.orders = t.orders
  withdrawals : t'.withdrawals = t.withdrawals
  balance? : ∀ v, t'.balance? v = if v = user then some r else t.balance? v

theorem Puts.row (h : Puts user r t t') : t'.balance? user = some r := by
  rw [h.balance?, if_pos rfl]

/-- What a changed balance shows of a ledger in which that balance has changed as well. -/
theorem Shows.puts (h : t.Shows l) (hputs : Puts user r t t') (horders : l'.orders = l.orders)
    (hwithdrawals : l'.withdrawals = l.withdrawals)
    (hcurrent : ∀ v, (l'.current v).value =
      if v = user then r.current.value else (l.current v).value)
    (hwithdrawn : ∀ v, (l'.withdrawn v).value =
      if v = user then r.withdrawn.value else (l.withdrawn v).value) : t'.Shows l' := by
  refine ⟨?_, ?_, fun v => ?_, fun v => ?_⟩
  · rw [hputs.orders, horders, h.orders]
  · rw [hputs.withdrawals, hwithdrawals, h.withdrawals]
  · rw [hcurrent, ← h.current, Tables.current, hputs.balance?]
    split <;> rfl
  · rw [hwithdrawn, ← h.withdrawn, Tables.withdrawn, hputs.balance?]
    split <;> rfl

/-- Tables in which a balance has been opened, if it was not there. -/
structure Opened (user : String) (id : Uuid) (r : BalanceRow) (t t' : Tables) : Prop
    extends Puts user r t t' where
  current : r.current.value = t.current user
  withdrawn : r.withdrawn.value = t.withdrawn user
  origin : t.balance? user = some r ∨ (t.balance? user = none ∧ r.id = id)

/-- A balance that is opened is not seen in the points. -/
theorem Shows.opened {id : Uuid} (h : t.Shows l) (hopened : Opened user id r t t') :
    t'.Shows l := by
  refine h.puts hopened.toPuts rfl rfl (fun v => ?_) (fun v => ?_)
  · split
    · next hv => rw [hv, hopened.current, h.current]
    · rfl
  · split
    · next hv => rw [hv, hopened.withdrawn, h.withdrawn]
    · rfl

/-- A balance from which points are moved shows what is left and what has been withdrawn. -/
theorem Shows.debited (h : t.Shows l) (hputs : Puts user r t t') (s : Stamp) {rest sum : Decimal}
    (hcurrent : r.current.value = rest.value) (hwithdrawn : r.withdrawn.value = sum.value) :
    t'.Shows (l.withBalance s user fun b =>
      { b with current := rest, withdrawn := sum, updatedAt := s.now }) := by
  refine h.puts hputs (by simp) (by simp) (fun v => ?_) (fun v => ?_)
  · rw [Ledger.current_withBalance (Ledger.openBalance_user s user l), hcurrent]
    split <;> rfl
  · rw [Ledger.withdrawn_withBalance (Ledger.openBalance_user s user l), hwithdrawn]
    split <;> rfl

/-- A balance that is opened in memory alone is not seen either. -/
theorem Shows.openBalance (h : t.Shows l) (s : Stamp) (user : String) :
    t.Shows (l.openBalance s user).2 := by
  refine ⟨?_, ?_, fun v => ?_, fun v => ?_⟩
  · rw [Ledger.openBalance_orders, h.orders]
  · rw [Ledger.openBalance_withdrawals, h.withdrawals]
  · rw [Ledger.current_openBalance, h.current]
  · rw [Ledger.withdrawn_openBalance, h.withdrawn]

end Tables

/-- The ids of balances behind the opening of one. Only a balance that was not there takes the
    id. -/
def opened (user : String) (id : Uuid) (ids : String → Option Uuid) : String → Option Uuid :=
  fun v => if v = user then some ((ids user).getD id) else ids v

theorem opened_of_some {user v : String} {id x : Uuid} {ids : String → Option Uuid}
    (h : ids v = some x) : opened user id ids v = some x := by
  unfold opened
  split
  · next hv => rw [← hv, h, Option.getD_some]
  · exact h

theorem of_opened_eq_some {user v : String} {id x : Uuid} {ids : String → Option Uuid}
    (h : opened user id ids v = some x) : ids v = some x ∨ x = id := by
  cases hv : ids v with
  | some y => exact .inl ((opened_of_some hv).symm.trans h)
  | none =>
    unfold opened at h
    split at h
    · next heq =>
      rw [← heq, hv, Option.getD_none] at h
      exact .inr (Option.some_inj.mp h).symm
    · rw [hv] at h
      cases h

/-- A balance that has been opened, and was changed then, keeps the id it was opened with. -/
theorem Tables.Opened.balanceId_eq {user : String} {id : Uuid} {r : BalanceRow} {t t₁ t' : Tables}
    (r' : BalanceRow) (hopened : Opened user id r t t₁)
    (hbalance : ∀ v, t'.balance? v = if v = user then some r' else t₁.balance? v)
    (hid : r'.id = r.id) :
    (fun v => t'.balanceId v) = opened user id fun v => t.balanceId v := by
  funext v
  rw [balanceId, hbalance, hopened.balance?, Database.opened]
  split
  · next hv =>
    rw [Option.map_some, hid]
    rcases hopened.origin with hrow | ⟨hnone, hnew⟩
    · rw [balanceId, hrow, Option.map_some, Option.getD_some]
    · rw [balanceId, hnone, hnew, Option.map_none, Option.getD_none]
  · rfl

/-! ## Statements on balances -/

section statements

variable (plan : Plan) {t : Tables} {user : String} {r : BalanceRow}

theorem any_user_eq (huser : Varchar.Holds 64 user) (t : Tables) :
    t.balances.rows.any (·.user == ⟨user, huser⟩) = (t.balance? user).isSome := by
  have hsame : ∀ r : BalanceRow, (r.user == ⟨user, huser⟩) = (r.user.value == user) := by
    intro r
    rw [Bool.eq_iff_iff, beq_iff_eq, beq_iff_eq, Varchar.ext_iff]
  simp only [hsame, Tables.balance?, List.isSome_find?]

/-- The row of a user who has none is apart from all others if its id is. -/
theorem apart_of_balance?_eq_none {id : Uuid} (huser : Varchar.Holds 64 user)
    (hrow : t.balance? user = none) (hid : ∀ v, v ≠ user → t.balanceId v ≠ some id) (now : ℤ) :
    ∀ x ∈ t.balances.rows,
      Keyed.apart x (⟨id, ⟨user, huser⟩, .zero, .zero, now, now⟩ : BalanceRow) = true := by
  intro x hx
  have hother : x.user.value ≠ user := by
    intro heq
    have hfound := Tables.balance?_of_mem hx
    rw [heq, hrow] at hfound
    cases hfound
  have hne : x.id ≠ id := by
    intro heq
    refine hid _ hother ?_
    rw [Tables.balanceId, Tables.balance?_of_mem hx, Option.map_some, heq]
  have huserNe : x.user ≠ ⟨user, huser⟩ := fun heq => hother (congrArg Varchar.value heq)
  exact Bool.and_eq_true_iff.mpr ⟨bne_iff_ne.mpr hne, bne_iff_ne.mpr huserNe⟩

/-- A row behind the others is the balance of its user, if there was none. -/
theorem puts_of_rows_eq {balances : Table BalanceRow} (hrow : t.balance? r.user.value = none)
    (hrows : balances.rows = t.balances.rows ++ [r]) :
    t.Puts r.user.value r { t with balances } := by
  refine ⟨rfl, rfl, fun v => ?_⟩
  show balances.rows.find? (·.user.value == v) = _
  rw [hrows, List.find?_append, List.find?_singleton]
  by_cases hv : v = r.user.value
  · subst hv
    have hnone : t.balances.rows.find? (·.user.value == r.user.value) = none := hrow
    rw [hnone, Option.none_or, if_pos (beq_self_eq_true _), if_pos rfl]
  · rw [if_neg (by simpa using Ne.symm hv), if_neg hv, Option.or_none]
    rfl

/-- A balance is opened, unless there is one. Its id is not that of another user. -/
theorem execute_openBalance (now : ℤ) {id : Uuid} (huser : Varchar.Holds 64 user)
    (hid : ∀ v, v ≠ user → t.balanceId v ≠ some id) :
    ∃ reply r t', plan.execute now (.openBalance id user) t = .ok (reply, t') ∧
      t.Opened user id r t' := by
  have hany := any_user_eq huser t
  rw [plan.execute_eq_run _ (by simp [Statement.parameters, Parameter.refusal?, huser.isText])]
  cases hrow : t.balance? user with
  | some r =>
    rw [hrow, Option.isSome_some] at hany
    refine ⟨{}, r, t, ?_, ⟨rfl, rfl, fun v => ?_⟩, ?_, ?_, .inl hrow⟩
    · show (Varchar.store 64 user >>= _) = _
      rw [Varchar.store_of_holds huser]
      exact if_pos hany
    · split
      · next hv => rw [hv, hrow]
      · rfl
    · rw [Tables.current, hrow]
      rfl
    · rw [Tables.withdrawn, hrow]
      rfl
  | none =>
    rw [hrow, Option.isSome_none] at hany
    obtain ⟨balances, hinsert, hrows⟩ :=
      Table.insert_of_apart (apart_of_balance?_eq_none huser hrow hid now)
    refine ⟨⟨[], 1⟩, _, { t with balances }, ?_, puts_of_rows_eq hrow hrows, ?_, ?_,
      .inr ⟨hrow, rfl⟩⟩
    · show (Varchar.store 64 user >>= _) = _
      rw [Varchar.store_of_holds huser]
      show (if t.balances.rows.any (·.user == ⟨user, huser⟩) = true then _ else _) = _
      rw [if_neg (by rw [hany]; exact Bool.false_ne_true), hinsert]
      rfl
    · rw [Tables.current, hrow]
      exact Money.value_zero
    · rw [Tables.withdrawn, hrow]
      exact Money.value_zero

/-- A change of one balance, which keeps its keys. -/
theorem update_balance (set : BalanceRow → Except DatabaseError BalanceRow) (r' : BalanceRow)
    (hrow : t.balance? user = some r) (hset : set r = .ok r') (hid : r'.id = r.id)
    (huser : r'.user = r.user) :
    ∃ balances, t.balances.update (·.user.value == user) set = .ok ([r'], balances) ∧
      t.Puts user r' { t with balances } := by
  -- The statement asks for a user, and there is one row of this user.
  have honly : ∀ x ∈ t.balances.rows, (x.user.value == user) = true → x = r := by
    intro x hx hxuser
    have hfound := Tables.balance?_of_mem hx
    rw [beq_iff_eq.mp hxuser, hrow] at hfound
    exact (Option.some_inj.mp hfound).symm
  have hfilter := Table.filter_eq_toList (t := t.balances) (p := (·.user.value == user))
    fun a b ha hb => BalanceRow.not_apart ((beq_iff_eq.mp ha).trans (beq_iff_eq.mp hb).symm)
  obtain ⟨balances, hupdate, hrows⟩ := Table.update_eq t.balances (·.user.value == user)
    set (fun _ => r')
    (by
      intro x hx hxuser
      rw [honly x hx hxuser, hset])
    (by
      intro x hx hxuser a
      rw [honly x hx hxuser]
      simp only [Keyed.apart, hid, huser, and_self])
  refine ⟨balances, ?_, rfl, rfl, fun v => ?_⟩
  · rw [hupdate, hfilter]
    have hfound : t.balances.rows.find? (·.user.value == user) = some r := hrow
    rw [hfound]
    rfl
  · -- The change keeps the user of each row, so a balance is found where it was.
    have hkey : ((fun x : BalanceRow => x.user.value == v) ∘
        fun x => if x.user.value == user then r' else x) = fun x => x.user.value == v := by
      funext x
      by_cases hx : x.user.value = user
      · simp [hx, huser, Tables.user_of_balance? hrow]
      · simp [hx]
    show balances.rows.find? (·.user.value == v) = _
    rw [hrows, List.find?_map, hkey]
    show (t.balance? v).map _ = _
    split
    · next hv =>
      rw [hv, hrow, Option.map_some, if_pos (beq_iff_eq.mpr (Tables.user_of_balance? hrow))]
    · next hv =>
      cases hfound : t.balance? v with
      | none => rfl
      | some x =>
        have hne : ¬ (x.user.value == user) = true := by
          rw [beq_iff_eq, Tables.user_of_balance? hfound]
          exact hv
        rw [Option.map_some, if_neg hne]

/-- Points are added to a balance. -/
theorem execute_creditBalance (now : ℤ) (amount : Decimal) (huser : IsText user)
    (hrow : t.balance? user = some r)
    (hcents : IsCents amount.value) (hlt : |r.current.value + amount.value| < 10 ^ 14) :
    ∃ reply r' t', plan.execute now (.creditBalance user amount) t = .ok (reply, t') ∧
      t.Puts user r' t' ∧ r'.id = r.id ∧
      r'.current.value = r.current.value + amount.value ∧
      r'.withdrawn.value = r.withdrawn.value := by
  obtain ⟨m, hm, hvalue⟩ := Money.store_of_cents (r.current.isCents_value.add hcents) hlt
  obtain ⟨balances, hupdate, hputs⟩ := update_balance (BalanceRow.credit now amount)
    { r with current := m, updatedAt := now } hrow
    (by rw [BalanceRow.credit, hm]; rfl) rfl rfl
  refine ⟨⟨[], 1⟩, _, _, ?_, hputs, rfl, hvalue, rfl⟩
  rw [plan.execute_eq_run _ (by simp [Statement.parameters, Parameter.refusal?, huser])]
  show (t.balances.update _ _ >>= _) = _
  rw [hupdate]
  rfl

/-- Points are moved from those that can be spent to those that have been. -/
theorem execute_debitBalance (now : ℤ) (amount : Decimal) (huser : IsText user)
    (hrow : t.balance? user = some r)
    (hcents : IsCents amount.value) (hcurrent : |r.current.value - amount.value| < 10 ^ 14)
    (hwithdrawn : |r.withdrawn.value + amount.value| < 10 ^ 14) :
    ∃ r' t', plan.execute now (.debitBalance user amount) t = .ok (.ofRows [r'.cells], t') ∧
      t.Puts user r' t' ∧ r'.id = r.id ∧
      r'.current.value = r.current.value - amount.value ∧
      r'.withdrawn.value = r.withdrawn.value + amount.value := by
  obtain ⟨m, hm, hvalue⟩ := Money.store_of_cents (r.current.isCents_value.sub hcents) hcurrent
  obtain ⟨m', hm', hvalue'⟩ :=
    Money.store_of_cents (r.withdrawn.isCents_value.add hcents) hwithdrawn
  obtain ⟨balances, hupdate, hputs⟩ := update_balance (BalanceRow.debit now amount)
    { r with current := m, withdrawn := m', updatedAt := now } hrow
    (by rw [BalanceRow.debit, hm, hm']; rfl) rfl rfl
  refine ⟨_, _, ?_, hputs, rfl, hvalue, hvalue'⟩
  rw [plan.execute_eq_run _ (by simp [Statement.parameters, Parameter.refusal?, huser])]
  show (t.balances.update _ _ >>= _) = _
  rw [hupdate]
  rfl

end statements

/-! ## Transactions -/

section transactions

variable {plan : Plan} {c : Session} {user : String} {r : BalanceRow}

theorem perform_begin :
    (server plan).begin.perform c = (.ok (), { c with saved := some c.tables }) := rfl

/-- A transaction that ends well lasts. -/
theorem perform_transaction_commit (c' : Session) {α : Type} {body : Action Session (Ending α)}
    {x : α}
    (h : body.perform { c with saved := some c.tables } = (.ok (.commit x), c')) :
    ((server plan).transaction body).perform c = (.ok x, { c' with saved := none }) := by
  rw [Server.transaction, perform_bind_ok perform_begin, Action.perform_bind, Action.attempt,
    Action.perform_ofFun, Action.perform_bind, h]
  rfl

/-- A transaction that is rolled back leaves what it found. -/
theorem perform_transaction_rollback (c' : Session) {α : Type} {body : Action Session (Ending α)}
    {result : Except Fault α}
    (h : body.perform { c with saved := some c.tables } = (.ok (.rollback result), c')) :
    ((server plan).transaction body).perform c =
      (result, { c' with tables := c'.committed, saved := none }) := by
  rw [Server.transaction, perform_bind_ok perform_begin, Action.perform_bind, Action.attempt,
    Action.perform_ofFun, Action.perform_bind, h]
  cases result <;> rfl

variable (plan)

/-- A balance that is there is read as its row has it. -/
theorem perform_fetchBalance {s : Statement} (hreceived : ∀ p ∈ s.parameters, p.refusal? = none)
    (hrun : plan.run c.now.micros s c.tables =
      .ok (.ofRows ((plan.select s c.tables.balances (·.user.value == user)).map
        BalanceRow.cells), c.tables)) (hrow : c.tables.balance? user = some r) :
    ∃ b, ((server plan).fetchOne Row.toBalance s).perform c = (.ok b, c) ∧ b.id = r.id ∧
      b.entry = r.entry := by
  have hselect := Plan.select_eq_toList plan s c.tables.balances
    (p := (·.user.value == user)) fun a b ha hb =>
      BalanceRow.not_apart ((beq_iff_eq.mp ha).trans (beq_iff_eq.mp hb).symm)
  have hfound : c.tables.balances.rows.find? (·.user.value == user) = some r := hrow
  rw [hselect, hfound] at hrun
  obtain ⟨b, hread, hid, hentry⟩ := r.read_cells
  have hexec := (plan.execute_eq_run c.now.micros hreceived c.tables).trans hrun
  exact ⟨b, perform_fetchOne _ hexec rfl hread, hid, hentry⟩

/-- A balance is opened and read. -/
theorem perform_openedBalance (huser : Varchar.Holds 64 user)
    (hid : ∀ v, v ≠ user → c.tables.balanceId v ≠ some (c.draws 0)) :
    ∃ b r t, ((server plan).openedBalance user).perform c =
        (.ok b, { c.drawn with tables := t }) ∧
      c.tables.Opened user (c.draws 0) r t ∧ b.id = r.id ∧ b.entry = r.entry := by
  obtain ⟨reply, r, t, hexec, hopened⟩ :=
    execute_openBalance plan c.now.micros huser hid
  obtain ⟨b, hfetch, hbid, hentry⟩ := perform_fetchBalance plan
    (c := { c.drawn with tables := t }) (s := .balance user)
    (by simp [Statement.parameters, Parameter.refusal?, huser.isText]) rfl hopened.row
  refine ⟨b, r, t, ?_, hopened, hbid, hentry⟩
  rw [Server.openedBalance, perform_bind_ok perform_freshId,
    perform_bind_ok (perform_execute (c := c.drawn) hexec)]
  exact hfetch

/-- Credits and debits open the balance and lock it before they do anything else. -/
theorem perform_locked (huser : Varchar.Holds 64 user)
    (hid : ∀ v, v ≠ user → c.tables.balanceId v ≠ some (c.draws 0)) :
    ∃ locked r t, c.tables.Opened user (c.draws 0) r t ∧ locked.entry = r.entry ∧
      ∀ {β : Type} (f : Balance → Action Session β),
        ((server plan).openedBalance user >>= fun _ =>
          (server plan).fetchOne Row.toBalance (.lockBalance user) >>= f).perform
            { c with saved := some c.tables } =
          (f locked).perform { c.drawn with tables := t, saved := some c.tables } := by
  obtain ⟨b, r, t, hopen, hopened, -, -⟩ := perform_openedBalance plan
    (c := { c with saved := some c.tables }) huser hid
  obtain ⟨locked, hlock, -, hlocked⟩ := perform_fetchBalance plan
    (s := .lockBalance user) (c := { c.drawn with tables := t, saved := some c.tables })
    (by simp [Statement.parameters, Parameter.refusal?, huser.isText]) rfl hopened.row
  refine ⟨locked, r, t, hopened, hlocked, fun f => ?_⟩
  exact (perform_bind_ok hopen).trans (perform_bind_ok hlock)

/-- A credit that settles nothing leaves no trace. -/
theorem perform_accrue_unsettled {l : Ledger} {cr : Credit} (h : c.tables.Shows l)
    (hnone : ∀ o, l.orderByNumber cr.number = some o → Ledger.settles cr o = false)
    (huser : Varchar.Holds 64 cr.user) (hnumber : IsText cr.number)
    (hid : ∀ v, v ≠ cr.user → c.tables.balanceId v ≠ some (c.draws 0)) :
    ∃ c', ((server plan).store.accrue cr).perform c = (.ok false, c') ∧
      c'.committed = c.tables := by
  obtain ⟨locked, r, t, hopened, -, hlocked⟩ := perform_locked plan huser hid
  obtain ⟨orders, hexec⟩ := execute_settleOrder_nil plan (h.opened hopened)
    c.now.micros hnumber huser.isText hnone
  have hsettle := perform_fetchOptional_nil Row.toOrderId
    (c := { c.drawn with tables := t, saved := some c.tables }) hexec rfl
  refine ⟨_, perform_transaction_rollback
    { c.drawn with tables := { t with orders }, saved := some c.tables } ?_, rfl⟩
  refine (hlocked _).trans ?_
  refine (perform_bind_ok hsettle).trans ?_
  rfl

/-- A credit that settles an order settles its row and adds the points. -/
theorem perform_accrue_settled {l : Ledger} {cr : Credit} (h : c.tables.Shows l) {o : Order}
    (ho : l.orderByNumber cr.number = some o) (hs : Ledger.settles cr o = true)
    (hcents : IsCents cr.amount.value) (hamount : |cr.amount.value| < 10 ^ 14)
    (hsum : |(l.current cr.user).value + cr.amount.value| < 10 ^ 14)
    (huser : Varchar.Holds 64 cr.user) (hnumber : IsText cr.number)
    (hid : ∀ v, v ≠ cr.user → c.tables.balanceId v ≠ some (c.draws 0)) (s : Stamp) {sum : Decimal}
    (hvalue : sum.value = (l.current cr.user).value + cr.amount.value) :
    ∃ c', ((server plan).store.accrue cr).perform c = (.ok true, c') ∧
      c'.committed.Shows (l.credited s cr sum) ∧
      (fun v => c'.committed.balanceId v) =
        opened cr.user (c.draws 0) fun v => c.tables.balanceId v := by
  obtain ⟨locked, r, t, hopened, -, hlocked⟩ := perform_locked plan huser hid
  obtain ⟨reply, orders, hexec, ⟨x, rest, hrows⟩, hsettled⟩ := execute_settleOrder plan
    (h.opened hopened) c.now.micros hnumber huser.isText ho hs hcents hamount
  have hsettle := perform_fetchOptional_cons Row.toOrderId
    (c := { c.drawn with tables := t, saved := some c.tables }) hexec hrows (x := x) rfl
  have hcurrent : r.current.value = (l.current cr.user).value :=
    hopened.current.trans (h.current cr.user)
  -- The settlement leaves the balance as it was locked.
  obtain ⟨reply', r', t', hexec', hputs, hrid, hcurrent', hwithdrawn'⟩ :=
    execute_creditBalance plan (t := { t with orders }) (r := r) c.now.micros cr.amount
      huser.isText hopened.row hcents (by rwa [hcurrent])
  have hcredit := perform_execute
    (c := { c.drawn with tables := { t with orders }, saved := some c.tables }) hexec'
  refine ⟨_, perform_transaction_commit
    { c.drawn with tables := t', saved := some c.tables } ?_, ?_, ?_⟩
  · refine (hlocked _).trans ?_
    refine (perform_bind_ok hsettle).trans ?_
    refine (perform_bind_ok hcredit).trans ?_
    rfl
  · show t'.Shows (l.credited s cr sum)
    refine hsettled.puts hputs (by simp) (by simp) (fun v => ?_) (fun v => ?_)
    · rw [Ledger.current_credited, hcurrent', hcurrent, ← hvalue, Ledger.current_settled]
      split <;> rfl
    · rw [Ledger.withdrawn_credited, hwithdrawn', hopened.withdrawn, Ledger.withdrawn_settled]
      split
      · next hv =>
        rw [hv]
        exact (h.withdrawn cr.user).symm
      · rfl
  · exact hopened.balanceId_eq _ hputs.balance? hrid

/-- A debit that is not covered is refused and leaves no trace. -/
theorem perform_debit_refused {l : Ledger} (h : c.tables.Shows l) (number : String)
    {amount : Decimal} (hlt : (l.current user).lt amount = true) (huser : Varchar.Holds 64 user)
    (hid : ∀ v, v ≠ user → c.tables.balanceId v ≠ some (c.draws 0)) :
    ∃ available c', ((server plan).store.debit user number amount).perform c =
        (.error (.error (.insufficientFunds amount available)), c') ∧
      available.value = (l.current user).value ∧ c'.committed = c.tables := by
  obtain ⟨locked, r, t, hopened, hentry, hperform⟩ := perform_locked plan huser hid
  have hlocked : locked.current.value = (l.current user).value :=
    (congrArg BalanceEntry.current hentry).trans (hopened.current.trans (h.current user))
  have hltLocked : locked.current.lt amount = true := by
    rw [Decimal.lt_iff] at hlt ⊢
    rwa [hlocked]
  refine ⟨locked.current, _, perform_transaction_rollback
    { c.drawn with tables := t, saved := some c.tables } ?_, hlocked, rfl⟩
  refine (hperform _).trans ?_
  rw [if_pos hltLocked]
  rfl

/-- A new withdrawal is stored as it was made. -/
theorem execute_insertWithdrawal {t : Tables} {l : Ledger} (h : t.Shows l) (now : ℤ) {id : Uuid}
    {number : String} {amount : Decimal} (huser : Varchar.Holds 64 user)
    (hnumber : Varchar.Holds 32 number) (hcents : IsCents amount.value)
    (hamount : |amount.value| < 10 ^ 14) (hid : ∀ w ∈ l.withdrawals, w.id ≠ id) :
    ∃ (r : WithdrawalRow) (withdrawals : Table WithdrawalRow),
      plan.execute now (.insertWithdrawal id user number amount) t =
        .ok (.ofRows [r.cells], { t with withdrawals }) ∧
      r.entry = (⟨id, user, number, amount, .ofMicros now⟩ : Withdrawal).entry ∧
      Tables.Shows { t with withdrawals }
        { l with withdrawals := l.withdrawals ++ [⟨id, user, number, amount, .ofMicros now⟩] } := by
  obtain ⟨m, hm, hvalue⟩ := Money.store_of_cents hcents hamount
  have hapart : ∀ a ∈ t.withdrawals.rows,
      Keyed.apart a (⟨id, ⟨user, huser⟩, ⟨number, hnumber⟩, m, now⟩ : WithdrawalRow) = true := by
    intro a ha
    obtain ⟨w, hw, heq⟩ := mem_entries h.withdrawals ha
    have hwid : w.id = a.id := congrArg WithdrawalEntry.id heq
    have hne : a.id ≠ id := by
      rw [← hwid]
      exact hid w hw
    exact bne_iff_ne.mpr hne
  obtain ⟨withdrawals, hinsert, hrows⟩ := Table.insert_of_apart hapart
  have hentry : (⟨id, ⟨user, huser⟩, ⟨number, hnumber⟩, m, now⟩ : WithdrawalRow).entry =
      (⟨id, user, number, amount, .ofMicros now⟩ : Withdrawal).entry := by
    rw [WithdrawalRow.entry, Withdrawal.entry, hvalue]
  refine ⟨_, withdrawals, ?_, hentry, h.orders, ?_, h.current, h.withdrawn⟩
  · rw [plan.execute_eq_run _ (by
      simp [Statement.parameters, Parameter.refusal?, huser.isText, hnumber.isText])]
    show (Varchar.store 64 user >>= _) = _
    rw [Varchar.store_of_holds huser]
    show (Varchar.store 32 number >>= _) = _
    rw [Varchar.store_of_holds hnumber]
    show (Money.store amount.value >>= _) = _
    rw [hm]
    show (t.withdrawals.insert _ >>= _) = _
    rw [hinsert]
    rfl
  · rw [hrows, List.map_append, List.map_append, h.withdrawals, List.map_singleton,
      List.map_singleton, hentry]

/-- What is left of a covered debit is not negative, so the second check never refuses. -/
theorem not_lt_zero_of_covered {balance amount rest : Decimal}
    (hcovered : balance.lt amount = false) (hrest : rest.value = balance.value - amount.value) :
    ¬ rest.lt .zero = true := by
  have hle := (Decimal.lt_eq_false_iff _ _).mp hcovered
  rw [Decimal.lt_iff, hrest, Decimal.value_zero]
  linarith

/-- A debit that is covered moves the points and writes down what for. -/
theorem perform_debit_covered {l : Ledger} (h : c.tables.Shows l) {number : String}
    {amount : Decimal} (hcovered : (l.current user).lt amount = false)
    (hcents : IsCents amount.value) (hamount : |amount.value| < 10 ^ 14)
    (hcurrent : |(l.current user).value - amount.value| < 10 ^ 14)
    (hwithdrawn : |(l.withdrawn user).value + amount.value| < 10 ^ 14)
    (huser : Varchar.Holds 64 user) (hnumber : Varchar.Holds 32 number)
    (hid : ∀ v, v ≠ user → c.tables.balanceId v ≠ some (c.draws 0))
    (hwid : ∀ w ∈ l.withdrawals, w.id ≠ c.draws 1) {s : Stamp} (hsid : s.recordId = c.draws 1)
    (hnow : s.now = c.now) {n : ℤ} (hmicros : c.now = .ofMicros n) {rest sum : Decimal}
    (hrest : rest.value = (l.current user).value - amount.value)
    (hsum : sum.value = (l.withdrawn user).value + amount.value) :
    ∃ w c', ((server plan).store.debit user number amount).perform c = (.ok w, c') ∧
      w.entry = (⟨s.recordId, user, number, amount, s.now⟩ : Withdrawal).entry ∧
      c'.committed.Shows (l.paid s user number amount rest sum) ∧
      (fun v => c'.committed.balanceId v) =
        opened user (c.draws 0) fun v => c.tables.balanceId v := by
  obtain ⟨locked, r, t, hopened, hlocked, hperform⟩ := perform_locked plan huser hid
  have hrcurrent : r.current.value = (l.current user).value :=
    hopened.current.trans (h.current user)
  have hrwithdrawn : r.withdrawn.value = (l.withdrawn user).value :=
    hopened.withdrawn.trans (h.withdrawn user)
  have hcoveredLocked : ¬ locked.current.lt amount = true := by
    have hlockedCurrent : locked.current.value = (l.current user).value :=
      (congrArg BalanceEntry.current hlocked).trans hrcurrent
    rw [Decimal.lt_iff, hlockedCurrent, ← Decimal.lt_iff, hcovered]
    exact Bool.false_ne_true
  obtain ⟨r', t', hexec, hputs, hrid, hcurrent', hwithdrawn'⟩ := execute_debitBalance plan
    c.now.micros amount huser.isText hopened.row hcents (by rwa [hrcurrent])
    (by rwa [hrwithdrawn])
  obtain ⟨lowered, hread, -, hlowered⟩ := r'.read_cells
  have hlower := perform_fetchOne Row.toBalance
    (c := { c.drawn with tables := t, saved := some c.tables }) hexec rfl hread
  have hkept : ¬ lowered.current.lt .zero = true := by
    refine not_lt_zero_of_covered hcovered ?_
    rw [← hrcurrent, ← hcurrent']
    exact congrArg BalanceEntry.current hlowered
  have hmoved := (h.opened hopened).debited hputs s (by rw [hcurrent', hrcurrent, hrest])
    (by rw [hwithdrawn', hrwithdrawn, hsum])
  obtain ⟨row, withdrawals, hexec', hrow, hshows⟩ := execute_insertWithdrawal plan hmoved
    c.now.micros huser hnumber hcents hamount (by simpa using hwid)
  obtain ⟨w, hreadw, hw⟩ := row.read_cells
  have hinsert := perform_fetchOne Row.toWithdrawal
    (c := { c.drawn.drawn with tables := t', saved := some c.tables }) hexec' rfl hreadw
  have htime : Instant.ofMicros c.now.micros = s.now := by
    rw [hnow, hmicros, Instant.micros_ofMicros]
  rw [htime, ← hsid] at hrow hshows
  refine ⟨w, _, perform_transaction_commit
    { c.drawn.drawn with tables := { t' with withdrawals }, saved := some c.tables } ?_,
    hw.trans hrow, ?_, ?_⟩
  · refine (hperform _).trans ?_
    rw [if_neg hcoveredLocked]
    refine (perform_bind_ok hlower).trans ?_
    rw [if_neg hkept]
    refine (perform_bind_ok perform_freshId).trans ?_
    refine (perform_bind_ok hinsert).trans ?_
    rfl
  · rwa [Ledger.withBalance_withdrawals] at hshows
  · exact hopened.balanceId_eq _ hputs.balance? hrid

end transactions

end Database

end LoyaltyPoints
