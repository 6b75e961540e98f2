import LoyaltyPoints.Proofs.Database.Calls

/-! # Database: the two ledgers are interchangeable

    As long as texts, times and amounts fit the parameters and the columns, the ledger in tables
    and the ledger in memory answer the same to all calls, and end with the same orders,
    withdrawals and points. The ids of a user's balance are the same as well, unless a debit that
    was refused has opened it in memory.

    Other calls are answered differently (`ledgers_told_apart`): the server is sent no more of a
    cursor than its microseconds, and refuses the character zero and times far off. -/

namespace LoyaltyPoints.Interchange

open Database (Plan Tables Session server IsText IsTime Varchar opened)

/-! ## Sums that fit a column -/

theorem natAbs_lt_bound {k : ℤ} (h : |(k : ℚ) / 100| < 10 ^ 14) : k.natAbs < Decimal.bound :=
  (Database.Money.natAbs_lt h).trans (by norm_num [Decimal.bound])

theorem add_eq_ok_of_lt {a b : Decimal} (ha : IsCents a.value) (hb : IsCents b.value)
    (hlt : |a.value + b.value| < 10 ^ 14) :
    ∃ d, a.add b = .ok d ∧ d.value = a.value + b.value := by
  obtain ⟨k, hk⟩ := ha.add hb
  exact Decimal.add_of_cents hk (natAbs_lt_bound (hk ▸ hlt))

theorem sub_eq_ok_of_lt {a b : Decimal} (ha : IsCents a.value) (hb : IsCents b.value)
    (hlt : |a.value - b.value| < 10 ^ 14) :
    ∃ d, a.sub b = .ok d ∧ d.value = a.value - b.value := by
  obtain ⟨k, hk⟩ := ha.sub hb
  exact Decimal.sub_of_cents hk (natAbs_lt_bound (hk ▸ hlt))

/-! ## Ids of balances in memory -/

/-- A balance that is opened in memory is brought the id of the call. -/
theorem balanceId_openBalance (s : Stamp) (user : String) (l : Ledger) :
    (fun v => (l.openBalance s user).2.balanceId v) =
      opened user s.balanceId fun v => l.balanceId v := by
  funext v
  rw [Ledger.balanceId, Ledger.balance?_openBalance, opened]
  split
  · rcases Ledger.openBalance_fst s user l with hold | ⟨hnone, hnew⟩
    · rw [Ledger.balanceId, hold]
      rfl
    · rw [Ledger.balanceId, hnone, hnew]
      rfl
  · rfl

theorem balanceId_withBalance (s : Stamp) (user : String) (f : Balance → Balance) (l : Ledger)
    (huser : (f (l.openBalance s user).1).user = user)
    (hid : (f (l.openBalance s user).1).id = (l.openBalance s user).1.id) :
    (fun v => (l.withBalance s user f).balanceId v) =
      opened user s.balanceId fun v => l.balanceId v := by
  rw [← balanceId_openBalance]
  funext v
  rw [Ledger.balanceId, Ledger.balance?_withBalance huser, Ledger.balanceId,
    Ledger.balance?_openBalance]
  split
  · rw [Option.map_some, Option.map_some, hid]
  · rfl

/-! ## One call -/

/-- Whether a balance that was answered is there. -/
def HasBalance (l : Ledger) (answer : Except Fault Reply) : Prop :=
  ∀ b, answer = .ok (.balance b) → (l.balanceId b.user).isSome

/-- A call has agreeing answers, and the tables match the ledger behind it. -/
structure Steps (plan : Plan) (past : List Call) (first : String → Prop) (c : Call) (t : Tables)
    (l : Ledger) : Prop where
  agree : Agree (fun v => ¬ (first v ∨ RefusesFirst l c.op v)) (c.onTables plan t).1
    (c.onLedger l).1
  hasBalance : HasBalance (c.onLedger l).2 (c.onLedger l).1
  keeps : ∀ user, (l.balanceId user).isSome → ((c.onLedger l).2.balanceId user).isSome
  matched : Matched (past ++ [c]) (fun v => first v ∨ RefusesFirst l c.op v) (c.onTables plan t).2
    (c.onLedger l).2

section steps

variable {plan : Plan} {past : List Call} {first : String → Prop} {c : Call} {t : Tables}
  {l l' : Ledger} {user number : String} {recordId balanceId : Uuid} {time : ℤ}

theorem answer_eq {σ α : Type} {a : Action σ α} {reply : α → Reply} {s s' : σ}
    {r : Except Fault α} (h : a.perform s = (r, s')) :
    Operation.answer a reply s = (r.map reply, s') := by
  rw [Operation.answer, h]

theorem Steps.intro {x y : Except Fault Reply} {s : Session}
    (hperform : c.op.perform (server plan).store (c.session t) = (x, s))
    (hledger : c.onLedger l = (y, l'))
    (hagree : Agree (fun v => ¬ (first v ∨ RefusesFirst l c.op v)) x y)
    (hbalance : HasBalance l' y) (htreats : Treats c t s.committed l l')
    (hmatched : Matched (past ++ [c]) (fun v => first v ∨ RefusesFirst l c.op v) s.committed l') :
    Steps plan past first c t l := by
  have htables : c.onTables plan t = (x, s.committed) := by
    rw [Call.onTables, hperform]
  refine ⟨?_, ?_, ?_, ?_⟩ <;> rw [hledger]
  · rwa [htables]
  · exact hbalance
  · exact fun _ => htreats.isSome
  · rwa [htables]

/-- A call that changes nothing and answers no balance. -/
theorem Steps.unchanged (h : Matched past first t l) (hc : Next past c l)
    {x y : Except Fault Reply} {s : Session}
    (hperform : c.op.perform (server plan).store (c.session t) = (x, s)) (hs : s.committed = t)
    (hledger : c.onLedger l = (y, l))
    (hagree : Agree (fun v => ¬ (first v ∨ RefusesFirst l c.op v)) x y)
    (hfirst : ∀ v, ¬ RefusesFirst l c.op v) (hy : ∀ b, y ≠ .ok (.balance b)) :
    Steps plan past first c t l := by
  have htreats : Treats c t s.committed l l := .kept hfirst (by rw [hs]) rfl
  refine .intro hperform hledger hagree (fun b hb => absurd hb (hy b)) htreats ?_
  exact h.concat hc (hs ▸ h.shows) (.inl rfl) (.inl rfl) htreats

variable (plan)

theorem step_createOrder (h : Matched past first t l)
    (hc : Next past ⟨.createOrder user number, recordId, balanceId, time⟩ l) :
    Steps plan past first ⟨.createOrder user number, recordId, balanceId, time⟩ t l := by
  obtain ⟨hlength, hlength'⟩ := hc.fits
  have huser : Varchar.Holds 64 user := ⟨hc.sendable.texts user (by simp [texts]), hlength⟩
  have hnumber : Varchar.Holds 32 number := ⟨hc.sendable.texts number (by simp [texts]), hlength'⟩
  let c : Call := ⟨.createOrder user number, recordId, balanceId, time⟩
  have hfirst : ∀ v, ¬ RefusesFirst l c.op v := by
    rintro v ⟨_, _, ⟨⟩, _⟩
  have hledger : c.onLedger l = ((l.createOrder c.stamp user number).1.map .order,
    (l.createOrder c.stamp user number).2) := rfl
  rcases l.createOrder_cases c.stamp user number with ⟨hnew, heq⟩ | ⟨o, ho, heq⟩
  · rw [heq] at hledger
    obtain ⟨o, orders, hperform, hentry, hshows⟩ := Database.perform_createOrder_new plan
      (c := c.session t) h.shows huser hnumber hc.sendable.time rfl (h.order_id_ne hc) hnew
    have htreats : Treats c t { t with orders } l
        { l with orders := l.orders ++ [.submitted c.recordId user number (.ofMicros c.time)] } :=
      .kept hfirst rfl rfl
    refine .intro (answer_eq hperform) hledger (.order hentry) (by rintro b ⟨⟩) htreats ?_
    refine h.concat hc hshows (.inr ?_) (.inl rfl) htreats
    rw [List.map_append]
    rfl
  · rw [heq] at hledger
    have hperform := Database.perform_createOrder_taken plan (c := c.session t) h.shows
      huser hnumber hc.sendable.time rfl ho
    exact .unchanged h hc (answer_eq hperform) rfl hledger (.fault _) hfirst (by rintro b ⟨⟩)

theorem step_markOrders {ids : List Uuid} {status : OrderStatus} (h : Matched past first t l)
    (hc : Next past ⟨.markOrders ids status, recordId, balanceId, time⟩ l) :
    Steps plan past first ⟨.markOrders ids status, recordId, balanceId, time⟩ t l := by
  let c : Call := ⟨.markOrders ids status, recordId, balanceId, time⟩
  have hfirst : ∀ v, ¬ RefusesFirst l c.op v := by
    rintro v ⟨_, _, ⟨⟩, _⟩
  have hledger : c.onLedger l =
    ((l.markOrders ids status).1.map .count, (l.markOrders ids status).2) := rfl
  obtain ⟨orders, hperform, hshows⟩ := Database.perform_markOrders plan
    (c := c.session t) h.shows ids status
  rcases l.markOrders_cases ids status with ⟨-, heq⟩ | ⟨-, heq⟩
  · rw [heq] at hledger hperform hshows
    have htreats : Treats c t { t with orders } l (l.marked ids status) := .kept hfirst rfl rfl
    refine .intro (answer_eq hperform) hledger (.count _) (by rintro b ⟨⟩) htreats ?_
    exact h.concat hc hshows (.inl (Ledger.map_marked (fun _ _ => rfl) ids status l)) (.inl rfl)
      htreats
  · rw [heq] at hledger hperform hshows
    have htreats : Treats c t { t with orders } l l := .kept hfirst rfl rfl
    refine .intro (answer_eq hperform) hledger (.fault _) (by rintro b ⟨⟩) htreats ?_
    exact h.concat hc hshows (.inl rfl) (.inl rfl) htreats

theorem step_balance (h : Matched past first t l)
    (hc : Next past ⟨.balance user, recordId, balanceId, time⟩ l) :
    Steps plan past first ⟨.balance user, recordId, balanceId, time⟩ t l := by
  have huser : Varchar.Holds 64 user := ⟨hc.sendable.texts user (by simp [texts]), hc.fits⟩
  let c : Call := ⟨.balance user, recordId, balanceId, time⟩
  have hledger : c.onLedger l =
    (.ok (.balance (l.openBalance c.stamp user).1), (l.openBalance c.stamp user).2) := rfl
  obtain ⟨b, r, t', hperform, hopened, hid, hentry⟩ := Database.perform_openedBalance plan
    (c := c.session t) huser (fun v _ => h.balanceId_ne hc v)
  have htreats : Treats c t t' l (l.openBalance c.stamp user).2 := by
    refine .opened user (by rintro v ⟨_, _, ⟨⟩, _⟩) ?_ (balanceId_openBalance c.stamp user l)
    refine hopened.balanceId_eq r (fun v => ?_) rfl
    split
    · next hv => rw [hv, hopened.row]
    · rfl
  have hmatched := h.concat hc ((h.shows.opened hopened).openBalance c.stamp user)
    (.inl (by simp)) (.inl (by simp)) htreats
  have hfound : (l.openBalance c.stamp user).2.balanceId (l.openBalance c.stamp user).1.user =
      some (l.openBalance c.stamp user).1.id := by
    rw [Ledger.openBalance_user, Ledger.balanceId, Ledger.balance?_openBalance, if_pos rfl]
    rfl
  refine .intro (answer_eq hperform) hledger (.balance ?_ ?_) ?_ htreats hmatched
  · rw [hentry, Database.BalanceRow.entry, Balance.entry, Ledger.openBalance_user,
      Ledger.openBalance_current, Ledger.openBalance_withdrawn, ← h.shows.current,
      ← h.shows.withdrawn, hopened.current, hopened.withdrawn,
      Tables.user_of_balance? hopened.row]
    rfl
  · have hrow : t'.balanceId (l.openBalance c.stamp user).1.user = some b.id := by
      rw [Ledger.openBalance_user, Tables.balanceId, hopened.row, hid]
      rfl
    exact hmatched.ids.eq_iff hrow hfound
  · rintro _ ⟨⟩
    rw [hfound, Option.isSome_some]

theorem step_accrue {cr : Credit} (h : Matched past first t l)
    (hc : Next past ⟨.accrue cr, recordId, balanceId, time⟩ l) :
    Steps plan past first ⟨.accrue cr, recordId, balanceId, time⟩ t l := by
  obtain ⟨hlength, hcents⟩ := hc.fits
  have huser : Varchar.Holds 64 cr.user := ⟨hc.sendable.texts cr.user (by simp [texts]), hlength⟩
  have hnumber : IsText cr.number := hc.sendable.texts cr.number (by simp [texts])
  have hids := fun v (_ : v ≠ cr.user) => h.balanceId_ne hc v
  let c : Call := ⟨.accrue cr, recordId, balanceId, time⟩
  have hfirst : ∀ v, ¬ RefusesFirst l c.op v := by
    rintro v ⟨_, _, ⟨⟩, _⟩
  have hledger : c.onLedger l =
    ((l.accrue c.stamp cr).1.map .flag, (l.accrue c.stamp cr).2) := rfl
  cases haccepts : l.accepts cr with
  | false =>
    rw [Ledger.accrue_of_not_accepts _ haccepts] at hledger
    have hnone : ∀ o, l.orderByNumber cr.number = some o → Ledger.settles cr o = false := by
      intro o ho
      rwa [Ledger.accepts, ho, Option.any_some] at haccepts
    obtain ⟨s, hperform, hcommitted⟩ := Database.perform_accrue_unsettled plan
      (c := c.session t) h.shows hnone huser hnumber hids
    exact .unchanged h hc (answer_eq hperform) hcommitted hledger (.flag false) hfirst
      (by rintro b ⟨⟩)
  | true =>
    obtain ⟨o, ho, hs⟩ := Ledger.accepts_iff.mp haccepts
    have hamounts := hc.amounts
    rw [stored, if_pos haccepts, List.forall_mem_cons, List.forall_mem_singleton] at hamounts
    obtain ⟨hamount, hcredited⟩ := hamounts
    -- The sum of the points fits a column, so it fits a decimal.
    obtain ⟨sum, hadd, hvalue⟩ :=
      add_eq_ok_of_lt (h.shows.isCents_current cr.user) hcents hcredited
    rw [(Ledger.accrue_of_accepts _ haccepts).1 sum hadd] at hledger
    obtain ⟨s, hperform, hshows, hopened⟩ := Database.perform_accrue_settled plan
      (c := c.session t) h.shows ho hs hcents hamount hcredited huser hnumber hids c.stamp hvalue
    have htreats : Treats c t s.committed l (l.credited c.stamp cr sum) :=
      .opened cr.user hfirst hopened (balanceId_withBalance c.stamp cr.user _ (l.settled cr)
        (Ledger.openBalance_user _ _ _) rfl)
    refine .intro (answer_eq hperform) hledger (.flag true) (by rintro b ⟨⟩) htreats ?_
    refine h.concat hc hshows (.inl ?_) (.inl (by simp)) htreats
    rw [Ledger.credited_orders, Ledger.map_settled rfl ho]

/-- A debit that is refused opens the balance in memory alone. -/
theorem step_debit_refused {amount : Decimal} (h : Matched past first t l)
    (hc : Next past ⟨.debit user number amount, recordId, balanceId, time⟩ l)
    (hlt : (l.current user).lt amount = true) :
    Steps plan past first ⟨.debit user number amount, recordId, balanceId, time⟩ t l := by
  obtain ⟨hlength, -, -⟩ := hc.fits
  have huser : Varchar.Holds 64 user := ⟨hc.sendable.texts user (by simp [texts]), hlength⟩
  let c : Call := ⟨.debit user number amount, recordId, balanceId, time⟩
  have hledger : c.onLedger l = ((l.debit c.stamp user number amount).1.map .withdrawal,
    (l.debit c.stamp user number amount).2) := rfl
  rw [Ledger.debit_of_lt _ _ hlt] at hledger
  obtain ⟨available, s, hperform, hvalue, hcommitted⟩ := Database.perform_debit_refused plan
    (c := c.session t) h.shows number hlt huser fun v _ => h.balanceId_ne hc v
  have hfirst : ∀ v, RefusesFirst l c.op v ↔ v = user ∧ l.balanceId user = none := by
    intro v
    constructor
    · rintro ⟨_, _, ⟨⟩, -, hnone⟩
      exact ⟨rfl, hnone⟩
    · rintro ⟨rfl, hnone⟩
      exact ⟨number, amount, rfl, hlt, hnone⟩
  have htreats : Treats c t s.committed l (l.openBalance c.stamp user).2 :=
    .refused user hfirst (by rw [hcommitted]; rfl) (balanceId_openBalance c.stamp user l)
  refine .intro (answer_eq hperform) hledger (.refused amount hvalue) (by rintro b ⟨⟩) htreats ?_
  refine h.concat hc ?_ (.inl (by simp)) (.inl (by simp)) htreats
  rw [hcommitted]
  exact h.shows.openBalance c.stamp user

theorem step_debit_covered {amount : Decimal} (h : Matched past first t l)
    (hc : Next past ⟨.debit user number amount, recordId, balanceId, time⟩ l)
    (hcovered : (l.current user).lt amount = false) :
    Steps plan past first ⟨.debit user number amount, recordId, balanceId, time⟩ t l := by
  obtain ⟨hlength, hlength', hcents⟩ := hc.fits
  have huser : Varchar.Holds 64 user := ⟨hc.sendable.texts user (by simp [texts]), hlength⟩
  have hnumber : Varchar.Holds 32 number := ⟨hc.sendable.texts number (by simp [texts]), hlength'⟩
  let c : Call := ⟨.debit user number amount, recordId, balanceId, time⟩
  have hledger : c.onLedger l = ((l.debit c.stamp user number amount).1.map .withdrawal,
    (l.debit c.stamp user number amount).2) := rfl
  have hamounts := hc.amounts
  rw [stored, hcovered, if_neg Bool.false_ne_true, List.forall_mem_cons,
    List.forall_mem_cons, List.forall_mem_singleton] at hamounts
  obtain ⟨hamount, hrest, hwithdrawn⟩ := hamounts
  obtain ⟨rest, hsub, hrestValue⟩ := sub_eq_ok_of_lt (h.shows.isCents_current user) hcents hrest
  obtain ⟨sum, hadd, hsumValue⟩ :=
    add_eq_ok_of_lt (h.shows.isCents_withdrawn user) hcents hwithdrawn
  rw [((Ledger.debit_of_covered _ _ hcovered).2 rest hsub).2 sum hadd] at hledger
  obtain ⟨w, s, hperform, hentry, hshows, hopened⟩ := Database.perform_debit_covered plan
    (c := c.session t) h.shows hcovered hcents hamount hrest hwithdrawn huser hnumber
    (fun v _ => h.balanceId_ne hc v) (h.withdrawal_id_ne hc) (s := c.stamp) rfl rfl rfl hrestValue
    hsumValue
  have hfirst : ∀ v, ¬ RefusesFirst l c.op v := by
    rintro v ⟨_, _, ⟨⟩, hlt, -⟩
    rw [hcovered] at hlt
    cases hlt
  have htreats : Treats c t s.committed l (l.paid c.stamp user number amount rest sum) :=
    .opened user hfirst hopened (balanceId_withBalance c.stamp user
      (fun b => { b with current := rest, withdrawn := sum, updatedAt := c.stamp.now }) l
      (Ledger.openBalance_user _ _ _) rfl)
  refine .intro (answer_eq hperform) hledger (.withdrawal hentry) (by rintro b ⟨⟩) htreats ?_
  exact h.concat hc hshows (.inl (by simp)) (.inr ⟨_, rfl, rfl, rfl⟩) htreats

/-- Both ledgers take the same step. -/
theorem step (h : Matched past first t l) (hc : Next past c l) : Steps plan past first c t l := by
  obtain ⟨op, recordId, balanceId, time⟩ := c
  have htexts := hc.sendable.texts
  cases op with
  | createOrder user number => exact step_createOrder plan h hc
  | markOrders ids status => exact step_markOrders plan h hc
  | accrue cr => exact step_accrue plan h hc
  | balance user => exact step_balance plan h hc
  | debit user number amount =>
    cases hlt : (l.current user).lt amount with
    | true => exact step_debit_refused plan h hc hlt
    | false => exact step_debit_covered plan h hc hlt
  | orderByNumber number =>
    obtain ⟨o, hperform, hentry⟩ := Database.perform_orderByNumber plan
      (c := Call.session ⟨.orderByNumber number, recordId, balanceId, time⟩ t) h.shows
      (htexts number (by simp [texts]))
    exact .unchanged h hc (answer_eq hperform) rfl rfl (.found hentry)
      (by rintro v ⟨_, _, ⟨⟩, _⟩) (by rintro b ⟨⟩)
  | userOrder user number =>
    obtain ⟨o, hperform, hentry⟩ := Database.perform_userOrder plan
      (c := Call.session ⟨.userOrder user number, recordId, balanceId, time⟩ t) h.shows
      (htexts user (by simp [texts])) (htexts number (by simp [texts]))
    exact .unchanged h hc (answer_eq hperform) rfl rfl (.found hentry)
      (by rintro v ⟨_, _, ⟨⟩, _⟩) (by rintro b ⟨⟩)
  | userOrders user =>
    obtain ⟨os, hperform, hentries⟩ := Database.perform_userOrders plan
      (c := Call.session ⟨.userOrders user, recordId, balanceId, time⟩ t) h.shows
      (h.uploadedAt_nodup hc) (htexts user (by simp [texts]))
    exact .unchanged h hc (answer_eq hperform) rfl rfl (.orders hentries)
      (by rintro v ⟨_, _, ⟨⟩, _⟩) (by rintro b ⟨⟩)
  | pendingOrders after limit =>
    obtain ⟨os, hperform, hentries⟩ := Database.perform_pendingOrders plan
      (c := Call.session ⟨.pendingOrders after limit, recordId, balanceId, time⟩ t) h.shows
      (h.uploadedAt_nodup hc) (fun p hp => ⟨_, hc.sendable.cursor p hp⟩) hc.fits
    exact .unchanged h hc (answer_eq hperform) rfl rfl (.orders hentries)
      (by rintro v ⟨_, _, ⟨⟩, _⟩) (by rintro b ⟨⟩)
  | withdrawals user =>
    obtain ⟨ws, hperform, hentries⟩ := Database.perform_withdrawals plan
      (c := Call.session ⟨.withdrawals user, recordId, balanceId, time⟩ t) h.shows
      (h.processedAt_nodup hc) (htexts user (by simp [texts]))
    exact .unchanged h hc (answer_eq hperform) rfl rfl (.withdrawals hentries)
      (by rintro v ⟨_, _, ⟨⟩, _⟩) (by rintro b ⟨⟩)
  | submit user number => exact hc.fits.elim
  | withdraw user number amount => exact hc.fits.elim

end steps

/-! ## All calls -/

/-- Calls agree one by one, and the tables match the ledger behind the last of them. -/
theorem play_matched (plan : Plan) {calls : List Call} (h : Admissible calls) :
    List.Forall₂ (Agree fun user => ¬ OpenedByRefusal calls user)
        (play (fun c => c.onTables plan) {} calls).1 (play Call.onLedger {} calls).1 ∧
      (∀ y ∈ (play Call.onLedger {} calls).1, HasBalance (play Call.onLedger {} calls).2 y) ∧
      Matched calls (OpenedByRefusal calls) (play (fun c => c.onTables plan) {} calls).2
        (play Call.onLedger {} calls).2 := by
  -- A run grows at its end, so each call meets what the calls before it have left.
  induction calls using List.reverseRecOn with
  | nil =>
    have hnone : ∀ user, ¬ OpenedByRefusal [] user := by
      rintro user ⟨past, c, hprefix, -⟩
      simpa using List.prefix_nil.mp hprefix
    refine ⟨.nil, nofun, ⟨rfl, rfl, fun _ => ?_, fun _ => ?_⟩, List.nil_sublist _,
      List.nil_sublist _, ⟨nofun, nofun, fun _ _ => rfl, fun user h => absurd h (hnone user)⟩⟩
    · exact Decimal.value_zero.symm
    · exact Decimal.value_zero.symm
  | append_singleton past c ih =>
    obtain ⟨hanswers, hbalances, hmatched⟩ := ih (h.of_isPrefix (List.prefix_append _ _))
    obtain ⟨hagree, hbalance, hkeeps, hnext⟩ := step plan hmatched h.next
    have hopened : OpenedByRefusal (past ++ [c]) = fun user => OpenedByRefusal past user ∨
        RefusesFirst (play Call.onLedger {} past).2 c.op user :=
      funext fun _ => propext openedByRefusal_concat
    rw [play_concat, play_concat, hopened]
    refine ⟨List.rel_append ?_ (.cons hagree .nil), ?_, hnext⟩
    · -- A balance that has been answered is there, so no refusal can open it any more.
      have hboth := (List.forall₂_and_left _ _).mpr ⟨hbalances, hanswers.flip⟩
      refine hboth.flip.imp ?_
      rintro x y ⟨hy, hxy⟩
      refine hxy.imp fun b hb => not_congr (or_iff_left ?_).symm
      rintro ⟨_, _, -, -, hnone⟩
      have hsome := hy b hb
      rw [hnone] at hsome
      cases hsome
    · intro y hy
      rcases List.mem_append.mp hy with hy | hy
      · exact fun b hb => hkeeps b.user (hbalances y hy b hb)
      · rw [List.mem_singleton.mp hy]
        exact hbalance

/-- The ledger in tables and the ledger in memory answer the same to all calls, whatever plans the
    server follows, and end with the same orders, withdrawals and points. The ids of a user's
    balance are the same unless a debit that was refused has opened it in memory. -/
theorem ledgers_interchangeable (plan : Plan) {calls : List Call} (h : Admissible calls) :
    let tables := play (fun c => c.onTables plan) {} calls
    let ledger := play Call.onLedger {} calls
    List.Forall₂ (Agree fun user => ¬ OpenedByRefusal calls user) tables.1 ledger.1 ∧
      tables.2.Shows ledger.2 ∧
      ∀ user id id', tables.2.balanceId user = some id → ledger.2.balanceId user = some id' →
        (id = id' ↔ ¬ OpenedByRefusal calls user) := by
  obtain ⟨hanswers, -, hmatched⟩ := play_matched plan h
  exact ⟨hanswers, hmatched.shows, fun _ _ _ => hmatched.ids.eq_iff⟩

/-- A server that brings rows from the last to the first. -/
def backwards : Plan := ⟨fun _ rows => rows.reverse, fun _ rows => rows.reverse_perm⟩

/-- A debit of ann's is refused before there are points, a number is submitted twice, an order is
    credited, points are withdrawn, and bob has a balance of his own. -/
theorem ledgers_interchangeable_of_refused_debit :
    let calls : List Call := [
      ⟨.createOrder "ann" "79927398713", .ofNat 1, .ofNat 101, 1⟩,
      ⟨.debit "ann" "2377225624" ⟨1, 0, by decide, by decide⟩, .ofNat 2, .ofNat 102, 2⟩,
      ⟨.createOrder "bob" "79927398713", .ofNat 3, .ofNat 103, 3⟩,
      ⟨.markOrders [.ofNat 1, .ofNat 1, .ofNat 9] .processing, .ofNat 4, .ofNat 104, 4⟩,
      ⟨.accrue ⟨"ann", "79927398713", ⟨50050, 2, by decide, by decide⟩⟩, .ofNat 5, .ofNat 105, 5⟩,
      ⟨.debit "ann" "2377225624" ⟨12010, 2, by decide, by decide⟩, .ofNat 6, .ofNat 106, 6⟩,
      ⟨.pendingOrders (some ⟨.ofMicros 0, .ofNat 0⟩) 10, .ofNat 7, .ofNat 107, 7⟩,
      ⟨.balance "ann", .ofNat 8, .ofNat 108, 8⟩,
      ⟨.balance "bob", .ofNat 9, .ofNat 109, 9⟩]
    let tables := play (fun c => c.onTables backwards) {} calls
    let ledger := play Call.onLedger {} calls
    Admissible calls ∧
      List.Forall₂ (Agree fun user => ¬ OpenedByRefusal calls user) tables.1 ledger.1 ∧
      tables.2.Shows ledger.2 ∧ tables.2.current "ann" = 3804 / 10 ∧
      OpenedByRefusal calls "ann" ∧ ¬ OpenedByRefusal calls "bob" := by
  intro calls tables ledger
  have hfits : ∀ c ∈ calls, Fits c.op := by
    intro c hc
    simp only [calls, List.mem_cons, List.not_mem_nil, or_false] at hc
    rcases hc with rfl | rfl | rfl | rfl | rfl | rfl | rfl | rfl | rfl
    · exact ⟨by decide, by decide⟩
    · exact ⟨by decide, by decide, 100, by norm_num [Decimal.value]⟩
    · exact ⟨by decide, by decide⟩
    · exact trivial
    · exact ⟨by decide, 50050, by norm_num [Decimal.value]⟩
    · exact ⟨by decide, by decide, 12010, by norm_num [Decimal.value]⟩
    · exact Int.natCast_nonneg 10
    · exact show "ann".length ≤ 64 by decide
    · exact show "bob".length ≤ 64 by decide
  have htexts : ∀ c ∈ calls, ∀ s ∈ texts c.op, IsText s := by decide +kernel
  have htimes : ∀ c ∈ calls, IsTime c.time := by decide +kernel
  have hcursors : ∀ c ∈ calls, ∀ p ∈ cursor? c.op,
      IsTime p.uploadedAt.micros ∧ p.uploadedAt = .ofMicros p.uploadedAt.micros := by
    decide +kernel
  have hadmissible : Admissible calls :=
    ⟨⟨hfits, by decide +kernel, by decide +kernel, by decide +kernel, by decide +kernel⟩,
      fun c hc => ⟨htexts c hc, htimes c hc, hcursors c hc⟩⟩
  obtain ⟨hanswers, hshows, hids⟩ := ledgers_interchangeable backwards hadmissible
  have hcurrent : (ledger.2.current "ann").value = 3804 / 10 := by decide +kernel
  refine ⟨hadmissible, hanswers, hshows, (hshows.current "ann").trans hcurrent, ?_, ?_⟩
  · have hrow : tables.2.balanceId "ann" = some (.ofNat 105) := by decide +kernel
    have hmemory : ledger.2.balanceId "ann" = some (.ofNat 102) := by decide +kernel
    exact not_not.mp fun hkept =>
      absurd ((hids "ann" _ _ hrow hmemory).mpr hkept) (by decide +kernel)
  · have hrow : tables.2.balanceId "bob" = some (.ofNat 109) := by decide +kernel
    have hmemory : ledger.2.balanceId "bob" = some (.ofNat 109) := by decide +kernel
    exact (hids "bob" _ _ hrow hmemory).mp rfl

/-! ## What the two ledgers treat differently -/

/-- The ids that an answer shows, if the call does not fail. -/
def shownIds? : Except Fault Reply → Option (List Uuid)
  | .ok (.orders os) => some (os.map (·.id))
  | .ok (.balance b) => some [b.id]
  | .ok _ => some []
  | .error _ => none

theorem Agree.shownIds?_eq {x y : Except Fault Reply} (h : Agree (fun _ => True) x y) :
    shownIds? x = shownIds? y := by
  cases h with
  | orders h =>
    have hids := congrArg (List.map OrderEntry.id) h
    rw [List.map_map, List.map_map] at hids
    exact congrArg some hids
  | balance _ hid => rw [shownIds?, shownIds?, hid.mpr trivial]
  | _ => rfl

/-- Regular calls that the two ledgers do not answer the same. -/
def ToldApart (plan : Plan) (calls : List Call) : Prop :=
  Regular calls ∧ ¬ List.Forall₂ (Agree fun _ => True)
    (play (fun c => c.onTables plan) {} calls).1 (play Call.onLedger {} calls).1

/-- Answers that show other ids are not the same. -/
theorem toldApart_of_shownIds? {plan : Plan} {calls : List Call} (h : Regular calls)
    (hids : (play (fun c => c.onTables plan) {} calls).1.map shownIds? ≠
      (play Call.onLedger {} calls).1.map shownIds?) : ToldApart plan calls := by
  refine ⟨h, fun hagree => hids ?_⟩
  rw [← List.forall₂_eq_eq_eq, List.forall₂_map_left_iff, List.forall₂_map_right_iff]
  exact hagree.imp fun _ _ => Agree.shownIds?_eq

/-- A debit is refused before the user has a balance. -/
def refusedFirst : List Call :=
  [⟨.debit "ann" "2377225624" ((Decimal.ofMagnitude? false 1 0).getD .zero), .ofNat 1, .ofNat 2, 0⟩,
    ⟨.balance "ann", .ofNat 3, .ofNat 4, 1⟩]

/-- The balance has the id that the second call brings in tables, and that of the first in
    memory. -/
theorem toldApart_refusedFirst : ToldApart backwards refusedFirst := by
  have hcents : IsCents ((Decimal.ofMagnitude? false 1 0).getD .zero).value :=
    ⟨100, by decide +kernel⟩
  have hfits : ∀ c ∈ refusedFirst, Fits c.op :=
    List.forall_mem_cons.mpr ⟨⟨by decide, by decide, hcents⟩,
      List.forall_mem_singleton.mpr (show "ann".length ≤ 64 by decide)⟩
  exact toldApart_of_shownIds? ⟨hfits, by decide +kernel, by decide +kernel, by decide +kernel,
    by decide +kernel⟩ (by decide +kernel)

/-- A cursor stands half a microsecond behind the time of an order. -/
def betweenMicros : List Call :=
  [⟨.createOrder "ann" "79927398713", .ofNat 1, .ofNat 2, 978307200000000⟩,
    ⟨.pendingOrders (some ⟨⟨978307200, 500⟩, .ofNat 0⟩) 10, .ofNat 3, .ofNat 4, 978307200000001⟩]

/-- The server is sent the time of the order itself, and the order has the greater id. -/
theorem toldApart_betweenMicros : ToldApart backwards betweenMicros := by
  have hfits : ∀ c ∈ betweenMicros, Fits c.op :=
    List.forall_mem_cons.mpr ⟨⟨by decide, by decide⟩,
      List.forall_mem_singleton.mpr (show (0 : ℤ) ≤ 10 by decide)⟩
  exact toldApart_of_shownIds? ⟨hfits, by decide +kernel, by decide +kernel, by decide +kernel,
    by decide +kernel⟩ (by decide +kernel)

/-- A number contains the character zero. -/
def zeroCharacter : List Call := [⟨.orderByNumber "7\x00", .ofNat 1, .ofNat 2, 0⟩]

/-- There is no such order in memory, and the server does not look for it. -/
theorem toldApart_zeroCharacter : ToldApart backwards zeroCharacter := by
  have hfits : ∀ c ∈ zeroCharacter, Fits c.op := List.forall_mem_singleton.mpr trivial
  exact toldApart_of_shownIds? ⟨hfits, by decide +kernel, by decide +kernel, by decide +kernel,
    by decide +kernel⟩ (by decide +kernel)

/-- A time before the first of the Julian days. -/
def longAgo : ℤ := -300000000000000000

def oldClock : List Call := [⟨.createOrder "ann" "79927398713", .ofNat 1, .ofNat 2, longAgo⟩]

theorem toldApart_oldClock : ToldApart backwards oldClock := by
  have hfits : ∀ c ∈ oldClock, Fits c.op :=
    List.forall_mem_singleton.mpr ⟨by decide, by decide⟩
  exact toldApart_of_shownIds? ⟨hfits, by decide +kernel, by decide +kernel, by decide +kernel,
    by decide +kernel⟩ (by decide +kernel)

def oldCursor : List Call :=
  [⟨.pendingOrders (some ⟨.ofMicros longAgo, .ofNat 0⟩) 10, .ofNat 1, .ofNat 2, 0⟩]

theorem toldApart_oldCursor : ToldApart backwards oldCursor := by
  have hfits : ∀ c ∈ oldCursor, Fits c.op :=
    List.forall_mem_singleton.mpr (show (0 : ℤ) ≤ 10 by decide)
  exact toldApart_of_shownIds? ⟨hfits, by decide +kernel, by decide +kernel, by decide +kernel,
    by decide +kernel⟩ (by decide +kernel)

/-- The ledgers are told apart by the ids of balances, by cursors between two microseconds, and by
    texts and times that the server does not know. -/
theorem ledgers_told_apart :
    ToldApart backwards refusedFirst ∧ ToldApart backwards betweenMicros ∧
      ToldApart backwards zeroCharacter ∧ ToldApart backwards oldClock ∧
      ToldApart backwards oldCursor :=
  ⟨toldApart_refusedFirst, toldApart_betweenMicros, toldApart_zeroCharacter, toldApart_oldClock,
    toldApart_oldCursor⟩

end LoyaltyPoints.Interchange
