import LoyaltyPoints.Proofs.Database.Transactions
import LoyaltyPoints.Proofs.Ledger.Operation

/-! # Database: calls of the two ledgers

    The same calls are made of the ledger in memory and of the one in tables. Both draw the same
    fresh ids and see the same times: a call brings one id for the record that it adds, one for a
    balance that it opens, and a time in whole microseconds, later than that of all calls before
    it.

    Here is which calls both ledgers take, when their answers are the same, and what is known of
    tables and a ledger behind the same calls. A debit that is refused opens a balance in memory,
    but in tables the opening is rolled back with the rest. So the balance that a later call opens
    there has another id, and this is the one way for the ids of balances to differ. -/

namespace LoyaltyPoints.Interchange

open Database (Plan Tables Session server IsText IsTime opened)

/-! ## Calls -/

/-- A call of a ledger with the ids and the time that it may use. -/
structure Call where
  op : Operation
  /-- The id of the order or withdrawal that it adds. -/
  recordId : Uuid
  /-- The id of a balance that it opens. -/
  balanceId : Uuid
  /-- The time in whole microseconds. -/
  time : ℤ

/-- The user whose balance a call opens if there is none. -/
def holder? : Operation → Option String
  | .accrue c => some c.user
  | .balance user => some user
  | .debit user .. => some user
  | .withdraw user .. => some user
  | _ => none

namespace Call

variable (c : Call)

def stamp : Stamp := ⟨c.recordId, c.balanceId, .ofMicros c.time⟩

/-- The position of an order that the call adds, and the time and id of a withdrawal. -/
def position : Position := ⟨.ofMicros c.time, c.recordId⟩

/-- The ids in the order in which they are drawn: that of a balance comes first. -/
def draws (n : ℕ) : Uuid :=
  if n = 0 ∧ (holder? c.op).isSome then c.balanceId else c.recordId

/-- The call on the ledger in memory. -/
def onLedger (l : Ledger) : Except Fault Reply × Ledger :=
  let r := c.op.perform (LedgerState.storeOf fun _ => c.stamp) ⟨l, 0⟩
  (r.1, r.2.ledger)

/-- What the call sees of the server. -/
def session (t : Tables) : Session := { tables := t, draws := c.draws, now := .ofMicros c.time }

/-- The call on the ledger in tables. What it leaves are the tables that last. -/
def onTables (plan : Plan) (t : Tables) : Except Fault Reply × Tables :=
  let r := c.op.perform (server plan).store (c.session t)
  (r.1, r.2.committed)

end Call

/-- Makes calls one after another: what they answer, and the state behind the last one. -/
def play {σ : Type} (act : Call → σ → Except Fault Reply × σ) (s : σ) (calls : List Call) :
    List (Except Fault Reply) × σ :=
  calls.foldl (fun r c => (r.1 ++ [(act c r.2).1], (act c r.2).2)) ([], s)

theorem play_concat {σ : Type} (act : Call → σ → Except Fault Reply × σ) (s : σ)
    (calls : List Call) (c : Call) : play act s (calls ++ [c]) =
      ((play act s calls).1 ++ [(act c (play act s calls).2).1],
        (act c (play act s calls).2).2) := by
  simp [play, List.foldl_append]

/-! ## What the columns admit -/

/-- Calls of a ledger itself with texts that are not too long and amounts in cents. -/
def Fits : Operation → Prop
  | .createOrder user number => user.length ≤ 64 ∧ number.length ≤ 32
  | .pendingOrders _ limit => 0 ≤ limit
  | .accrue c => c.user.length ≤ 64 ∧ IsCents c.amount.value
  | .balance user => user.length ≤ 64
  | .debit user number amount => user.length ≤ 64 ∧ number.length ≤ 32 ∧ IsCents amount.value
  | .orderByNumber _ | .userOrder .. | .userOrders _ | .markOrders .. | .withdrawals _ => True
  | .submit .. | .withdraw .. => False

/-- The amounts that a call stores in a ledger: the points of the order that a credit settles, the
    sum of a withdrawal whose debit is covered, and the points of the user behind them. -/
def stored (l : Ledger) : Operation → List ℚ
  | .accrue c =>
    if l.accepts c then [c.amount.value, (l.current c.user).value + c.amount.value] else []
  | .debit user _ amount =>
    if (l.current user).lt amount then []
    else [amount.value, (l.current user).value - amount.value,
      (l.withdrawn user).value + amount.value]
  | _ => []

/-- Calls with fresh ids and increasing times, whose arguments fit. -/
structure Regular (calls : List Call) : Prop where
  fits : ∀ c ∈ calls, Fits c.op
  /-- Times increase from call to call. -/
  times : calls.Pairwise fun c d => c.time < d.time
  /-- The ids of records are fresh, and so are those of balances. -/
  recordIds : calls.Pairwise fun c d => c.recordId ≠ d.recordId
  balanceIds : calls.Pairwise fun c d => c.balanceId ≠ d.balanceId
  /-- All amounts that are stored are below `10 ^ 14`. -/
  amounts : ∀ (n : ℕ) (hn : n < calls.length),
    ∀ q ∈ stored (play Call.onLedger {} (calls.take n)).2 calls[n].op, |q| < 10 ^ 14

/-- The texts that a call passes. -/
def texts : Operation → List String
  | .createOrder user number | .userOrder user number | .debit user number _ => [user, number]
  | .submit user number | .withdraw user number _ => [user, number]
  | .accrue c => [c.user, c.number]
  | .orderByNumber number => [number]
  | .userOrders user | .balance user | .withdrawals user => [user]
  | .markOrders .. | .pendingOrders .. => []

/-- The cursor that a call passes, if it passes one. -/
def cursor? : Operation → Option Position
  | .pendingOrders after _ => after
  | _ => none

/-- Calls that the server receives as they are made. -/
structure Sendable (c : Call) : Prop where
  texts : ∀ s ∈ texts c.op, IsText s
  time : IsTime c.time
  /-- A cursor is in whole microseconds. -/
  cursor : ∀ p ∈ cursor? c.op,
    IsTime p.uploadedAt.micros ∧ p.uploadedAt = .ofMicros p.uploadedAt.micros

/-- Calls that both ledgers take. -/
structure Admissible (calls : List Call) : Prop extends Regular calls where
  sendable : ∀ c ∈ calls, Sendable c

/-! ## Balances that a refusal opens -/

/-- Whether a call is a debit that is refused, and opens the balance of the user in memory. -/
def RefusesFirst (l : Ledger) (op : Operation) (user : String) : Prop :=
  ∃ number amount, op = .debit user number amount ∧ (l.current user).lt amount = true ∧
    l.balanceId user = none

/-- Whether the balance of a user has been opened in memory by a debit that was refused. -/
def OpenedByRefusal (calls : List Call) (user : String) : Prop :=
  ∃ past c, past ++ [c] <+: calls ∧ RefusesFirst (play Call.onLedger {} past).2 c.op user

theorem openedByRefusal_concat {past : List Call} {c : Call} {user : String} :
    OpenedByRefusal (past ++ [c]) user ↔
      OpenedByRefusal past user ∨ RefusesFirst (play Call.onLedger {} past).2 c.op user := by
  constructor
  · rintro ⟨before, d, hprefix, hfirst⟩
    rcases List.prefix_concat_iff.mp hprefix with heq | hprefix
    · obtain ⟨rfl, rfl⟩ := List.append_singleton_inj.mp heq
      exact .inr hfirst
    · exact .inl ⟨before, d, hprefix, hfirst⟩
  · rintro (⟨before, d, hprefix, hfirst⟩ | hfirst)
    · exact ⟨before, d, hprefix.trans (List.prefix_append _ _), hfirst⟩
    · exact ⟨past, c, List.prefix_rfl, hfirst⟩

/-! ## Agreement -/

/-- Answers that a caller cannot tell apart: amounts are the same numbers, and the times of
    balances are left aside. The ids of balances are the same for users with the property
    `sameId`, and only for them. -/
inductive Agree (sameId : String → Prop) : Except Fault Reply → Except Fault Reply → Prop where
  | order {a b : Order} (h : a.entry = b.entry) : Agree sameId (.ok (.order a)) (.ok (.order b))
  | found {a b : Option Order} (h : a.map Order.entry = b.map Order.entry) :
      Agree sameId (.ok (.found a)) (.ok (.found b))
  | orders {as bs : List Order} (h : as.map Order.entry = bs.map Order.entry) :
      Agree sameId (.ok (.orders as)) (.ok (.orders bs))
  | count (n : ℕ) : Agree sameId (.ok (.count n)) (.ok (.count n))
  | flag (b : Bool) : Agree sameId (.ok (.flag b)) (.ok (.flag b))
  | balance {a b : Balance} (h : a.entry = b.entry) (hid : a.id = b.id ↔ sameId b.user) :
      Agree sameId (.ok (.balance a)) (.ok (.balance b))
  | withdrawal {a b : Withdrawal} (h : a.entry = b.entry) :
      Agree sameId (.ok (.withdrawal a)) (.ok (.withdrawal b))
  | withdrawals {as bs : List Withdrawal}
      (h : as.map Withdrawal.entry = bs.map Withdrawal.entry) :
      Agree sameId (.ok (.withdrawals as)) (.ok (.withdrawals bs))
  | refused (requested : Decimal) {a b : Decimal} (h : a.value = b.value) :
      Agree sameId (.error (.error (.insufficientFunds requested a)))
        (.error (.error (.insufficientFunds requested b)))
  | fault (f : Fault) : Agree sameId (.error f) (.error f)

theorem Agree.imp {p q : String → Prop} {x y : Except Fault Reply} (h : Agree p x y)
    (hpq : ∀ b, y = .ok (.balance b) → (p b.user ↔ q b.user)) : Agree q x y := by
  cases h with
  | order h => exact .order h
  | found h => exact .found h
  | orders h => exact .orders h
  | count n => exact .count n
  | flag b => exact .flag b
  | balance h hid => exact .balance h (hid.trans (hpq _ rfl))
  | withdrawal h => exact .withdrawal h
  | withdrawals h => exact .withdrawals h
  | refused requested h => exact .refused requested h
  | fault f => exact .fault f

/-- Whether a call has brought an id for a balance. -/
def Brought (calls : List Call) (id : Uuid) : Prop := ∃ c ∈ calls, c.balanceId = id

theorem Brought.later {past : List Call} {c : Call} {id : Uuid} (h : Brought past id) :
    Brought (past ++ [c]) id := by
  obtain ⟨d, hd, rfl⟩ := h
  exact ⟨d, List.mem_append_left _ hd, rfl⟩

/-- An id that an opened balance has was brought before, or by the call that opens the balance. -/
theorem Brought.of_opened {past : List Call} {c : Call} {user v : String} {id : Uuid}
    {ids : String → Option Uuid} (hpast : ∀ user id, ids user = some id → Brought past id)
    (h : opened user c.balanceId ids v = some id) : Brought (past ++ [c]) id := by
  rcases Database.of_opened_eq_some h with hold | rfl
  · exact (hpast v id hold).later
  · exact ⟨c, List.mem_append_right _ (List.mem_singleton_self c), rfl⟩

/-- The ids of balances in tables and in memory behind the same calls. The balances of the users
    with the property `first` were opened by a debit that was refused. -/
structure IdsMatch (past : List Call) (first : String → Prop) (t : Tables) (l : Ledger) : Prop where
  rows : ∀ user id, t.balanceId user = some id → Brought past id
  memory : ∀ user id, l.balanceId user = some id → Brought past id
  same : ∀ user, ¬ first user → t.balanceId user = l.balanceId user
  other : ∀ user, first user → ∃ id, l.balanceId user = some id ∧ t.balanceId user ≠ some id

theorem IdsMatch.eq_iff {past : List Call} {first : String → Prop} {t : Tables} {l : Ledger}
    (h : IdsMatch past first t l) {user : String} {id id' : Uuid}
    (hid : t.balanceId user = some id) (hid' : l.balanceId user = some id') :
    id = id' ↔ ¬ first user := by
  constructor
  · rintro rfl hfirst
    obtain ⟨x, hx, hne⟩ := h.other user hfirst
    exact hne (by rw [hid, ← hid', hx])
  · intro hfirst
    have hsame := h.same user hfirst
    rw [hid, hid'] at hsame
    exact Option.some_inj.mp hsame

/-- What a call does to the ids of balances: it keeps them, or it opens the balance of a user. A
    debit that is refused opens it in memory alone. -/
inductive Treats (c : Call) (t t' : Tables) (l l' : Ledger) : Prop where
  | kept (hfirst : ∀ user, ¬ RefusesFirst l c.op user)
      (hrows : (fun v => t'.balanceId v) = fun v => t.balanceId v)
      (hmemory : (fun v => l'.balanceId v) = fun v => l.balanceId v)
  | opened (user : String) (hfirst : ∀ v, ¬ RefusesFirst l c.op v)
      (hrows : (fun v => t'.balanceId v) = opened user c.balanceId fun v => t.balanceId v)
      (hmemory : (fun v => l'.balanceId v) = opened user c.balanceId fun v => l.balanceId v)
  | refused (user : String)
      (hfirst : ∀ v, RefusesFirst l c.op v ↔ v = user ∧ l.balanceId user = none)
      (hrows : (fun v => t'.balanceId v) = fun v => t.balanceId v)
      (hmemory : (fun v => l'.balanceId v) = opened user c.balanceId fun v => l.balanceId v)

/-- Tables and a ledger behind the same calls. -/
structure Matched (past : List Call) (first : String → Prop) (t : Tables) (l : Ledger) : Prop where
  shows : t.Shows l
  /-- Orders stand in the order of the calls that created them. -/
  orders : (l.orders.map Order.position).Sublist (past.map Call.position)
  withdrawals : (l.withdrawals.map fun w => (⟨w.processedAt, w.id⟩ : Position)).Sublist
    (past.map Call.position)
  ids : IdsMatch past first t l

/-- A call that may follow others. -/
structure Next (past : List Call) (c : Call) (l : Ledger) : Prop where
  fits : Fits c.op
  sendable : Sendable c
  times : past.Pairwise fun c d => c.time < d.time
  recordId : ∀ d ∈ past, d.recordId ≠ c.recordId
  time : ∀ d ∈ past, d.time < c.time
  balanceId : ¬ Brought past c.balanceId
  amounts : ∀ q ∈ stored l c.op, |q| < 10 ^ 14

namespace Admissible

variable {past calls : List Call} {c : Call}

theorem of_isPrefix (h : Admissible calls) (hpast : past <+: calls) : Admissible past where
  fits c hc := h.fits c (hpast.subset hc)
  times := h.times.sublist hpast.sublist
  recordIds := h.recordIds.sublist hpast.sublist
  balanceIds := h.balanceIds.sublist hpast.sublist
  sendable c hc := h.sendable c (hpast.subset hc)
  amounts n hn := by
    obtain ⟨rest, rfl⟩ := hpast
    have hlt : n < (past ++ rest).length := by
      rw [List.length_append]
      omega
    have hamounts := h.amounts n hlt
    rwa [List.take_append_of_le_length hn.le, List.getElem_append_left hn] at hamounts

theorem next (h : Admissible (past ++ [c])) : Next past c (play Call.onLedger {} past).2 where
  fits := h.fits c (List.mem_append_right _ (List.mem_singleton_self c))
  sendable := h.sendable c (List.mem_append_right _ (List.mem_singleton_self c))
  times := (List.pairwise_append.mp h.times).1
  recordId d hd := (List.pairwise_append.mp h.recordIds).2.2 d hd c (List.mem_singleton_self c)
  time d hd := (List.pairwise_append.mp h.times).2.2 d hd c (List.mem_singleton_self c)
  balanceId := by
    rintro ⟨d, hd, heq⟩
    exact (List.pairwise_append.mp h.balanceIds).2.2 d hd c (List.mem_singleton_self c) heq
  amounts := by
    have hlt : past.length < (past ++ [c]).length := by simp
    have hamounts := h.amounts past.length hlt
    rwa [List.take_left, List.getElem_concat_length rfl] at hamounts

end Admissible

/-! ## What is known before a call -/

section known

variable {past : List Call} {first : String → Prop} {c : Call} {t t' : Tables} {l l' : Ledger}

/-- Records that calls added one by one have different times. -/
theorem nodup_of_sublist {ps : List Position} (h : ps.Sublist (past.map Call.position))
    (htimes : past.Pairwise fun c d => c.time < d.time) : (ps.map (·.uploadedAt)).Nodup := by
  refine (h.map _).nodup ?_
  rw [List.map_map, List.Nodup, List.pairwise_map]
  refine htimes.imp ?_
  intro c d hlt heq
  have htime : c.time = d.time := Instant.ofMicros_injective heq
  omega

theorem ne_of_sublist {ps : List Position} (h : ps.Sublist (past.map Call.position))
    (hc : Next past c l) {p : Position} (hp : p ∈ ps) : p.id ≠ c.recordId := by
  obtain ⟨d, hd, rfl⟩ := List.mem_map.mp (h.subset hp)
  exact hc.recordId d hd

namespace Matched

theorem uploadedAt_nodup (h : Matched past first t l) (hc : Next past c l) :
    (l.orders.map (·.uploadedAt)).Nodup := by
  have hnodup := nodup_of_sublist h.orders hc.times
  rwa [List.map_map] at hnodup

theorem processedAt_nodup (h : Matched past first t l) (hc : Next past c l) :
    (l.withdrawals.map (·.processedAt)).Nodup := by
  have hnodup := nodup_of_sublist h.withdrawals hc.times
  rwa [List.map_map] at hnodup

theorem order_id_ne (h : Matched past first t l) (hc : Next past c l) :
    ∀ o ∈ l.orders, o.id ≠ c.recordId :=
  fun _ ho => ne_of_sublist h.orders hc (List.mem_map_of_mem ho)

theorem withdrawal_id_ne (h : Matched past first t l) (hc : Next past c l) :
    ∀ w ∈ l.withdrawals, w.id ≠ c.recordId :=
  fun _ hw => ne_of_sublist h.withdrawals hc (List.mem_map_of_mem hw)

/-- No other user's balance has the id that is brought for this user. -/
theorem balanceId_ne (h : Matched past first t l) (hc : Next past c l) (user : String) :
    t.balanceId user ≠ some c.balanceId :=
  fun hid => hc.balanceId (h.ids.rows user c.balanceId hid)

end Matched

/-- The ids of balances still match if a call opens at most one of them. -/
theorem IdsMatch.concat (h : IdsMatch past first t l) (hc : Next past c l)
    (htreats : Treats c t t' l l') :
    IdsMatch (past ++ [c]) (fun v => first v ∨ RefusesFirst l c.op v) t' l' := by
  cases htreats with
  | kept hfirst hrows hmemory =>
    refine ⟨fun v x hx => ?_, fun v x hx => ?_, fun v hv => ?_, fun v hv => ?_⟩
    · exact (h.rows v x ((congrFun hrows v).symm.trans hx)).later
    · exact (h.memory v x ((congrFun hmemory v).symm.trans hx)).later
    · rw [congrFun hrows v, congrFun hmemory v]
      exact h.same v fun hold => hv (.inl hold)
    · rw [congrFun hrows v, congrFun hmemory v]
      exact h.other v (hv.resolve_right (hfirst v))
  | opened user hfirst hrows hmemory =>
    refine ⟨fun v x hx => ?_, fun v x hx => ?_, fun v hv => ?_, fun v hv => ?_⟩
    · exact .of_opened h.rows ((congrFun hrows v).symm.trans hx)
    · exact .of_opened h.memory ((congrFun hmemory v).symm.trans hx)
    · have hsame := h.same v fun hold => hv (.inl hold)
      rw [congrFun hrows v, congrFun hmemory v, opened, opened]
      split
      · next heq => rw [← heq, hsame]
      · exact hsame
    · obtain ⟨x, hx, hne⟩ := h.other v (hv.resolve_right (hfirst v))
      refine ⟨x, (congrFun hmemory v).trans (Database.opened_of_some hx), ?_⟩
      -- The id in tables is an older one, or a fresh one, which memory cannot have.
      intro hnew
      rcases Database.of_opened_eq_some ((congrFun hrows v).symm.trans hnew) with hold | rfl
      · exact hne hold
      · exact hc.balanceId (h.memory v _ hx)
  | refused user hfirst hrows hmemory =>
    refine ⟨fun v x hx => ?_, fun v x hx => ?_, fun v hv => ?_, fun v hv => ?_⟩
    · exact (h.rows v x ((congrFun hrows v).symm.trans hx)).later
    · exact .of_opened h.memory ((congrFun hmemory v).symm.trans hx)
    · rw [congrFun hrows v, h.same v fun hold => hv (.inl hold), congrFun hmemory v]
      cases hid : l.balanceId v with
      | some x => exact (Database.opened_of_some hid).symm
      | none =>
        have hne : v ≠ user := fun heq => hv (.inr ((hfirst v).mpr ⟨heq, heq ▸ hid⟩))
        rw [opened, if_neg hne, hid]
    · rw [congrFun hrows v, congrFun hmemory v]
      rcases hv with hold | hnew
      · obtain ⟨x, hx, hne⟩ := h.other v hold
        exact ⟨x, Database.opened_of_some hx, hne⟩
      · obtain ⟨rfl, hnone⟩ := (hfirst v).mp hnew
        refine ⟨c.balanceId, ?_, fun hid => hc.balanceId (h.rows v _ hid)⟩
        rw [opened, if_pos rfl, hnone, Option.getD_none]

/-- A balance that was there stays there. -/
theorem Treats.isSome (htreats : Treats c t t' l l') {user : String}
    (h : (l.balanceId user).isSome) : (l'.balanceId user).isSome := by
  obtain ⟨x, hx⟩ := Option.isSome_iff_exists.mp h
  cases htreats with
  | kept _ _ hmemory => rwa [congrFun hmemory user]
  | opened v _ _ hmemory | refused v _ _ hmemory =>
    rw [congrFun hmemory user, Database.opened_of_some hx, Option.isSome_some]

/-- Tables and a ledger still match if a call adds at most its own records and balance. -/
theorem Matched.concat (h : Matched past first t l) (hc : Next past c l) (hshows : t'.Shows l')
    (horders : l'.orders.map Order.position = l.orders.map Order.position ∨
      l'.orders.map Order.position = l.orders.map Order.position ++ [c.position])
    (hwithdrawals : l'.withdrawals = l.withdrawals ∨ ∃ w : Withdrawal,
      l'.withdrawals = l.withdrawals ++ [w] ∧ w.id = c.recordId ∧
        w.processedAt = .ofMicros c.time)
    (htreats : Treats c t t' l l') :
    Matched (past ++ [c]) (fun v => first v ∨ RefusesFirst l c.op v) t' l' := by
  refine ⟨hshows, ?_, ?_, h.ids.concat hc htreats⟩
  · rw [List.map_append]
    rcases horders with heq | heq <;> rw [heq]
    · exact h.orders.trans (List.sublist_append_left _ _)
    · exact h.orders.append (List.Sublist.refl _)
  · rw [List.map_append]
    rcases hwithdrawals with heq | ⟨w, heq, hid, htime⟩ <;> rw [heq]
    · exact h.withdrawals.trans (List.sublist_append_left _ _)
    · rw [List.map_append, List.map_singleton, hid, htime]
      exact h.withdrawals.append (List.Sublist.refl _)

end known

end LoyaltyPoints.Interchange
