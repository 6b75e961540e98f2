import LoyaltyPoints.Proofs.Database.Course
import LoyaltyPoints.Proofs.Decimal.Sum

/-! # Database: when points are committed

    A debit and a credit are procedures of five statements each. Whatever the server answers, the
    balance is locked before it is changed, and nothing is committed but the whole. -/

namespace LoyaltyPoints.Database

open Procedure

theorem Exchange.balance?_of_needed {x : Sent} {r : Reply} {b : Balance}
    (h : r.needed Row.toBalance = .ok b) : (Exchange.mk x (.ok r)).balance? = some b := by
  show (r.needed Row.toBalance).toOption = some b
  rw [h]
  rfl

/-- What debits and credits begin with. -/
def lockingWork (opening : Uuid) (user : String) : List Sent :=
  [.control .begin, .statement (.openBalance opening user), .statement (.balance user),
    .statement (.lockBalance user)]

/-- A statement that changes rows that are there. -/
def Statement.isUpdate : Statement → Bool
  | .markOrders .. | .settleOrder .. | .creditBalance .. | .debitBalance .. => true
  | _ => false

/-- Before anything is updated the balance has been locked, and could be read. -/
theorem Procedure.Course.locked_before {α : Type} {p : Procedure α} {r : Except Fault α}
    {before after : List Exchange} {x : Exchange} {st : Statement} {opening : Uuid}
    {user : String} {back : List Sent} (h : p.Course (before ++ x :: after) r)
    (hwork : p.work ++ [Sent.control .commit] = lockingWork opening user ++ back)
    (hx : x.sent = .statement st) (hupdate : st.isUpdate = true) :
    ∃ y ∈ before, y.sent = .statement (.lockBalance user) ∧ y.balance?.isSome := by
  have hlater : x.sent ∉ lockingWork opening user := by
    rw [hx, lockingWork]
    intro hmem
    simp only [List.mem_cons, Sent.statement.injEq, reduceCtorEq, List.not_mem_nil, or_false,
      false_or] at hmem
    rcases hmem with rfl | rfl | rfl <;> cases hupdate
  obtain ⟨y, hy, hlock, hfine, -⟩ := h.sent_before (by simp [hx]) hwork hlater
    (.statement (.lockBalance user)) (by simp [lockingWork])
  exact ⟨y, hy, hlock, Exchange.record?_isSome hlock (fun _ => rfl) hfine⟩

/-! ## Debits -/

/-- A debit. It leaves where the balance that was locked, or the one that is left, is too low. -/
def debitProcedure (opening withdrawal : Uuid) (user number : String) (amount : Decimal) :
    Procedure Withdrawal where
  statements := [.openBalance opening user, .balance user, .lockBalance user,
    .debitBalance user amount, .insertWithdrawal withdrawal user number amount]
  leave? x :=
    match x.sent with
    | .statement (.lockBalance _) =>
      (x.balance?.filter (·.current.lt amount)).map fun b => Server.refused amount (.ok b.current)
    | .statement (.debitBalance ..) =>
      (x.balance?.filter (·.current.lt .zero)).map fun b =>
        Server.refused amount (b.current.add amount)
    | _ => none
  value? t := t.getLast?.bind (·.withdrawal?)

namespace Script

variable {s : Script}

/-- The debit with the ids that this script hands out. -/
def debitProcedure (s : Script) (user number : String) (amount : Decimal) :
    Procedure Withdrawal :=
  Database.debitProcedure (s.freshUuid 0) (s.freshUuid 1) user number amount

/-- A debit keeps to its procedure. -/
theorem tells_debit (user number : String) (amount : Decimal) (h : s.isReachable = true) :
    Tells (server.debit user number amount) s
      (fun t w _ => (s.debitProcedure user number amount).Course t (.ok w))
      fun t f _ => (s.debitProcedure user number amount).Course t (.error f) := by
  refine tells_transaction h rfl fun begun s₁ hs₁ hbegun => ?_
  refine keepsTo_openedBalance hs₁ hbegun ⟨_, rfl⟩ (fun _ _ => rfl) (fun _ => rfl)
    fun passed b s₂ hs₂ hopened => ?_
  -- The balance is locked, and judged for the first time.
  rw [Server.fetchOne_eq]
  refine keepsTo_bind hs₂ (fun _ => rfl) hopened ⟨_, rfl⟩ fun r locked s₃ hlocked hfine hs₃ => ?_
  have hbalance := Exchange.balance?_of_needed (x := .statement (.lockBalance user)) hlocked
  by_cases hlow : locked.current.lt amount = true
  · rw [if_pos hlow]
    refine keepsTo_leave hopened ⟨_, rfl⟩ hfine ?_
    simp [debitProcedure, Database.debitProcedure, hbalance, hlow]
  rw [if_neg hlow]
  have hcovered := hopened.concat hfine
    (by simp [debitProcedure, Database.debitProcedure, hbalance, hlow])
  -- It is lowered, and judged once more.
  rw [Server.fetchOne_eq]
  refine keepsTo_bind hs₃ (fun _ => rfl) hcovered ⟨_, rfl⟩
    fun r' left s₄ hleft hfine' hs₄ => ?_
  have hbalance' := Exchange.balance?_of_needed (x := .statement (.debitBalance user amount)) hleft
  by_cases hlow' : left.current.lt .zero = true
  · rw [if_pos hlow']
    refine keepsTo_leave hcovered ⟨_, rfl⟩ hfine' ?_
    simp [debitProcedure, Database.debitProcedure, hbalance', hlow']
  rw [if_neg hlow']
  have hlowered := hcovered.concat hfine'
    (by simp [debitProcedure, Database.debitProcedure, hbalance', hlow'])
  -- What for is written down.
  refine tells_bind (tells_freshId hs₄ fun s₅ hs₅ => ?_)
  rw [Server.fetchOne_eq]
  refine keepsTo_bind hs₅ (fun _ => rfl) hlowered ⟨[], rfl⟩ fun r'' w s₆ hw hfine'' hs₆ => ?_
  refine keepsTo_commit (hlowered.concat hfine'' rfl) ?_
  show (List.getLast? _).bind _ = some w
  rw [List.getLast?_concat]
  show (r''.needed Row.toWithdrawal).toOption = some w
  rw [hw]
  rfl

end Script

/-- The answer brings a balance of at least this much. -/
def Exchange.HasAtLeast (x : Exchange) (least : ℚ) : Prop :=
  ∃ b, x.balance? = some b ∧ least ≤ b.current.value

/-- What a debit says to a server, and how it ends. -/
structure DebitDiscipline (s : Script) (user number : String) (amount : Decimal)
    (t : List Exchange) (r : Except Fault Withdrawal) : Prop where
  /-- The statements are sent in order, as far as they are sent. Behind them there is nothing but
      a roll-back. -/
  in_order : ∃ front back : List Exchange, t = front ++ back ∧
    front.map (·.sent) <+: (s.debitProcedure user number amount).work ++ [Sent.control .commit] ∧
      RollsBack back
  commit_sent_iff : Sent.control .commit ∈ t.map (·.sent) ↔ s.isReachable = true ∧
    ∀ x ∈ s.transcript (s.debitProcedure user number amount).work, x.failure? = none ∧
      (∀ payer : String, x.sent = .statement (.lockBalance payer) → x.HasAtLeast amount.value) ∧
      ∀ (payer : String) (sum : Decimal),
        x.sent = .statement (.debitBalance payer sum) → x.HasAtLeast 0
  locked_first : ∀ (before after : List Exchange) (x : Exchange) (st : Statement),
    t = before ++ x :: after → x.sent = .statement st → st.isUpdate = true →
      ∃ y ∈ before, y.sent = .statement (.lockBalance user) ∧ y.balance?.isSome
  ok_iff : (∃ w, r = .ok w) ↔ Acknowledged .commit t
  returned : ∀ w : Withdrawal, r = .ok w → ∃ x ∈ t, x.withdrawal? = some w ∧
    x.sent = .statement (.insertWithdrawal (s.freshUuid 1) user number amount)
  uncovered : ∀ requested available : Decimal,
    r = .error (.error (.insufficientFunds requested available)) → Acknowledged .rollback t ∧
      Sent.control .commit ∉ t.map (·.sent) ∧
        ∀ (id : Uuid) (payer order : String) (sum : Decimal),
          Sent.statement (.insertWithdrawal id payer order sum) ∉ t.map (·.sent)
  /-- Every other failure is one of the database, and nothing comes behind it but a roll-back. -/
  failed : ∀ f : Fault, r = .error f →
    (∀ requested available : Decimal, f ≠ .error (.insufficientFunds requested available)) →
      ∃ e : DatabaseError, f = .error (.database e) ∧ ((s.isReachable = false ∧ t = []) ∨
        ∃ (before after : List Exchange) (x : Exchange), t = before ++ x :: after ∧
          x.failure? = some e ∧ ∀ y ∈ after, y.sent = .control .rollback)

namespace Script

variable {s : Script} {user number : String} {amount : Decimal}

/-- What is added to a sum below zero cannot leave the range. -/
theorem add_of_neg {a b : Decimal} (ha : a.value < 0) (hb : 0 < b.value) :
    ∃ c, a.add b = .ok c := by
  cases hsum : a.add b with
  | ok c => exact ⟨c, rfl⟩
  | error e =>
    have habs : |a.value + b.value| ≤ (Decimal.bound : ℚ) - 1 := by
      have hleft := abs_le.mp a.abs_value_le
      have hright := abs_le.mp b.abs_value_le
      rw [abs_le]
      constructor <;> linarith
    have hover := (Decimal.add_eq_error_iff.mp hsum).2
    linarith

/-- A debit leaves with a refusal, at one of two statements. -/
theorem debit_leave_cases {x : Exchange} {r : Except Fault Withdrawal} (hamount : 0 < amount.value)
    (h : (s.debitProcedure user number amount).leave? x = some r) :
    (∃ available, r = .error (.error (.insufficientFunds amount available))) ∧
      ((∃ payer, x.sent = .statement (.lockBalance payer)) ∨
        ∃ payer sum, x.sent = .statement (.debitBalance payer sum)) := by
  rw [debitProcedure, Database.debitProcedure] at h
  dsimp only at h
  split at h
  · next payer hsent =>
    obtain ⟨b, -, rfl⟩ := Option.map_eq_some_iff.mp h
    exact ⟨⟨_, rfl⟩, .inl ⟨payer, hsent⟩⟩
  · next payer sum hsent =>
    obtain ⟨b, hb, rfl⟩ := Option.map_eq_some_iff.mp h
    have hlow := (Decimal.lt_iff _ _).mp (Option.filter_eq_some_iff.mp hb).2
    have hzero : Decimal.zero.value = 0 := Decimal.value_eq_zero_iff.mpr rfl
    rw [hzero] at hlow
    obtain ⟨available, hsum⟩ := add_of_neg hlow hamount
    rw [hsum]
    exact ⟨⟨available, rfl⟩, .inr ⟨payer, sum, hsent⟩⟩
  · cases h

/-- A debit goes on where the balance is high enough. -/
theorem debit_stays_iff {x : Exchange} (hfine : x.failure? = none) :
    (s.debitProcedure user number amount).leave? x = none ↔
      (∀ payer, x.sent = .statement (.lockBalance payer) → x.HasAtLeast amount.value) ∧
        ∀ payer sum, x.sent = .statement (.debitBalance payer sum) → x.HasAtLeast 0 := by
  have hread : ∀ {st : Statement} {least : Decimal}, x.sent = .statement st →
      (∀ r, st.failure? r = errorOf? (r.needed Row.toBalance)) →
        (x.balance?.filter (·.current.lt least) = none ↔ x.HasAtLeast least.value) := by
    intro st least hsent hread
    obtain ⟨b, hb⟩ := Option.isSome_iff_exists.mp (Exchange.record?_isSome hsent hread hfine)
    change x.balance? = some b at hb
    simp [Exchange.HasAtLeast, hb, Decimal.lt_eq_false_iff]
  rw [debitProcedure, Database.debitProcedure]
  dsimp only
  split
  · next payer hsent =>
    rw [Option.map_eq_none_iff, hread hsent fun _ => rfl]
    simp [hsent]
  · next payer sum hsent =>
    rw [Option.map_eq_none_iff, hread hsent fun _ => rfl, Decimal.value_eq_zero_iff.mpr rfl]
    simp [hsent]
  · next hlock hdebit =>
    exact iff_of_true rfl ⟨fun payer h => absurd h (hlock payer),
      fun payer sum h => absurd h (hdebit payer sum)⟩

/-- A debit that is left has not come to its last statement. -/
theorem debit_sent_of_left {passed : List Exchange} {x : Exchange} {r : Except Fault Withdrawal}
    (hamount : 0 < amount.value)
    (hsent : (passed ++ [x]).map (·.sent) <+: (s.debitProcedure user number amount).work)
    (hleave : (s.debitProcedure user number amount).leave? x = some r) :
    ∀ st ∈ (passed ++ [x]).map (·.sent), st ≠ .control .commit ∧
      ∀ id payer order sum, st ≠ .statement (.insertWithdrawal id payer order sum) := by
  have hx : x.sent ≠ .statement (.insertWithdrawal (s.freshUuid 1) user number amount) := by
    rcases (debit_leave_cases hamount hleave).2 with ⟨payer, hlock⟩ | ⟨payer, sum, hdebit⟩
    · simp [hlock]
    · simp [hdebit]
  have hwork : (s.debitProcedure user number amount).work =
      (lockingWork (s.freshUuid 0) user ++ [Sent.statement (.debitBalance user amount)]) ++
        [Sent.statement (.insertWithdrawal (s.freshUuid 1) user number amount)] := rfl
  rw [List.map_append, hwork] at hsent
  rw [List.map_append]
  rcases List.prefix_concat_iff.mp hsent with heq | hle
  · exact absurd (List.cons.inj (List.append_inj' heq rfl).2).1 hx
  · intro st hst
    have hmem := hle.subset hst
    simp only [lockingWork, List.mem_append, List.mem_cons, List.not_mem_nil, or_false] at hmem
    rcases hmem with (rfl | rfl | rfl | rfl) | rfl <;> simp

/-- Without a connection nothing is said. -/
theorem transaction_of_unreachable {α : Type} (body : Action Script (Ending α))
    (h : s.isReachable = false) : s.conversation (server.transaction body) = [] ∧
      ∃ e, ((server.transaction body).perform s).1 = .error (.error (.database e)) := by
  obtain ⟨e, s', hears⟩ := hears_transaction_unreachable body h
  exact ⟨hears.conversation_eq, e, by rw [hears.perform]⟩

section course

variable {t : List Exchange} {r : Except Fault Withdrawal}

/-- A debit that brings a withdrawal was committed. -/
theorem debit_committed {w : Withdrawal} (hamount : 0 < amount.value)
    (h : (s.debitProcedure user number amount).Course t (.ok w)) :
    ∃ passed, t = passed ++ [⟨.control .commit, .ok {}⟩] ∧
      passed.map (·.sent) = (s.debitProcedure user number amount).work ∧
      (s.debitProcedure user number amount).value? passed = some w := by
  cases h with
  | left _ _ _ hleave =>
    obtain ⟨⟨_, hrefused⟩, -⟩ := debit_leave_cases hamount hleave
    cases hrefused
  | committed hsent _ hvalue => exact ⟨_, rfl, hsent, hvalue⟩

/-- A debit that brings a withdrawal has read it from the answer to its last statement. -/
theorem debit_returned {w : Withdrawal} (hamount : 0 < amount.value)
    (h : (s.debitProcedure user number amount).Course t (.ok w)) :
    ∃ x ∈ t, x.withdrawal? = some w ∧
      x.sent = .statement (.insertWithdrawal (s.freshUuid 1) user number amount) := by
  obtain ⟨passed, rfl, hsent, hvalue⟩ := debit_committed hamount h
  obtain ⟨x, hlast, hw⟩ := Option.bind_eq_some_iff.mp hvalue
  refine ⟨x, List.mem_append_left _ (List.mem_of_getLast? hlast), hw, ?_⟩
  have hsent := congrArg List.getLast? hsent
  rw [List.getLast?_map, hlast] at hsent
  exact Option.some_inj.mp hsent

/-- A debit that is refused for want of points is rolled back before its last statement. -/
theorem debit_uncovered {requested available : Decimal} (hamount : 0 < amount.value)
    (h : (s.debitProcedure user number amount).Course t
      (.error (.error (.insufficientFunds requested available)))) :
    Acknowledged .rollback t ∧ Sent.control .commit ∉ t.map (·.sent) ∧
      ∀ id payer order sum,
        Sent.statement (.insertWithdrawal id payer order sum) ∉ t.map (·.sent) := by
  cases h with
  | left hsent _ _ hleave =>
    have hshort := debit_sent_of_left hamount hsent hleave
    rw [List.append_cons, List.map_append]
    refine ⟨⟨{}, by simp⟩, fun hcommit => ?_, fun id payer order sum hinsert => ?_⟩
    · rcases List.mem_append.mp hcommit with hcommit | hcommit
      · exact (hshort _ hcommit).1 rfl
      · simp at hcommit
    · rcases List.mem_append.mp hinsert with hinsert | hinsert
      · exact (hshort _ hinsert).2 id payer order sum rfl
      · simp at hinsert

/-- A debit that fails otherwise fails at the first thing that the database does not do. -/
theorem debit_failed {f : Fault} (hamount : 0 < amount.value)
    (h : (s.debitProcedure user number amount).Course t (.error f))
    (hother : ∀ requested available, f ≠ .error (.insufficientFunds requested available)) :
    ∃ e, f = .error (.database e) ∧ ∃ before after x, t = before ++ x :: after ∧
      x.failure? = some e ∧ ∀ y ∈ after, y.sent = .control .rollback := by
  cases h with
  | failed _ _ hfailed htail =>
    exact ⟨_, rfl, _, _, _, rfl, hfailed, RollsBack.sent_eq (.inl htail)⟩
  | left _ _ _ hleave =>
    obtain ⟨⟨available, hrefused⟩, -⟩ := debit_leave_cases hamount hleave
    cases hrefused
    exact absurd rfl (hother _ _)
  | @stuck passed tail x _ why _ _ _ _ htail =>
    refine ⟨_, rfl, passed ++ [x], tail, ⟨.control .rollback, .error why⟩, ?_, rfl,
      RollsBack.sent_eq (.inl htail)⟩
    rw [List.append_assoc, List.singleton_append]

end course

/-- A debit is only committed whole: in order, the balance locked before it is lowered, and with
    enough points at both looks. -/
theorem debit_disciplined (s : Script) (user number : String) {amount : Decimal}
    (hamount : 0 < amount.value) :
    DebitDiscipline s user number amount (s.conversation (server.debit user number amount))
      ((server.debit user number amount).perform s).1 := by
  cases hreachable : s.isReachable with
  | false =>
    obtain ⟨hsilent, e, hr⟩ : s.conversation (server.debit user number amount) = [] ∧
      ∃ e, ((server.debit user number amount).perform s).1 = .error (.error (.database e)) :=
        transaction_of_unreachable _ hreachable
    rw [hsilent, hr]
    exact {
      in_order := ⟨[], [], rfl, List.nil_prefix, .inl (.inl rfl)⟩
      commit_sent_iff := by simp [hreachable]
      locked_first := by simp
      ok_iff := by simp [Acknowledged]
      returned := by simp
      uncovered := by simp
      failed := fun f hf _ => by cases hf; exact ⟨e, rfl, .inl ⟨hreachable, rfl⟩⟩ }
  | true =>
    obtain ⟨hcourse, ht⟩ := (tells_debit user number amount hreachable).course
    generalize s.conversation (server.debit user number amount) = t at hcourse ht
    generalize ((server.debit user number amount).perform s).1 = r at hcourse
    exact {
      in_order := hcourse.in_order
      commit_sent_iff := by
        rw [hcourse.commit_sent_iff ht, and_iff_right hreachable]
        exact forall₂_congr fun x _ => and_congr_right fun hfine => debit_stays_iff hfine
      locked_first := by
        rintro before after x st rfl hx hupdate
        have hwork : (s.debitProcedure user number amount).work ++ [Sent.control .commit] =
            lockingWork (s.freshUuid 0) user ++ [Sent.statement (.debitBalance user amount),
              Sent.statement (.insertWithdrawal (s.freshUuid 1) user number amount),
              Sent.control .commit] := rfl
        exact hcourse.locked_before hwork hx hupdate
      ok_iff := by
        constructor
        · rintro ⟨w, rfl⟩
          obtain ⟨passed, rfl, -⟩ := debit_committed hamount hcourse
          exact ⟨{}, by simp⟩
        · intro hcommit
          obtain ⟨_, w, -, -, -, -, hr⟩ := hcourse.of_acknowledged hcommit
          exact ⟨w, hr⟩
      returned := by
        rintro w rfl
        exact debit_returned hamount hcourse
      uncovered := by
        rintro requested available rfl
        exact debit_uncovered hamount hcourse
      failed := by
        rintro f rfl hother
        obtain ⟨e, hf, hfailed⟩ := debit_failed hamount hcourse hother
        exact ⟨e, hf, .inr hfailed⟩ }

/-- An answer with a balance. -/
def balanceReply (user : String) (current : ℕ) : Reply where
  rows := [[("balance_id", .uuid default), ("user_id", .text user),
    ("current", .numeric (.number false current 0)), ("withdrawn", .numeric (.number false 0 0)),
    ("created_at", .time (.ofMicros 0)), ("updated_at", .time (.ofMicros 0))]]

/-- An answer with a withdrawal. -/
def withdrawalReply (user number : String) (sum : ℕ) : Reply where
  rows := [[("withdrawal_id", .uuid default), ("user_id", .text user),
    ("order_number", .text number), ("sum", .numeric (.number false sum 0)),
    ("processed_at", .time (.ofMicros 0))]]

def fivePoints : Decimal := ⟨50, 1, by decide, by decide⟩

/-- A server that lets a debit of five points pass. -/
def covering : Script where
  link := .open
  replies := [.ok {}, .ok (balanceReply "ann" 7), .ok (balanceReply "ann" 7),
    .ok (balanceReply "ann" 2), .ok (withdrawalReply "ann" "79927398713" 5)]

theorem debit_disciplined_of_covered : 0 < fivePoints.value ∧
    DebitDiscipline covering "ann" "79927398713" fivePoints
      (covering.conversation (server.debit "ann" "79927398713" fivePoints))
      ((server.debit "ann" "79927398713" fivePoints).perform covering).1 ∧
    ((server.debit "ann" "79927398713" fivePoints).perform covering).1.isOk := by
  have hpositive : 0 < fivePoints.value := Decimal.value_pos_iff.mpr (by decide)
  exact ⟨hpositive, debit_disciplined covering "ann" "79927398713" hpositive, by decide +kernel⟩

end Script

/-! ## Credits -/

/-- The server took the statement, and there was a row for it. -/
def Exchange.returnsRow (x : Exchange) : Bool := x.answer.toOption.any (!·.rows.isEmpty)

/-- The server took the statement, and there was no row for it. -/
def Exchange.returnsNone (x : Exchange) : Bool := x.answer.toOption.any (·.rows.isEmpty)

/-- A credit. It leaves where there was no order to settle. -/
def accrualProcedure (opening : Uuid) (c : Credit) : Procedure Bool where
  statements := [.openBalance opening c.user, .balance c.user, .lockBalance c.user,
    .settleOrder c.number c.user c.amount, .creditBalance c.user c.amount]
  leave? x :=
    match x.sent with
    | .statement (.settleOrder ..) => if x.returnsNone then some (.ok false) else none
    | _ => none
  value? _ := some true

namespace Script

variable {s : Script}

/-- The credit with the id that this script hands out. -/
def accrualProcedure (s : Script) (c : Credit) : Procedure Bool :=
  Database.accrualProcedure (s.freshUuid 0) c

/-- A credit keeps to its procedure. -/
theorem tells_accrue (c : Credit) (h : s.isReachable = true) :
    Tells (server.accrue c) s (fun t b _ => (s.accrualProcedure c).Course t (.ok b))
      fun t f _ => (s.accrualProcedure c).Course t (.error f) := by
  refine tells_transaction h rfl fun begun s₁ hs₁ hbegun => ?_
  refine keepsTo_openedBalance hs₁ hbegun ⟨_, rfl⟩ (fun _ _ => rfl) (fun _ => rfl)
    fun passed b s₂ hs₂ hopened => ?_
  -- The balance is locked.
  rw [Server.fetchOne_eq]
  refine keepsTo_bind hs₂ (fun _ => rfl) hopened ⟨_, rfl⟩ fun r locked s₃ _ hfine hs₃ => ?_
  have hlocked := hopened.concat hfine rfl
  -- The order is settled, if it is there to be settled.
  rw [Server.fetchOptional_eq]
  refine keepsTo_bind hs₃ (fun _ => rfl) hlocked ⟨_, rfl⟩ fun r' settled s₄ hread hfine' hs₄ => ?_
  rw [Reply.first?] at hread
  cases hrows : r'.rows with
  | nil =>
    rw [hrows] at hread
    cases hread
    refine keepsTo_leave hlocked ⟨_, rfl⟩ hfine' ?_
    exact if_pos (List.isEmpty_iff.mpr hrows)
  | cons row rows =>
    have hstays : (s.accrualProcedure c).leave?
        ⟨.statement (.settleOrder c.number c.user c.amount), .ok r'⟩ = none := by
      refine if_neg fun hnone => ?_
      rw [List.isEmpty_iff.mp hnone] at hrows
      cases hrows
    obtain ⟨id, rfl⟩ : ∃ id, settled = some id := by
      rw [hrows] at hread
      dsimp only at hread
      cases hid : Row.toOrderId row with
      | error e =>
        rw [hid] at hread
        cases hread
      | ok id =>
        rw [hid] at hread
        cases hread
        exact ⟨id, rfl⟩
    -- The points are added.
    have hsettled := hlocked.concat hfine' hstays
    refine keepsTo_execute hs₄ (fun _ => rfl) hsettled ⟨[], rfl⟩ fun r'' s₅ hs₅ => ?_
    exact keepsTo_commit (hsettled.concat rfl rfl) rfl

end Script

/-- A credit of points. -/
def Sent.isCredit : Sent → Bool
  | .statement (.creditBalance ..) => true
  | _ => false

/-- What a credit says to a server, and how it ends. -/
structure AccrualDiscipline (s : Script) (c : Credit) (t : List Exchange)
    (r : Except Fault Bool) : Prop where
  /-- The statements are sent in order, as far as they are sent. Behind them there is nothing but
      a roll-back. -/
  in_order : ∃ front back : List Exchange, t = front ++ back ∧
    front.map (·.sent) <+: (s.accrualProcedure c).work ++ [Sent.control .commit] ∧ RollsBack back
  locked_first : ∀ (before after : List Exchange) (x : Exchange) (st : Statement),
    t = before ++ x :: after → x.sent = .statement st → st.isUpdate = true →
      ∃ y ∈ before, y.sent = .statement (.lockBalance c.user) ∧ y.balance?.isSome
  credited_behind : ∀ (before after : List Exchange) (x : Exchange) (user : String)
    (amount : Decimal), t = before ++ x :: after →
      x.sent = .statement (.creditBalance user amount) →
        ∃ y ∈ before, y.sent = .statement (.settleOrder c.number user amount) ∧ y.returnsRow
  credited_once : (t.map (·.sent)).countP Sent.isCredit ≤ 1
  commit_sent_iff : Sent.control .commit ∈ t.map (·.sent) ↔ s.isReachable = true ∧
    ∀ x ∈ s.transcript (s.accrualProcedure c).work, x.failure? = none ∧
      ∀ (number user : String) (amount : Decimal),
        x.sent = .statement (.settleOrder number user amount) → x.returnsRow
  ok_true_iff : r = .ok true ↔ Acknowledged .commit t
  ok_false_iff : r = .ok false ↔
    ∃ (before after : List Exchange) (x : Exchange) (reply : Reply),
      t = before ++ x :: ⟨.control .rollback, .ok reply⟩ :: after ∧ x.returnsNone ∧
        ∃ (number user : String) (amount : Decimal),
          x.sent = .statement (.settleOrder number user amount)
  /-- Every other end is an error of the database. -/
  failed : r ≠ .ok true → r ≠ .ok false → ∃ e : DatabaseError, r = .error (.error (.database e))
  /-- No order is settled for good without its points. -/
  whole : ∀ (before after : List Exchange) (x : Exchange), t = before ++ x :: after →
    x.sent = .control .commit →
      ∃ y ∈ before, y.sent = .statement (.creditBalance c.user c.amount) ∧ y.failure? = none

namespace Script

variable {s : Script} {c : Credit}

theorem accrual_leave_eq_some_iff {x : Exchange} {r : Except Fault Bool} :
    (s.accrualProcedure c).leave? x = some r ↔ r = .ok false ∧ x.returnsNone ∧
      ∃ number user amount, x.sent = .statement (.settleOrder number user amount) := by
  rw [accrualProcedure, Database.accrualProcedure]
  dsimp only
  split
  · next number user amount hsent =>
    cases x.returnsNone <;> simp [hsent, eq_comm]
  · next hother =>
    simp only [reduceCtorEq, false_iff, not_and, not_exists]
    exact fun _ _ => hother

theorem returnsRow_iff {x : Exchange} (hfine : x.failure? = none) :
    x.returnsRow ↔ ¬ x.returnsNone := by
  obtain ⟨sent, why | reply⟩ := x
  · cases hfine
  · simp [Exchange.returnsRow, Exchange.returnsNone, Except.toOption]

/-- A credit goes on where an order was settled. -/
theorem accrual_stays_iff {x : Exchange} (hfine : x.failure? = none) :
    (s.accrualProcedure c).leave? x = none ↔
      ∀ number user amount, x.sent = .statement (.settleOrder number user amount) →
        x.returnsRow := by
  rw [returnsRow_iff hfine, Option.eq_none_iff_forall_ne_some]
  simp only [ne_eq, accrual_leave_eq_some_iff]
  constructor
  · intro h number user amount hsent hnone
    exact h _ ⟨rfl, hnone, number, user, amount, hsent⟩
  · rintro h r ⟨-, hnone, number, user, amount, hsent⟩
    exact h number user amount hsent hnone

section course

variable {t before after : List Exchange} {x : Exchange} {r : Except Fault Bool}

/-- No order is settled is no failure. -/
theorem failure?_of_returnsNone {number user : String} {amount : Decimal}
    (hsent : x.sent = .statement (.settleOrder number user amount)) (hnone : x.returnsNone) :
    x.failure? = none := by
  obtain ⟨sent, why | reply⟩ := x
  · cases hnone
  obtain rfl : sent = _ := hsent
  show errorOf? (reply.first? Row.toOrderId) = none
  rw [Reply.first?, List.isEmpty_iff.mp hnone]
  rfl

/-- A credit that finds no order to settle ends there, if the server lets it. -/
theorem accrual_of_returnsNone (h : (s.accrualProcedure c).Course t r) {reply : Reply}
    (ht : t = before ++ x :: ⟨.control .rollback, .ok reply⟩ :: after) (hnone : x.returnsNone)
    (hsettle : ∃ number user amount, x.sent = .statement (.settleOrder number user amount)) :
    r = .ok false := by
  have hleave : (s.accrualProcedure c).leave? x = some (.ok false) :=
    accrual_leave_eq_some_iff.mpr ⟨rfl, hnone, hsettle⟩
  obtain ⟨number, user, amount, hsent⟩ := hsettle
  have hfine := failure?_of_returnsNone hsent hnone
  -- The course was decided at this answer: it did not pass, and is no roll-back.
  have hsplit : ∀ {passed tail : List Exchange} {x' : Exchange},
      passed ++ x' :: tail = before ++ x :: ⟨.control .rollback, .ok reply⟩ :: after →
      (∀ y ∈ passed, (s.accrualProcedure c).Passes y) → RollsBack tail →
      x' = x ∧ tail = ⟨.control .rollback, .ok reply⟩ :: after := by
    intro passed tail x' heq hpassed htail
    refine ((List.append_cons_inj_of_notMem (fun hx => ?_) fun hx => ?_).mp heq).2
    · rw [(hpassed x hx).2] at hleave
      cases hleave
    · rw [htail.sent_eq x hx] at hsent
      cases hsent
  cases h with
  | failed _ hpassed hfailed htail =>
    obtain ⟨rfl, -⟩ := hsplit ht hpassed (.inl htail)
    rw [hfine] at hfailed
    cases hfailed
  | left _ _ _ hleft => exact (accrual_leave_eq_some_iff.mp hleft).1
  | stuck _ hpassed _ _ htail =>
    obtain ⟨-, heq⟩ := hsplit ht hpassed (.inr ⟨_, _, htail, rfl⟩)
    cases heq
  | committed _ hpassed _ =>
    obtain ⟨rfl, -⟩ := hsplit ht hpassed (.inl (.inl rfl))
    cases hsent

/-- Points are credited behind the order that they are for, once it was settled. -/
theorem accrual_credited_behind {user : String} {amount : Decimal}
    (h : (s.accrualProcedure c).Course (before ++ x :: after) r)
    (hsent : x.sent = .statement (.creditBalance user amount)) :
    ∃ y ∈ before, y.sent = .statement (.settleOrder c.number user amount) ∧ y.returnsRow := by
  have hrollback : x.sent ≠ .control .rollback := by simp [hsent]
  obtain ⟨rfl, rfl⟩ : user = c.user ∧ amount = c.amount := by
    have hmem := (h.passed_before hrollback).1.subset
      (List.mem_append_right _ (List.mem_singleton_self _))
    rw [hsent] at hmem
    simpa [work, accrualProcedure, Database.accrualProcedure] using hmem
  have hwork : (s.accrualProcedure c).work ++ [Sent.control .commit] =
      (lockingWork (s.freshUuid 0) c.user ++
        [Sent.statement (.settleOrder c.number c.user c.amount)]) ++
          [Sent.statement (.creditBalance c.user c.amount), Sent.control .commit] := rfl
  obtain ⟨y, hy, hsettle, hfine, hstays⟩ := h.sent_before hrollback hwork
    (by simp [hsent, lockingWork]) (.statement (.settleOrder c.number c.user c.amount)) (by simp)
  exact ⟨y, hy, hsettle, (accrual_stays_iff hfine).mp hstays _ _ _ hsettle⟩

/-- Points are credited at most once: the procedure says it once, and roll-backs do not. -/
theorem accrual_credited_once (h : (s.accrualProcedure c).Course t r) :
    (t.map (·.sent)).countP Sent.isCredit ≤ 1 := by
  obtain ⟨front, back, rfl, hfront, hback⟩ := h.in_order
  have hnone : (back.map (·.sent)).countP Sent.isCredit = 0 := by
    rw [List.countP_eq_zero]
    intro st hst
    obtain ⟨y, hy, rfl⟩ := List.mem_map.mp hst
    rw [hback.sent_eq y hy]
    exact Bool.false_ne_true
  rw [List.map_append, List.countP_append, hnone]
  exact hfront.sublist.countP_le

/-- What a credit that is neither done nor skipped ends with. -/
theorem accrual_failed (h : (s.accrualProcedure c).Course t r) (htrue : r ≠ .ok true)
    (hfalse : r ≠ .ok false) : ∃ e, r = .error (.error (.database e)) := by
  cases h with
  | failed => exact ⟨_, rfl⟩
  | left _ _ _ hleave => exact absurd (accrual_leave_eq_some_iff.mp hleave).1 hfalse
  | stuck => exact ⟨_, rfl⟩
  | committed _ _ hvalue =>
    cases hvalue
    exact absurd rfl htrue

/-- Before a commit the points were credited. -/
theorem accrual_whole {answer : Response}
    (h : (s.accrualProcedure c).Course (before ++ ⟨.control .commit, answer⟩ :: after) r) :
    ∃ y ∈ before, y.sent = .statement (.creditBalance c.user c.amount) ∧ y.failure? = none := by
  obtain ⟨hsent, hpassed⟩ := h.passed_before_commit
  have hmem : Sent.statement (.creditBalance c.user c.amount) ∈ before.map (·.sent) := by
    rw [hsent]
    simp [work, accrualProcedure, Database.accrualProcedure]
  obtain ⟨y, hy, hcredit⟩ := List.mem_map.mp hmem
  exact ⟨y, hy, hcredit, (hpassed y hy).1⟩

end course

/-- A credit is committed only together with the order that it settles. -/
theorem accrual_disciplined (s : Script) (c : Credit) :
    AccrualDiscipline s c (s.conversation (server.accrue c)) ((server.accrue c).perform s).1 := by
  cases hreachable : s.isReachable with
  | false =>
    obtain ⟨hsilent, e, hr⟩ : s.conversation (server.accrue c) = [] ∧
      ∃ e, ((server.accrue c).perform s).1 = .error (.error (.database e)) :=
        transaction_of_unreachable _ hreachable
    rw [hsilent, hr]
    exact {
      in_order := ⟨[], [], rfl, List.nil_prefix, .inl (.inl rfl)⟩
      locked_first := by simp
      credited_behind := by simp
      credited_once := by simp
      commit_sent_iff := by simp [hreachable]
      ok_true_iff := by simp [Acknowledged]
      ok_false_iff := by simp
      failed := fun _ _ => ⟨e, rfl⟩
      whole := by simp }
  | true =>
    obtain ⟨hcourse, ht⟩ := (tells_accrue c hreachable).course
    generalize s.conversation (server.accrue c) = t at hcourse ht
    generalize ((server.accrue c).perform s).1 = r at hcourse
    exact {
      in_order := hcourse.in_order
      locked_first := by
        rintro before after x st rfl hx hupdate
        have hwork : (s.accrualProcedure c).work ++ [Sent.control .commit] =
            lockingWork (s.freshUuid 0) c.user ++
              [Sent.statement (.settleOrder c.number c.user c.amount),
                Sent.statement (.creditBalance c.user c.amount), Sent.control .commit] := rfl
        exact hcourse.locked_before hwork hx hupdate
      credited_behind := by
        rintro before after x user amount rfl hsent
        exact accrual_credited_behind hcourse hsent
      credited_once := accrual_credited_once hcourse
      commit_sent_iff := by
        rw [hcourse.commit_sent_iff ht, and_iff_right hreachable]
        exact forall₂_congr fun x _ => and_congr_right fun hfine => accrual_stays_iff hfine
      ok_true_iff := by
        constructor
        · rintro rfl
          cases hcourse with
          | left _ _ _ hleave => cases (accrual_leave_eq_some_iff.mp hleave).1
          | committed => exact ⟨{}, by simp⟩
        · intro hcommit
          obtain ⟨_, b, -, -, -, hvalue, rfl⟩ := hcourse.of_acknowledged hcommit
          cases hvalue
          rfl
      ok_false_iff := by
        constructor
        · rintro rfl
          cases hcourse with
          | left _ _ _ hleave =>
            exact ⟨_, [], _, {}, rfl, (accrual_leave_eq_some_iff.mp hleave).2⟩
          | committed _ _ hvalue => cases hvalue
        · rintro ⟨before, after, x, reply, ht', hnone, hsettle⟩
          exact accrual_of_returnsNone hcourse ht' hnone hsettle
      failed := accrual_failed hcourse
      whole := by
        rintro before after ⟨_, answer⟩ rfl rfl
        exact accrual_whole hcourse }

def annsCredit : Credit := ⟨"ann", "79927398713", fivePoints⟩

/-- A server that settles the order, but gives it no id. -/
def withoutOrderId : Script where
  link := .open
  replies := [.ok {}, .ok (balanceReply "ann" 0), .ok (balanceReply "ann" 0), .ok { rows := [[]] }]

/-- A server that finds no order to settle, and refuses the first roll-back. -/
def withoutOrder : Script where
  link := .open
  replies := [.ok {}, .ok (balanceReply "ann" 0), .ok (balanceReply "ann" 0)]
  refusals := [(.rollback, .error "XX000" "boom")]

/-- That the order was settled is not enough for a commit: the id of its row has to be read as
    well. That some roll-back was acknowledged is not enough for a credit to be skipped: it is the
    one that follows the missing row that counts. -/
theorem accrual_not_decided_by_rows :
    (¬ (Sent.control .commit ∈
        (withoutOrderId.conversation (server.accrue annsCredit)).map (·.sent) ↔
      withoutOrderId.isReachable = true ∧
        ∀ x ∈ withoutOrderId.transcript (withoutOrderId.accrualProcedure annsCredit).work,
          x.answer.isOk ∧ (x.sent = .statement (.balance "ann") → x.balance?.isSome) ∧
          (x.sent = .statement (.lockBalance "ann") → x.balance?.isSome) ∧
          (x.sent = .statement (.settleOrder "79927398713" "ann" fivePoints) → x.returnsRow))) ∧
    ¬ (((server.accrue annsCredit).perform withoutOrder).1 = .ok false ↔
      (∃ x ∈ withoutOrder.conversation (server.accrue annsCredit), x.returnsNone ∧
        x.sent = .statement (.settleOrder "79927398713" "ann" fivePoints)) ∧
      ∃ x ∈ withoutOrder.conversation (server.accrue annsCredit),
        x.sent = .control .rollback ∧ x.answer.isOk) := by
  decide +kernel

end Script

end LoyaltyPoints.Database
