import LoyaltyPoints.Proofs.Database.Transcript

/-! # Database: the course of a transaction

    A transaction has a procedure: what it sends one after another, if nothing comes in between.
    It is abandoned at the first exchange that fails. An answer that gives cause for it makes it
    roll back. Only behind the whole procedure it is committed.

    `tells_transaction` says that a transaction takes such a course on every script, if its body
    keeps to the procedure; `Course.commit_sent_iff` says what that is worth. -/

namespace LoyaltyPoints.Database

variable {α β : Type}

/-! ## What an answer is worth -/

/-- The first row of an answer as a record. The row has to be there. -/
def Reply.needed (read : Row → Except DatabaseError α) (r : Reply) : Except DatabaseError α :=
  match r.rows with
  | [] => .error .rowNotFound
  | row :: _ => read row

/-- The first row of an answer as a record, if there is one. -/
def Reply.first? (read : Row → Except DatabaseError α) (r : Reply) :
    Except DatabaseError (Option α) :=
  match r.rows with
  | [] => .ok none
  | row :: _ => some <$> read row

/-- The error of a reading that failed. -/
def errorOf? {ε : Type} : Except ε α → Option ε
  | .ok _ => none
  | .error e => some e

/-- Why an answer to a statement of a transaction cannot be used. Those that fetch a row have to be
    able to read it. -/
def Statement.failure? (r : Reply) : Statement → Option DatabaseError
  | .balance _ | .lockBalance _ | .debitBalance .. => errorOf? (r.needed Row.toBalance)
  | .insertWithdrawal .. => errorOf? (r.needed Row.toWithdrawal)
  | .settleOrder .. => errorOf? (r.first? Row.toOrderId)
  | _ => none

namespace Exchange

/-- Why an exchange failed, if it did. -/
def failure? (x : Exchange) : Option DatabaseError :=
  match x.answer, x.sent with
  | .error why, _ => some why.cause
  | .ok reply, .statement st => st.failure? reply
  | .ok _, _ => none

/-- The record that the first row of an answer holds. -/
def record? (read : Row → Except DatabaseError α) (x : Exchange) : Option α := do
  let reply ← x.answer.toOption
  (reply.needed read).toOption

/-- The balance that an answer brings. -/
def balance? (x : Exchange) : Option Balance := x.record? Row.toBalance

/-- The withdrawal that an answer brings. -/
def withdrawal? (x : Exchange) : Option Withdrawal := x.record? Row.toWithdrawal

/-- What has to be read has been read, unless the exchange failed. -/
theorem record?_isSome {x : Exchange} {st : Statement} {read : Row → Except DatabaseError α}
    (hsent : x.sent = .statement st) (hread : ∀ r, st.failure? r = errorOf? (r.needed read))
    (hfine : x.failure? = none) : (x.record? read).isSome := by
  obtain ⟨sent, why | reply⟩ := x
  · cases hfine
  obtain rfl : sent = .statement st := hsent
  have hneeded : errorOf? (reply.needed read) = none := (hread reply).symm.trans hfine
  show (reply.needed read).toOption.isSome
  cases hr : reply.needed read with
  | error e =>
    rw [hr] at hneeded
    cases hneeded
  | ok y => rfl

end Exchange

theorem Server.fetchOptional_eq {σ : Type} (db : Server σ) (read : Row → Except DatabaseError α)
    (x : Statement) :
    db.fetchOptional read x = db.execute x >>= fun r => ofRead (r.first? read) := by
  rw [Server.fetchOptional]
  congr 1
  funext r
  rw [Reply.first?]
  cases r.rows with
  | nil => rfl
  | cons row rows =>
    cases hread : read row with
    | error e => simp only [hread]; rfl
    | ok y => simp only [hread]; rfl

theorem Server.fetchOne_eq {σ : Type} (db : Server σ) (read : Row → Except DatabaseError α)
    (x : Statement) :
    db.fetchOne read x = db.execute x >>= fun r => ofRead (r.needed read) := by
  rw [Server.fetchOne, Server.fetchOptional_eq, bind_assoc]
  congr 1
  funext r
  rw [Reply.first?, Reply.needed]
  cases r.rows with
  | nil => rfl
  | cons row rows =>
    cases hread : read row with
    | error e => simp only [hread]; rfl
    | ok y => simp only [hread]; rfl

/-! ## Procedures -/

/-- What a transaction does if nothing comes in between. -/
structure Procedure (α : Type) where
  /-- What is sent between the beginning and the end. -/
  statements : List Statement
  /-- The result that an answer leads to, if it makes the transaction roll back. -/
  leave? : Exchange → Option (Except Fault α)
  /-- The value that the exchanges lead to. -/
  value? : List Exchange → Option α

namespace Procedure

variable (p : Procedure α)

/-- All that is sent before the end. -/
def work : List Sent := .control .begin :: p.statements.map .statement

/-- An exchange behind which the procedure goes on. -/
def Passes (x : Exchange) : Prop := x.failure? = none ∧ p.leave? x = none

/-- A roll-back after a failure is sent once at most, and its answer does not matter. -/
def GivesUp (t : List Exchange) : Prop := t = [] ∨ ∃ answer, t = [⟨.control .rollback, answer⟩]

/-- A roll-back is tried once more where it was refused. -/
def RollsBack (t : List Exchange) : Prop :=
  GivesUp t ∨ ∃ why u, GivesUp u ∧ t = ⟨.control .rollback, .error why⟩ :: u

/-- How a transaction can go. -/
inductive Course : List Exchange → Except Fault α → Prop where
  | failed {passed tail : List Exchange} {x : Exchange} {e : DatabaseError}
      (hsent : (passed ++ [x]).map (·.sent) <+: p.work ++ [Sent.control .commit])
      (hpassed : ∀ y ∈ passed, p.Passes y) (hfailed : x.failure? = some e)
      (htail : GivesUp tail) :
    Course (passed ++ x :: tail) (.error (.error (.database e)))
  | left {passed : List Exchange} {x : Exchange} {r : Except Fault α}
      (hsent : (passed ++ [x]).map (·.sent) <+: p.work) (hpassed : ∀ y ∈ passed, p.Passes y)
      (hfine : x.failure? = none) (hleave : p.leave? x = some r) :
    Course (passed ++ x :: [⟨.control .rollback, .ok {}⟩]) r
  | stuck {passed tail : List Exchange} {x : Exchange} {r : Except Fault α} {why : Refusal}
      (hsent : (passed ++ [x]).map (·.sent) <+: p.work) (hpassed : ∀ y ∈ passed, p.Passes y)
      (hfine : x.failure? = none) (hleave : p.leave? x = some r) (htail : GivesUp tail) :
    Course (passed ++ x :: ⟨.control .rollback, .error why⟩ :: tail)
      (.error (.error (.database why.cause)))
  | committed {passed : List Exchange} {y : α} (hsent : passed.map (·.sent) = p.work)
      (hpassed : ∀ y ∈ passed, p.Passes y) (hvalue : p.value? passed = some y) :
    Course (passed ++ [⟨.control .commit, .ok {}⟩]) (.ok y)

/-- How the body of a transaction can end. -/
inductive Midway : List Exchange → Except Fault (Ending α) → Prop where
  | failed {passed : List Exchange} {x : Exchange} {e : DatabaseError}
      (hsent : (passed ++ [x]).map (·.sent) <+: p.work) (hpassed : ∀ y ∈ passed, p.Passes y)
      (hfailed : x.failure? = some e) :
    Midway (passed ++ [x]) (.error (.error (.database e)))
  | left {passed : List Exchange} {x : Exchange} {r : Except Fault α}
      (hsent : (passed ++ [x]).map (·.sent) <+: p.work) (hpassed : ∀ y ∈ passed, p.Passes y)
      (hfine : x.failure? = none) (hleave : p.leave? x = some r) :
    Midway (passed ++ [x]) (.ok (.rollback r))
  | ready {passed : List Exchange} {y : α} (hsent : passed.map (·.sent) = p.work)
      (hpassed : ∀ y ∈ passed, p.Passes y) (hvalue : p.value? passed = some y) :
    Midway passed (.ok (.commit y))

end Procedure

/-- These exchanges have passed, and this is what was sent. -/
structure Procedure.Passed (p : Procedure α) (passed : List Exchange) (xs : List Sent) : Prop where
  sent : passed.map (·.sent) = xs
  passes : ∀ y ∈ passed, p.Passes y

theorem Procedure.Passed.concat {p : Procedure α} {passed : List Exchange} {xs : List Sent}
    {x : Exchange} (h : p.Passed passed xs) (hfine : x.failure? = none)
    (hstays : p.leave? x = none) : p.Passed (passed ++ [x]) (xs ++ [x.sent]) := by
  refine ⟨by rw [List.map_append, h.sent]; rfl, ?_⟩
  rw [List.forall_mem_append]
  exact ⟨h.passes, fun y hy => by rw [List.mem_singleton.mp hy]; exact ⟨hfine, hstays⟩⟩

namespace Script

open Procedure

variable {p : Procedure α} {s : Script} {n : ℕ} {passed : List Exchange} {xs : List Sent}

/-! ## Bodies -/

/-- Behind these exchanges the body keeps to the procedure. -/
def KeepsTo (p : Procedure α) (passed : List Exchange) (body : Action Script (Ending α))
    (s : Script) : Prop :=
  Tells body s (fun t e _ => p.Midway (passed ++ t) (.ok e))
    fun t f _ => p.Midway (passed ++ t) (.error f)

/-- A body keeps to its procedure if it does so behind each answer that can be used. -/
theorem keepsTo_bind {x : Statement} {read : Reply → Except DatabaseError β}
    {k : β → Action Script (Ending α)} (hs : s.Online n)
    (hread : ∀ r, x.failure? r = errorOf? (read r)) (h : p.Passed passed xs)
    (hsent : xs ++ [Sent.statement x] <+: p.work)
    (hnext : ∀ r y s', read r = .ok y → (Exchange.mk (.statement x) (.ok r)).failure? = none →
      s'.Online n → KeepsTo p (passed ++ [⟨.statement x, .ok r⟩]) (k y) s') :
    KeepsTo p passed ((server.execute x >>= fun r => ofRead (read r)) >>= k) s := by
  have hfailed : ∀ answer e, (Exchange.mk (.statement x) answer).failure? = some e →
      p.Midway (passed ++ [⟨.statement x, answer⟩]) (.error (.error (.database e))) :=
    fun answer e => .failed (by rw [List.map_append, h.sent]; exact hsent) h.passes
  refine tells_bind (tells_bind (tells_execute hs (fun r s' hs' => ?_) fun why s' => ?_))
  · have hfailure := hread r
    cases hr : read r with
    | error e =>
      rw [hr] at hfailure
      exact tells_fail (hfailed _ e hfailure)
    | ok y =>
      rw [hr] at hfailure
      refine tells_pure ?_
      obtain ⟨t, r', s'', hears, hok, herror⟩ := hnext r y s' hr hfailure hs'
      refine ⟨t, r', s'', hears, fun e he => ?_, fun f hf => ?_⟩
      · simpa using hok e he
      · simpa using herror f hf
  · exact hfailed _ _ rfl

/-- A statement whose answer is not looked at. -/
theorem keepsTo_execute {x : Statement} {k : Reply → Action Script (Ending α)} (hs : s.Online n)
    (hread : ∀ r, x.failure? r = none) (h : p.Passed passed xs)
    (hsent : xs ++ [Sent.statement x] <+: p.work)
    (hnext : ∀ r s', s'.Online n → KeepsTo p (passed ++ [⟨.statement x, .ok r⟩]) (k r) s') :
    KeepsTo p passed (server.execute x >>= k) s := by
  have hall : ∀ r, x.failure? r = errorOf? (Except.ok (ε := DatabaseError) r) := hread
  have hbody := keepsTo_bind (k := k) hs hall h hsent fun r y s' hr _ hs' => by
    cases hr
    exact hnext r s' hs'
  rwa [bind_assoc] at hbody

/-- A body that opens a balance first. -/
theorem keepsTo_openedBalance {user : String} {k : Balance → Action Script (Ending α)}
    (hs : s.Online n) (h : p.Passed passed xs)
    (hsent : xs ++ [Sent.statement (.openBalance (Uuid.ofNat (firstStamp + n)) user),
      .statement (.balance user)] <+: p.work)
    (hopens : ∀ id answer, p.leave? ⟨.statement (.openBalance id user), answer⟩ = none)
    (hfinds : ∀ answer, p.leave? ⟨.statement (.balance user), answer⟩ = none)
    (hnext : ∀ passed' b s', s'.Online (n + 1) →
      p.Passed passed' (xs ++ [Sent.statement (.openBalance (Uuid.ofNat (firstStamp + n)) user),
        .statement (.balance user)]) → KeepsTo p passed' (k b) s') :
    KeepsTo p passed (server.openedBalance user >>= k) s := by
  rw [List.append_cons] at hsent hnext
  rw [Server.openedBalance, bind_assoc]
  refine tells_bind (tells_freshId hs fun s' hs' => ?_)
  rw [bind_assoc, Server.fetchOne_eq]
  refine keepsTo_execute hs' (fun _ => rfl) h ((List.prefix_append _ _).trans hsent)
    fun r s' hs' => ?_
  have hopened := h.concat (x := ⟨_, .ok r⟩) rfl (hopens (Uuid.ofNat (firstStamp + n)) (.ok r))
  refine keepsTo_bind hs' (fun _ => rfl) hopened hsent fun r' b s' _ hfine hs' => ?_
  exact hnext _ b s' hs' (hopened.concat hfine (hfinds _))

/-- An answer that gives cause to leave makes the body roll back. -/
theorem keepsTo_leave {x : Exchange} {r : Except Fault α} (h : p.Passed passed xs)
    (hsent : xs ++ [x.sent] <+: p.work) (hfine : x.failure? = none)
    (hleave : p.leave? x = some r) :
    KeepsTo p (passed ++ [x]) (pure (.rollback r)) s := by
  refine tells_pure ?_
  rw [List.append_nil]
  exact .left (by rw [List.map_append, h.sent]; exact hsent) h.passes hfine hleave

/-- Behind the whole procedure the body is ready to be committed. -/
theorem keepsTo_commit {y : α} (h : p.Passed passed p.work) (hvalue : p.value? passed = some y) :
    KeepsTo p passed (pure (.commit y)) s := by
  refine tells_pure ?_
  rw [List.append_nil]
  exact .ready h.sent h.passes hvalue

/-! ## The whole -/

/-- A failure is reported, whatever becomes of the roll-back. -/
theorem tells_abandon_fail {e : Error} {Q : List Exchange → α → Script → Prop}
    {E : List Exchange → Fault → Script → Prop}
    (h : ∀ tail s', GivesUp tail → E tail (.error e) s') :
    Tells (abandon >>= fun _ => Action.fail e) s Q E := by
  refine tells_bind (tells_abandon (fun s' => ?_) fun answer s' => ?_)
  · exact tells_fail (h _ s' (.inl rfl))
  · exact tells_fail (h _ s' (.inr ⟨answer, rfl⟩))

/-- Without a connection nothing is sent. -/
theorem hears_transaction_unreachable (body : Action Script (Ending α))
    (h : s.isReachable = false) :
    ∃ e s', Hears (server.transaction body) s [] (.error (.error (.database e))) s' := by
  rcases hears_acquire s with ⟨hreachable, -⟩ | ⟨-, e, s', hears⟩
  · rw [h] at hreachable
    cases hreachable
  · refine ⟨e, s', ?_, hears.sent, hears.answers⟩
    show ((acquire >>= fun _ => control .begin) >>= fun _ => _).perform s = _
    rw [Action.perform_bind, Action.perform_bind, hears.perform]

/-- A transaction whose body keeps to a procedure takes a course of that procedure. -/
theorem tells_transaction {body : Action Script (Ending α)} (h : s.isReachable = true)
    (hbegin : p.leave? ⟨.control .begin, .ok {}⟩ = none)
    (hbody : ∀ passed s', s'.Online s.stamps → p.Passed passed [.control .begin] →
      KeepsTo p passed body s') :
    Tells (server.transaction body) s (fun t y _ => p.Course t (.ok y))
      fun t f _ => p.Course t (.error f) := by
  rcases hears_acquire s with ⟨-, s₁, hears, honline⟩ | ⟨hreachable, -⟩
  swap
  · rw [h] at hreachable
    cases hreachable
  rw [Server.transaction]
  refine tells_bind (tells_bind (hears.tells_ok (tells_control (fun s₂ hstays => ?_)
    fun why s₂ => ?_)))
  swap
  · exact .failed (List.prefix_append [_] _) nofun rfl (.inl rfl)
  refine tells_bind (tells_attempt (tells_bind ?_))
  have hpassed : p.Passed [⟨.control .begin, .ok {}⟩] [.control .begin] :=
    ⟨rfl, by rw [List.forall_mem_singleton]; exact ⟨rfl, hbegin⟩⟩
  obtain ⟨t, r, s₃, hears', hok, herror⟩ := hbody _ s₂ (hstays _ honline) hpassed
  -- What the body says stands behind the beginning.
  have hbegun : ∀ u, [⟨.control .begin, .ok {}⟩] ++ (t ++ u) =
      [⟨.control .begin, .ok {}⟩] ++ t ++ u := fun u => (List.append_assoc ..).symm
  dsimp only at hok herror
  generalize [⟨.control .begin, .ok {}⟩] ++ t = passed at hok herror hbegun
  refine ⟨t, r, s₃, hears', fun ending hending => ?_, fun f hf => ?_⟩
  · cases hok ending hending with
    | ready hsent hpassed hvalue =>
      refine tells_bind (tells_control (fun s₄ _ => ?_) fun why s₄ => ⟨fun e he => ?_, nofun⟩)
      · refine tells_pure (tells_pure ?_)
        simp only [List.nil_append, List.append_nil, hbegun]
        exact .committed hsent hpassed hvalue
      · cases he
        refine tells_abandon_fail fun tail s₅ htail => ?_
        simp only [List.nil_append, List.append_assoc, hbegun]
        exact .failed (by rw [List.map_append, hsent]; rfl) hpassed rfl htail
    | @left before x r' hsent hpassed hfine hleave =>
      refine tells_bind (tells_control (fun s₄ _ => ?_) fun why s₄ => ⟨fun e he => ?_, nofun⟩)
      · refine tells_pure ?_
        have hcourse := Course.left hsent hpassed hfine hleave
        cases r' with
        | ok y =>
          refine tells_pure ?_
          simp only [List.nil_append, List.append_nil, hbegun]
          simpa using hcourse
        | error f =>
          refine (hears_silent rfl rfl rfl).tells_error ?_
          simp only [List.nil_append, List.append_nil, hbegun]
          simpa using hcourse
      · cases he
        refine tells_abandon_fail fun tail s₅ htail => ?_
        simp only [List.nil_append, List.append_assoc, hbegun]
        exact .stuck hsent hpassed hfine hleave htail
  · cases herror f hf with
    | failed hsent hpassed hfailed =>
      refine ⟨fun e he => ?_, nofun⟩
      cases he
      refine tells_abandon_fail fun tail s₅ htail => ?_
      simp only [List.nil_append, List.append_assoc, hbegun]
      exact .failed (hsent.trans (List.prefix_append ..)) hpassed hfailed htail

/-- What an action that takes a course says to a script, and how it ends. -/
theorem Tells.course {a : Action Script α}
    (h : Tells a s (fun t y _ => p.Course t (.ok y)) fun t f _ => p.Course t (.error f)) :
    p.Course (s.conversation a) (a.perform s).1 ∧
      s.transcript ((s.conversation a).map (·.sent)) = s.conversation a := by
  obtain ⟨t, r, s', hears, hok, herror⟩ := h
  rw [hears.conversation_eq, hears.perform]
  refine ⟨?_, hears.transcript_eq⟩
  cases r with
  | ok y => exact hok y rfl
  | error f => exact herror f rfl

end Script

/-! ## What a course is worth -/

/-- The server acknowledged this. -/
def Acknowledged (c : Control) (t : List Exchange) : Prop :=
  ∃ reply, ⟨.control c, .ok reply⟩ ∈ t

namespace Procedure

variable {p : Procedure α} {t : List Exchange} {r : Except Fault α}

theorem control_not_mem_work {c : Control} (h : c ≠ .begin) : Sent.control c ∉ p.work := by
  simp [work, h]

theorem RollsBack.sent_eq (h : RollsBack t) : ∀ y ∈ t, y.sent = .control .rollback := by
  rcases h with (rfl | ⟨answer, rfl⟩) | ⟨why, u, (rfl | ⟨answer, rfl⟩), rfl⟩ <;> simp

/-- What has passed comes first, then the exchange that the course was decided at, then
    roll-backs. -/
structure Shape (p : Procedure α) (t passed : List Exchange) (x : Exchange)
    (tail : List Exchange) : Prop where
  eq : t = passed ++ x :: tail
  sent : (passed ++ [x]).map (·.sent) <+: p.work ++ [Sent.control .commit]
  passed : ∀ y ∈ passed, p.Passes y
  tail : RollsBack tail

theorem Course.shape (h : p.Course t r) : ∃ passed x tail, p.Shape t passed x tail := by
  cases h with
  | failed hsent hpassed _ htail => exact ⟨_, _, _, rfl, hsent, hpassed, .inl htail⟩
  | left hsent hpassed _ _ =>
    exact ⟨_, _, _, rfl, hsent.trans (List.prefix_append _ _), hpassed, .inl (.inr ⟨_, rfl⟩)⟩
  | stuck hsent hpassed _ _ htail =>
    exact ⟨_, _, _, rfl, hsent.trans (List.prefix_append _ _), hpassed, .inr ⟨_, _, htail, rfl⟩⟩
  | committed hsent hpassed _ =>
    refine ⟨_, _, [], rfl, ?_, hpassed, .inl (.inl rfl)⟩
    rw [List.map_append, hsent]
    exact List.prefix_rfl

/-- What is sent is the procedure, as far as it goes. -/
theorem Course.in_order (h : p.Course t r) : ∃ front back, t = front ++ back ∧
    front.map (·.sent) <+: p.work ++ [Sent.control .commit] ∧ RollsBack back := by
  obtain ⟨passed, x, tail, hshape⟩ := h.shape
  exact ⟨passed ++ [x], tail, by simp [hshape.eq], hshape.sent, hshape.tail⟩

/-- What stands before anything but a roll-back has passed. -/
theorem Course.passed_before {before after : List Exchange} {x : Exchange}
    (h : p.Course (before ++ x :: after) r) (hx : x.sent ≠ .control .rollback) :
    before.map (·.sent) ++ [x.sent] <+: p.work ++ [Sent.control .commit] ∧
      ∀ y ∈ before, p.Passes y := by
  obtain ⟨passed, x', tail, heq, hsent, hpassed, htail⟩ := h.shape
  have hle : before ++ [x] <+: passed ++ [x'] := by
    have hleft : before ++ [x] <+: before ++ x :: after := ⟨after, by simp⟩
    have hright : passed ++ [x'] <+: before ++ x :: after := ⟨tail, by simp [heq]⟩
    refine (List.prefix_or_prefix_of_prefix hleft hright).elim id fun hle => ?_
    rcases List.prefix_concat_iff.mp hle with heq' | ⟨zs, rfl⟩
    · exact heq' ▸ List.prefix_rfl
    -- Otherwise it would stand among the roll-backs.
    · refine absurd (htail.sent_eq x ?_) hx
      rw [List.append_assoc, List.append_assoc, List.append_cancel_left_eq] at heq
      obtain ⟨-, rfl⟩ := List.cons.inj heq
      simp
  refine ⟨by simpa using (hle.map (·.sent)).trans hsent, fun y hy => hpassed y ?_⟩
  rcases List.prefix_concat_iff.mp hle with heq' | hle
  · rwa [← (List.append_inj' heq' rfl).1]
  · exact hle.subset (List.mem_append_left _ hy)

/-- Before a part of the procedure comes all that stands before it. -/
theorem Course.sent_before {before after : List Exchange} {x : Exchange} {front back : List Sent}
    (h : p.Course (before ++ x :: after) r) (hx : x.sent ≠ .control .rollback)
    (hwork : p.work ++ [Sent.control .commit] = front ++ back) (hfront : x.sent ∉ front) :
    ∀ st ∈ front, ∃ y ∈ before, y.sent = st ∧ p.Passes y := by
  obtain ⟨hsent, hpassed⟩ := h.passed_before hx
  rw [hwork] at hsent
  have hle : front <+: before.map (·.sent) := by
    rcases List.prefix_or_prefix_of_prefix hsent (List.prefix_append front back) with hle | hle
    · exact absurd (hle.subset (List.mem_append_right _ (List.mem_singleton_self _))) hfront
    · rcases List.prefix_concat_iff.mp hle with rfl | hle
      · simp at hfront
      · exact hle
  intro st hst
  obtain ⟨y, hy, rfl⟩ := List.mem_map.mp (hle.subset hst)
  exact ⟨y, hy, rfl, hpassed y hy⟩

/-- A commit is sent behind the whole procedure only. -/
theorem Course.passed_before_commit {before after : List Exchange} {answer : Response}
    (h : p.Course (before ++ ⟨.control .commit, answer⟩ :: after) r) :
    before.map (·.sent) = p.work ∧ ∀ y ∈ before, p.Passes y := by
  obtain ⟨hsent, hpassed⟩ := h.passed_before (by simp)
  refine ⟨?_, hpassed⟩
  rcases List.prefix_concat_iff.mp hsent with heq | hle
  · exact (List.append_inj' heq rfl).1
  · refine absurd (hle.subset (List.mem_append_right _ (List.mem_singleton_self _))) ?_
    exact p.control_not_mem_work (by decide)

/-- Whether a commit is sent stands in the script. -/
theorem Course.commit_sent_iff {s : Script} (h : p.Course t r)
    (ht : s.transcript (t.map (·.sent)) = t) :
    Sent.control .commit ∈ t.map (·.sent) ↔ ∀ x ∈ s.transcript p.work, p.Passes x := by
  constructor
  · intro hmem
    obtain ⟨⟨_, answer⟩, hcommit, rfl⟩ := List.mem_map.mp hmem
    obtain ⟨before, after, rfl⟩ := List.append_of_mem hcommit
    obtain ⟨hsent, hpassed⟩ := h.passed_before_commit
    have hbefore := Script.Rest.transcript_of_prefix ht (List.prefix_append before _)
    rw [hsent] at hbefore
    rw [Script.transcript, hbefore]
    exact hpassed
  · intro hall
    -- Whatever else the course was decided at would be among the answers to the procedure.
    have hpasses : ∀ {before : List Exchange} {x : Exchange} {after : List Exchange},
        t = before ++ x :: after → (before ++ [x]).map (·.sent) <+: p.work → p.Passes x := by
      rintro before x after rfl hsent
      have hle : before ++ [x] <+: before ++ x :: after := ⟨after, by simp⟩
      have hbefore := Script.Rest.transcript_of_prefix ht hle
      refine hall x ((s.rest.transcript_prefix hsent).subset ?_)
      rw [hbefore]
      simp
    cases h with
    | failed hsent hpassed hfailed htail =>
      rcases List.prefix_concat_iff.mp hsent with heq | hle
      · rw [List.append_cons, List.map_append, heq]
        simp
      · rw [(hpasses rfl hle).1] at hfailed
        cases hfailed
    | left hsent hpassed hfine hleave =>
      rw [(hpasses rfl hsent).2] at hleave
      cases hleave
    | stuck hsent hpassed hfine hleave htail =>
      rw [(hpasses rfl hsent).2] at hleave
      cases hleave
    | committed hsent hpassed hvalue => simp

/-- Behind a commit that was acknowledged stands the whole procedure, and its value. -/
theorem Course.of_acknowledged (h : p.Course t r) (hcommit : Acknowledged .commit t) :
    ∃ passed y, t = passed ++ [⟨.control .commit, .ok {}⟩] ∧ passed.map (·.sent) = p.work ∧
      (∀ x ∈ passed, p.Passes x) ∧ p.value? passed = some y ∧ r = .ok y := by
  obtain ⟨reply, hmem⟩ := hcommit
  have habsent : ∀ {u : List Exchange}, u.map (·.sent) <+: p.work →
      ⟨.control .commit, .ok reply⟩ ∉ u := fun hsent hmem =>
    p.control_not_mem_work (by decide) (hsent.subset (List.mem_map_of_mem hmem))
  cases h with
  | @failed passed tail x e hsent hpassed hfailed htail =>
    rw [List.map_append] at hsent
    rcases List.mem_append.mp hmem with hmem | hmem
    · rcases List.prefix_concat_iff.mp hsent with heq | hle
      · exact absurd hmem (habsent ((List.append_inj' heq rfl).1 ▸ List.prefix_rfl))
      · exact absurd hmem (habsent ((List.prefix_append _ _).trans hle))
    rcases List.mem_cons.mp hmem with rfl | hmem
    · cases hfailed
    · cases RollsBack.sent_eq (.inl htail) _ hmem
  | left hsent hpassed hfine hleave =>
    rw [List.append_cons, List.mem_append] at hmem
    rcases hmem with hmem | hmem
    · exact absurd hmem (habsent hsent)
    · simp at hmem
  | stuck hsent hpassed hfine hleave htail =>
    rw [List.append_cons, List.mem_append, List.mem_cons] at hmem
    rcases hmem with hmem | hmem | hmem
    · exact absurd hmem (habsent hsent)
    · cases hmem
    · cases RollsBack.sent_eq (.inl htail) _ hmem
  | committed hsent hpassed hvalue => exact ⟨_, _, rfl, hsent, hpassed, hvalue, rfl⟩

end Procedure

end LoyaltyPoints.Database
