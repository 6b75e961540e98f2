import LoyaltyPoints.Proofs.Ledger.Operation
import LoyaltyPoints.Proofs.Pipeline.Worker

/-! # Pipeline: all parties as one transition system

    Clients, workers and the sweeper share a ledger and the two queues. Each of them goes from one
    phase to the next by the step functions that are run, and the parties take turns in any order:
    a label says whose turn it is, and what the world outside did, such as the oracle's answer.

    Two facts about a step are all that later modules use. It leaves the ledger alone or makes one
    call of it (`Step.book_eq`), and the credits under way after it were under way before, but for
    one that the oracle has just granted (`Step.carries`). -/

namespace LoyaltyPoints

open LedgerState (storeOf)

/-! ## State and labels -/

/-- A client who submits an order. -/
structure Client where
  user : String
  number : String
  phase : Submission.Phase

/-- The parties, the queues and the ledger. -/
structure System where
  book : LedgerState := {}
  flow : Flow
  clients : List Client := []
  /-- The orders that a sweep has listed. Each of them may be offered to the intake at any time. -/
  listed : List Order := []
  routers : List Router
  settlers : List Settler
  stopping : Bool := false

/-- What happens. The number of a client or a worker says which of them acts. -/
inductive Label where
  | submit (user number : String)
  /-- A client takes the next step of its submission on the ledger. -/
  | submission (i : ℕ)
  /-- A client gives its stored order to the intake. -/
  | register (i : ℕ)
  | withdraw (user number : String) (amount : Decimal)
  /-- The sweeper lists pending orders. -/
  | list (after : Option Position) (limit : ℤ)
  /-- The sweeper gives an order that it has listed to the intake. -/
  | offer (o : Order)
  | receiveOrder (i : ℕ)
  /-- The oracle answers a worker, who routes its order. -/
  | answer (i : ℕ) (answer : Except Error Oracle.Answer)
  | forward (i : ℕ)
  | receiveCredit (i : ℕ)
  | settle (i : ℕ)
  | stop

namespace System

/-- A system at the start; there is one worker of each stage at least. -/
def start (capacity routers settlers : ℕ) : System where
  flow := .ofCapacity capacity
  routers := List.replicate (max routers 1) .idle
  settlers := List.replicate (max settlers 1) .idle

/-- One step. Who has to wait on takes none. -/
inductive Step (supply : ℕ → Stamp) (s : System) : Label → System → Prop where
  | submit (user number : String) :
    Step supply s (.submit user number)
      { s with clients := s.clients ++ [⟨user, number, Submission.start number⟩] }
  | submission {i : ℕ} {c : Client} {phase : Submission.Phase} {book : LedgerState}
      (hclient : s.clients[i]? = some c)
      (hstep : Submission.step (storeOf supply) c.user c.number c.phase s.book = (phase, book)) :
    Step supply s (.submission i) { s with book, clients := s.clients.set i { c with phase } }
  | register {i : ℕ} {c : Client} {o : Order} {q : Queue Order}
      (hclient : s.clients[i]? = some c) (hphase : c.phase = .register o)
      (hoffer : s.flow.intake.offer o = .taken q) :
    Step supply s (.register i) { s with
      flow := { s.flow with intake := q }
      clients := s.clients.set i { c with phase := .done (.ok o) } }
  | withdraw (user number : String) (amount : Decimal) :
    Step supply s (.withdraw user number amount) { s with
      book := ((LoyaltyPoints.withdraw (storeOf supply) user number amount).perform s.book).2 }
  | list (after : Option Position) (limit : ℤ) :
    Step supply s (.list after limit)
      { s with listed := s.listed ++ s.book.ledger.pendingOrders after limit }
  | offer {o : Order} {q : Queue Order} (hlisted : o ∈ s.listed)
      (hoffer : s.flow.intake.offer o = .taken q) :
    Step supply s (.offer o) { s with flow := { s.flow with intake := q } }
  | receiveOrder {i : ℕ} {r : Router} {flow : Flow} (hrouter : s.routers[i]? = some .idle)
      (hreceive : Router.receive s.stopping s.flow = some (r, flow)) :
    Step supply s (.receiveOrder i) { s with flow, routers := s.routers.set i r }
  | answer {i : ℕ} {o : Order} {answer : Except Error Oracle.Answer} {r : Except Fault Route}
      {book : LedgerState} (hrouter : s.routers[i]? = some (.asking o))
      (hroute : (Route.ofAnswer (storeOf supply) o answer).perform s.book = (r, book)) :
    Step supply s (.answer i answer)
      { s with book, routers := s.routers.set i (.afterRoute (r.toOption.getD .storeFailed)) }
  | forward {i : ℕ} {c : Credit} {r : Router} {flow : Flow}
      (hrouter : s.routers[i]? = some (.holding c))
      (hforward : Router.forward s.stopping c s.flow = some (r, flow)) :
    Step supply s (.forward i) { s with flow, routers := s.routers.set i r }
  | receiveCredit {i : ℕ} {r : Settler} {flow : Flow} (hsettler : s.settlers[i]? = some .idle)
      (hreceive : Settler.receive s.stopping s.flow = some (r, flow)) :
    Step supply s (.receiveCredit i) { s with flow, settlers := s.settlers.set i r }
  | settle {i : ℕ} {c : Credit} {r : Except Fault Settlement} {book : LedgerState}
      (hsettler : s.settlers[i]? = some (.applying c))
      (hsettle : (Settlement.apply (storeOf supply) c).perform s.book = (r, book)) :
    Step supply s (.settle i) { s with book, settlers := s.settlers.set i (.afterApply r) }
  | stop : Step supply s .stop { s with stopping := true }

/-- A run, with its labels, the first one first. -/
inductive Runs (supply : ℕ → Stamp) (s : System) : List Label → System → Prop where
  | nil : Runs supply s [] s
  | snoc {ls : List Label} {l : Label} {t u : System} (hrun : Runs supply s ls t)
      (hstep : Step supply t l u) : Runs supply s (ls ++ [l]) u

/-- A run that begins with a step. -/
theorem Runs.cons {supply : ℕ → Stamp} {s t u : System} {l : Label} {ls : List Label}
    (hstep : Step supply s l t) (hrun : Runs supply t ls u) : Runs supply s (l :: ls) u := by
  induction hrun with
  | nil => exact .snoc .nil hstep
  | snoc hrun hlast ih => exact .snoc ih hlast

/-! ## The ledger in a step -/

/-- The call of the ledger that a step can make. -/
inductive Calls (s : System) : Label → Operation → Prop where
  | look {i : ℕ} {c : Client} (hclient : s.clients[i]? = some c) :
    Calls s (.submission i) (.orderByNumber c.number)
  | store {i : ℕ} {c : Client} (hclient : s.clients[i]? = some c) :
    Calls s (.submission i) (.createOrder c.user c.number)
  | withdraw (user number : String) (amount : Decimal) :
    Calls s (.withdraw user number amount) (.withdraw user number amount)
  | markProcessing {i : ℕ} {o : Order} {a : Oracle.Answer}
      (hrouter : s.routers[i]? = some (.asking o)) (hstatus : a.status = .processing) :
    Calls s (.answer i (.ok a)) (.markOrders [o.id] .processing)
  | markInvalid {i : ℕ} {o : Order} {a : Oracle.Answer}
      (hrouter : s.routers[i]? = some (.asking o)) (hstatus : a.status = .invalid) :
    Calls s (.answer i (.ok a)) (.markOrders [o.id] .invalid)
  | credit {i : ℕ} {c : Credit} (hsettler : s.settlers[i]? = some (.applying c)) :
    Calls s (.settle i) (.accrue c)

end System

section calls

variable {σ : Type} (store : Store σ) (s : σ)

theorem Action.perform_attempt_snd {α : Type} (a : Action σ α) :
    (a.attempt.perform s).2 = (a.perform s).2 := by
  rw [Action.attempt, Action.perform_ofFun]
  rcases a.perform s with ⟨(e | o) | x, t⟩ <;> rfl

/-- A submission looks up its number, stores its order, or leaves the store alone. -/
theorem Submission.step_snd (user number : String) (phase : Submission.Phase) :
    (Submission.step store user number phase s).2 = s ∨
      (Submission.step store user number phase s).2 = ((store.orderByNumber number).perform s).2 ∨
      (Submission.step store user number phase s).2 =
        ((store.createOrder user number).perform s).2 := by
  cases phase with
  | lookUp =>
    refine .inr (.inl ?_)
    simp only [Submission.step]
    rcases (store.orderByNumber number).perform s with ⟨e | (_ | o), t⟩ <;> rfl
  | insert =>
    refine .inr (.inr ?_)
    simp only [Submission.step]
    rcases (store.createOrder user number).perform s with ⟨e | o, t⟩
    · split <;> simp_all
    · rfl
  | reread =>
    refine .inr (.inl ?_)
    simp only [Submission.step]
    rcases (store.orderByNumber number).perform s with ⟨e | (_ | o), t⟩ <;> rfl
  | register o => exact .inl rfl
  | done r => exact .inl rfl

theorem Route.perform_mark_snd (o : Order) (status : OrderStatus) (route : Route) :
    ((Route.mark store o status route).perform s).2 =
      ((store.markOrders [o.id] status).perform s).2 := by
  rw [Route.mark, Action.perform_bind, ← Action.perform_attempt_snd]
  rcases ((store.markOrders [o.id] status).attempt).perform s with ⟨f | (e | n), t⟩ <;> rfl

theorem Settlement.perform_apply_snd (c : Credit) :
    ((Settlement.apply store c).perform s).2 = ((store.accrue c).perform s).2 := by
  rw [Settlement.apply, Action.perform_bind, ← Action.perform_attempt_snd]
  rcases ((store.accrue c).attempt).perform s with ⟨f | (e | (_ | _)), t⟩ <;> rfl

/-- The credit of a route comes from a `PROCESSED` answer, by its points. -/
theorem Route.ofAnswer_eq_accrue {o : Order} {answer : Except Error Oracle.Answer} {c : Credit}
    (h : ((Route.ofAnswer store o answer).perform s).1 = .ok (.accrue c)) :
    ∃ a, answer = .ok a ∧ a.status = .processed ∧
      c = Credit.forOrder o (a.accrual.getD .zero) := by
  have hmark : ∀ status route, route ≠ Route.accrue c →
      ((Route.mark store o status route).perform s).1 ≠ .ok (.accrue c) := by
    intro status route hroute
    rw [Route.mark, Action.perform_bind]
    rcases ((store.markOrders [o.id] status).attempt).perform s with ⟨f | (e | n), t⟩
    · simp
    · simp
    · simpa using hroute
  cases answer with
  | error e => simp [Route.ofAnswer] at h
  | ok a =>
    refine ⟨a, rfl, ?_⟩
    cases hstatus : a.status with
    | processed =>
      refine ⟨rfl, ?_⟩
      simp only [Route.ofAnswer, hstatus, Action.perform_pure, Except.ok.injEq,
        Route.accrue.injEq] at h
      exact h.symm
    | processing =>
      simp only [Route.ofAnswer, hstatus] at h
      exact absurd h (hmark _ _ (by simp))
    | invalid =>
      simp only [Route.ofAnswer, hstatus] at h
      exact absurd h (hmark _ _ (by simp))
    | registered => simp [Route.ofAnswer, hstatus] at h
    | unknown => simp [Route.ofAnswer, hstatus] at h

end calls

namespace System

variable {supply : ℕ → Stamp} {s t : System} {l : Label}

/-- A step leaves the ledger alone, or makes one call of it. -/
theorem Step.book_eq (h : Step supply s l t) :
    t.book = s.book ∨
      ∃ op, Calls s l op ∧ t.book = (op.perform (storeOf supply) s.book).2 := by
  cases h with
  | submit => exact .inl rfl
  | submission hclient hstep =>
    rename_i i c phase book
    have hbook : book = (Submission.step (storeOf supply) c.user c.number c.phase s.book).2 := by
      rw [hstep]
    rcases Submission.step_snd (storeOf supply) s.book c.user c.number c.phase with h | h | h
    · exact .inl (hbook.trans h)
    · exact .inr ⟨_, .look hclient, hbook.trans h⟩
    · exact .inr ⟨_, .store hclient, hbook.trans h⟩
  | register => exact .inl rfl
  | withdraw user number amount => exact .inr ⟨_, .withdraw user number amount, rfl⟩
  | list => exact .inl rfl
  | offer => exact .inl rfl
  | receiveOrder => exact .inl rfl
  | answer hrouter hroute =>
    rename_i i o answer r book
    have hbook : book = ((Route.ofAnswer (storeOf supply) o answer).perform s.book).2 := by
      rw [hroute]
    cases answer with
    | error e => exact .inl hbook
    | ok a =>
      unfold Route.ofAnswer at hbook
      cases hstatus : a.status with
      | processed =>
        simp only [hstatus] at hbook
        exact .inl hbook
      | processing =>
        simp only [hstatus, Route.perform_mark_snd] at hbook
        exact .inr ⟨_, .markProcessing hrouter hstatus, hbook⟩
      | invalid =>
        simp only [hstatus, Route.perform_mark_snd] at hbook
        exact .inr ⟨_, .markInvalid hrouter hstatus, hbook⟩
      | registered =>
        simp only [hstatus] at hbook
        exact .inl hbook
      | unknown =>
        simp only [hstatus] at hbook
        exact .inl hbook
  | forward => exact .inl rfl
  | receiveCredit => exact .inl rfl
  | settle hsettler hsettle =>
    rename_i i c r book
    have hbook : book = ((Settlement.apply (storeOf supply) c).perform s.book).2 := by
      rw [hsettle]
    rw [Settlement.perform_apply_snd] at hbook
    exact .inr ⟨_, .credit hsettler, hbook⟩
  | stop => exact .inl rfl

/-! ## Credits under way -/

/-- Whether a credit is under way: a worker has it, or the second queue. -/
def Carries (s : System) (c : Credit) : Prop :=
  Router.holding c ∈ s.routers ∨ c ∈ s.flow.processing.items ∨ Settler.applying c ∈ s.settlers

/-- Whether a step is an answer of the oracle that grants a credit. -/
def Grants (s : System) (l : Label) (c : Credit) : Prop :=
  ∃ i o a, l = .answer i (.ok a) ∧ s.routers[i]? = some (.asking o) ∧ a.status = .processed ∧
    c = Credit.forOrder o (a.accrual.getD .zero)

section carries

variable {i : ℕ} {c : Credit} {flow : Flow} {book : LedgerState}

/-- A worker of the first stage that turns to something else brings no credit under way. -/
theorem Carries.of_set_router {r : Router} (hr : r ≠ .holding c)
    (hc : Carries { s with routers := s.routers.set i r } c) : s.Carries c := by
  rcases hc with hc | hc
  · rcases List.mem_or_eq_of_mem_set hc with hc | hc
    · exact .inl hc
    · exact absurd hc.symm hr
  · exact .inr hc

/-- A worker of the second stage that turns to something else brings no credit under way. -/
theorem Carries.of_set_settler {r : Settler} (hr : r ≠ .applying c)
    (hc : Carries { s with settlers := s.settlers.set i r } c) : s.Carries c := by
  rcases hc with hc | hc | hc
  · exact .inl hc
  · exact .inr (.inl hc)
  · rcases List.mem_or_eq_of_mem_set hc with hc | hc
    · exact .inr (.inr hc)
    · exact absurd hc.symm hr

theorem carries_of_receiveOrder {r : Router}
    (hreceive : Router.receive s.stopping s.flow = some (r, flow))
    (hc : Carries { s with flow, routers := s.routers.set i r } c) : s.Carries c := by
  rcases Router.receive_cases hreceive with ⟨rfl, rfl, -⟩ | ⟨o, os, rfl, -, -, rfl⟩
  · exact .of_set_router (by simp) hc
  · exact .of_set_router (by simp) hc

/-- A worker that has just come to a credit has it from the answer. -/
theorem carries_of_answer {o : Order} {answer : Except Error Oracle.Answer} {r : Except Fault Route}
    (hrouter : s.routers[i]? = some (.asking o))
    (hroute : (Route.ofAnswer (storeOf supply) o answer).perform s.book = (r, book))
    (hc : Carries { s with
      book, routers := s.routers.set i (.afterRoute (r.toOption.getD .storeFailed)) } c) :
    s.Carries c ∨ s.Grants (.answer i answer) c := by
  rcases hc with hc | hc
  · rcases List.mem_or_eq_of_mem_set hc with hc | hc
    · exact .inl (.inl hc)
    · -- No other route leads to a credit.
      have hr := Router.eq_accrue_of_afterRoute hc.symm
      obtain ⟨a, rfl, hstatus, hcredit⟩ :=
        Route.ofAnswer_eq_accrue (storeOf supply) s.book (by rw [hroute, hr])
      exact .inr ⟨i, o, a, rfl, hrouter, hstatus, hcredit⟩
  · exact .inl (.inr hc)

/-- A credit that is forwarded was in the hands of the worker. -/
theorem carries_of_forward {d : Credit} {r : Router} (hrouter : s.routers[i]? = some (.holding d))
    (hforward : Router.forward s.stopping d s.flow = some (r, flow))
    (hc : Carries { s with flow, routers := s.routers.set i r } c) : s.Carries c := by
  rcases Router.forward_cases hforward with ⟨rfl, rfl, -⟩ | ⟨rfl, -, -, rfl⟩
  · exact .of_set_router (by simp) hc
  · rcases hc with hc | hc | hc
    · rcases List.mem_or_eq_of_mem_set hc with hc | hc
      · exact .inl hc
      · cases hc
    · rcases List.mem_append.mp hc with hc | hc
      · exact .inr (.inl hc)
      · rw [List.mem_singleton.mp hc]
        exact .inl (List.mem_of_getElem? hrouter)
    · exact .inr (.inr hc)

/-- A credit that is received was the first one of the queue. -/
theorem carries_of_receiveCredit {r : Settler}
    (hreceive : Settler.receive s.stopping s.flow = some (r, flow))
    (hc : Carries { s with flow, settlers := s.settlers.set i r } c) : s.Carries c := by
  rcases Settler.receive_cases hreceive with ⟨rfl, rfl, -⟩ | ⟨d, cs, rfl, -, hitems, rfl⟩
  · exact .of_set_settler (by simp) hc
  · rcases hc with hc | hc | hc
    · exact .inl hc
    · exact .inr (.inl (hitems ▸ List.mem_cons_of_mem d hc))
    · rcases List.mem_or_eq_of_mem_set hc with hc | hc
      · exact .inr (.inr hc)
      · cases hc
        exact .inr (.inl (hitems ▸ List.mem_cons_self))

end carries

/-- The credits under way after a step were so before, but for one that it grants. -/
theorem Step.carries (h : Step supply s l t) {c : Credit} (hc : t.Carries c) :
    s.Carries c ∨ s.Grants l c := by
  cases h with
  | receiveOrder hrouter hreceive => exact .inl (carries_of_receiveOrder hreceive hc)
  | answer hrouter hroute => exact carries_of_answer hrouter hroute hc
  | forward hrouter hforward => exact .inl (carries_of_forward hrouter hforward hc)
  | receiveCredit hsettler hreceive => exact .inl (carries_of_receiveCredit hreceive hc)
  | settle hsettler hsettle =>
    exact .inl (.of_set_settler (Settler.afterApply_ne_applying _ c) hc)
  | _ => exact .inl hc

end System

end LoyaltyPoints
