import LoyaltyPoints.Proofs.Pipeline.Sweeping
import LoyaltyPoints.Proofs.Submission.Race

/-! # Pipeline: the history of a run

    What the oracle has said and what the workers have done is not written down anywhere in a
    system. A history keeps each step together with the system in which it was taken, and these
    facts are read off it: which answers there were for a number, and which credits were applied.

    Beside `Step.carries`, which is about credits, two more facts about a step are shown here. The
    orders under way are those of the ledger (`Step.holds`), and an order of the ledger is as it
    was, or fresh, or what a mark or a credit has made of it (`Step.origin`). -/

namespace LoyaltyPoints

/-! ## Orders behind a call -/

namespace Ledger

theorem mem_settled {c : Credit} {o o' : Order} {l : Ledger}
    (ho : l.orderByNumber c.number = some o) (h : o' ∈ (l.settled c).orders) :
    o' ∈ l.orders ∨ o' = settledBy c o := by
  obtain ⟨before, after, hos, hsettled⟩ := settled_orders ho
  rw [hsettled] at h
  rw [hos]
  simp only [List.mem_append, List.mem_cons] at h ⊢
  tauto

/-- Where an order that a call leaves behind comes from. -/
inductive Origin (l : Ledger) : Operation → Order → Prop where
  | kept {op : Operation} {o : Order} (ho : o ∈ l.orders) : Origin l op o
  | fresh {op : Operation} {user number : String} (hop : op.Stores user number) (s : Stamp) :
      Origin l op (Order.submitted s.recordId user number s.now)
  | marked {ids : List Uuid} {status : OrderStatus} {o : Order} (ho : o ∈ l.orders)
      (hm : isMarked ids status o = true) : Origin l (.markOrders ids status) { o with status }
  | settled {c : Credit} {o : Order} (ho : l.orderByNumber c.number = some o)
      (hs : settles c o = true) : Origin l (.accrue c) (settledBy c o)

theorem Effect.origin {l l' : Ledger} {op : Operation} {answer : Except Fault Reply}
    (h : Effect l op answer l') {o : Order} (ho : o ∈ l'.orders) : Origin l op o := by
  cases h with
  | quiet => exact .kept ho
  | opened s user =>
    rw [openBalance_orders] at ho
    exact .kept ho
  | stored s user number hop =>
    rcases List.mem_append.mp ho with ho | ho
    · exact .kept ho
    · rw [List.mem_singleton.mp ho]
      exact .fresh hop s
  | marked ids status =>
    obtain ⟨x, hx, rfl⟩ := List.mem_map.mp ho
    split
    · next hm => exact .marked hx hm
    · exact .kept hx
  | credited s c x sum hx hs =>
    rw [credited_orders] at ho
    rcases mem_settled hx ho with ho | rfl
    · exact .kept ho
    · exact .settled hx hs
  | creditLost s c x e hx hs =>
    rw [openBalance_orders] at ho
    rcases mem_settled hx ho with ho | rfl
    · exact .kept ho
    · exact .settled hx hs
  | paid =>
    rw [paid_orders] at ho
    exact .kept ho
  | restLost =>
    rw [openBalance_orders] at ho
    exact .kept ho
  | sumLost =>
    rw [withBalance_orders] at ho
    exact .kept ho

/-- The points of a user after a call: as they were, or raised by a credit of the user's, or
    lowered by a debit. -/
theorem Effect.points {l l' : Ledger} {op : Operation} {answer : Except Fault Reply}
    (h : Effect l op answer l') (user : String) :
    (l'.current user = l.current user ∧ l'.withdrawn user = l.withdrawn user) ∨
    (∃ c, op = .accrue c ∧ c.user = user ∧ (l.current user).add c.amount = .ok (l'.current user) ∧
      l'.withdrawn user = l.withdrawn user) ∨
    (∃ number amount, op.Debits user number amount ∧
      (l.current user).sub amount = .ok (l'.current user)) := by
  cases h with
  | quiet => exact .inl ⟨rfl, rfl⟩
  | opened => exact .inl ⟨by simp, by simp⟩
  | stored => exact .inl ⟨rfl, rfl⟩
  | marked => exact .inl ⟨rfl, rfl⟩
  | credited s c o sum ho hs hadd =>
    by_cases hc : c.user = user
    · subst hc
      refine .inr (.inl ⟨c, rfl, rfl, ?_, by simp⟩)
      rw [current_credited, if_pos rfl, hadd]
    · refine .inl ⟨?_, by simp⟩
      rw [current_credited, if_neg (Ne.symm hc)]
  | creditLost => exact .inl ⟨by simp, by simp⟩
  | paid s u number amount rest sum hop hle hsub hadd =>
    by_cases hu : u = user
    · subst hu
      refine .inr (.inr ⟨number, amount, hop, ?_⟩)
      rw [current_paid, if_pos rfl, hsub]
    · rw [current_paid, withdrawn_paid, if_neg (Ne.symm hu), if_neg (Ne.symm hu)]
      exact .inl ⟨rfl, rfl⟩
  | restLost => exact .inl ⟨by simp, by simp⟩
  | sumLost s u number amount rest e hop hle hsub hadd =>
    have huser := openBalance_user s u l
    by_cases hu : u = user
    · subst hu
      refine .inr (.inr ⟨number, amount, hop, ?_⟩)
      rw [current_withBalance huser, if_pos rfl, hsub]
    · rw [current_withBalance huser, withdrawn_withBalance huser, if_neg (Ne.symm hu),
        if_neg (Ne.symm hu)]
      exact .inl ⟨rfl, rfl⟩

end Ledger

/-! ## Orders under way -/

/-- A client comes by an order when the ledger has stored it. -/
theorem Submission.stored?_of_step {supply : ℕ → Stamp} {user number : String}
    {phase phase' : Phase} {book book' : LedgerState}
    (h : step (LedgerState.storeOf supply) user number phase book = (phase', book')) {o : Order}
    (ho : phase'.stored? = some o) : phase.stored? = some o ∨ o ∈ book'.ledger.orders := by
  cases turns_of_step h with
  | stored s hnone hl =>
    cases ho
    rw [hl]
    exact .inr (List.mem_append_right _ List.mem_cons_self)
  | register x => exact .inl ho
  | done r => exact .inl ho
  | _ => cases ho

namespace System

variable {supply : ℕ → Stamp} {s t u : System} {l : Label}

/-- Whether an order is under way: a client has stored it, the sweeper has listed it, or the intake
    or a worker has it. -/
def Holds (s : System) (o : Order) : Prop :=
  (∃ c ∈ s.clients, c.phase.stored? = some o) ∨ o ∈ s.listed ∨ o ∈ s.flow.intake.items ∨
    Router.asking o ∈ s.routers

section holds

variable {i : ℕ} {o : Order} {flow : Flow} {book : LedgerState}

/-- A client that turns to something else brings no order under way but the one it comes by. -/
theorem Holds.of_set_client {c : Client}
    (ho : Holds { s with clients := s.clients.set i c } o) :
    s.Holds o ∨ c.phase.stored? = some o := by
  rcases ho with ⟨d, hd, hphase⟩ | ho
  · rcases List.mem_or_eq_of_mem_set hd with hd | rfl
    · exact .inl (.inl ⟨d, hd, hphase⟩)
    · exact .inr hphase
  · exact .inl (.inr ho)

/-- A worker of the first stage that turns to something else brings no order under way. -/
theorem Holds.of_set_router {r : Router} (hr : r ≠ .asking o)
    (ho : Holds { s with routers := s.routers.set i r } o) : s.Holds o := by
  rcases ho with ho | ho | ho | ho
  · exact .inl ho
  · exact .inr (.inl ho)
  · exact .inr (.inr (.inl ho))
  · rcases List.mem_or_eq_of_mem_set ho with ho | ho
    · exact .inr (.inr (.inr ho))
    · exact absurd ho.symm hr

theorem holds_of_submit {user number : String} (ho : Holds { s with
    clients := s.clients ++ [⟨user, number, Submission.start number⟩] } o) : s.Holds o := by
  rcases ho with ⟨c, hc, hphase⟩ | ho
  · rcases List.mem_append.mp hc with hc | hc
    · exact .inl ⟨c, hc, hphase⟩
    · rw [List.mem_singleton.mp hc, Submission.Phase.stored?_start] at hphase
      cases hphase
  · exact .inr ho

/-- The ledger has the order that a client comes by. -/
theorem holds_of_submission {c : Client} {phase : Submission.Phase}
    (hclient : s.clients[i]? = some c)
    (hstep : Submission.step (LedgerState.storeOf supply) c.user c.number c.phase s.book =
      (phase, book))
    (ho : Holds { s with book, clients := s.clients.set i { c with phase } } o) :
    s.Holds o ∨ o ∈ book.ledger.orders := by
  rcases Holds.of_set_client ho with ho | hphase
  · exact .inl ho
  · rcases Submission.stored?_of_step hstep hphase with hphase | ho
    · exact .inl (.inl ⟨_, List.mem_of_getElem? hclient, hphase⟩)
    · exact .inr ho

/-- An order that the intake takes is the one that is offered. -/
theorem holds_of_taken {x : Order} {q : Queue Order} (hoffer : s.flow.intake.offer x = .taken q)
    (ho : Holds { s with flow := { s.flow with intake := q } } o) : s.Holds o ∨ o = x := by
  obtain ⟨-, -, rfl⟩ := Queue.offer_eq_taken_iff.mp hoffer
  rcases ho with ho | ho | ho | ho
  · exact .inl (.inl ho)
  · exact .inl (.inr (.inl ho))
  · rcases List.mem_append.mp ho with ho | ho
    · exact .inl (.inr (.inr (.inl ho)))
    · exact .inr (List.mem_singleton.mp ho)
  · exact .inl (.inr (.inr (.inr ho)))

theorem holds_of_register {c : Client} {x : Order} {q : Queue Order}
    (hclient : s.clients[i]? = some c) (hphase : c.phase = .register x)
    (hoffer : s.flow.intake.offer x = .taken q)
    (ho : Holds { s with
      flow := { s.flow with intake := q }
      clients := s.clients.set i { c with phase := .done (.ok x) } } o) : s.Holds o := by
  have hx : s.Holds x := .inl ⟨c, List.mem_of_getElem? hclient, by rw [hphase]; rfl⟩
  -- What the client turns to and what the intake takes are the same order.
  rcases Holds.of_set_client (s := { s with flow := { s.flow with intake := q } }) ho with ho | ho
  · rcases holds_of_taken hoffer ho with ho | rfl
    · exact ho
    · exact hx
  · cases ho
    exact hx

/-- Orders that are listed are orders of the ledger. -/
theorem holds_of_list {after : Option Position} {limit : ℤ} (ho : Holds { s with
    listed := s.listed ++ s.book.ledger.pendingOrders after limit } o) :
    s.Holds o ∨ o ∈ s.book.ledger.orders := by
  rcases ho with ho | ho | ho
  · exact .inl (.inl ho)
  · rcases List.mem_append.mp ho with ho | ho
    · exact .inl (.inr (.inl ho))
    · exact .inr (Ledger.mem_of_mem_pendingOrders ho)
  · exact .inl (.inr (.inr ho))

/-- An order that is received was the first one of the intake. -/
theorem holds_of_receiveOrder {r : Router}
    (hreceive : Router.receive s.stopping s.flow = some (r, flow))
    (ho : Holds { s with flow, routers := s.routers.set i r } o) : s.Holds o := by
  rcases Router.receive_cases hreceive with ⟨rfl, rfl, -⟩ | ⟨x, os, rfl, -, hitems, rfl⟩
  · exact .of_set_router (by simp) ho
  · rcases ho with ho | ho | ho | ho
    · exact .inl ho
    · exact .inr (.inl ho)
    · exact .inr (.inr (.inl (hitems ▸ List.mem_cons_of_mem x ho)))
    · rcases List.mem_or_eq_of_mem_set ho with ho | ho
      · exact .inr (.inr (.inr ho))
      · cases ho
        exact .inr (.inr (.inl (hitems ▸ List.mem_cons_self)))

theorem holds_of_forward {c : Credit} {r : Router}
    (hforward : Router.forward s.stopping c s.flow = some (r, flow))
    (ho : Holds { s with flow, routers := s.routers.set i r } o) : s.Holds o := by
  rcases Router.forward_cases hforward with ⟨rfl, rfl, -⟩ | ⟨rfl, -, -, rfl⟩
  · exact .of_set_router (by simp) ho
  · exact .of_set_router (by simp) ho

/-- The second stage does not touch the intake. -/
theorem holds_of_receiveCredit {r : Settler}
    (hreceive : Settler.receive s.stopping s.flow = some (r, flow))
    (ho : Holds { s with flow, settlers := s.settlers.set i r } o) : s.Holds o := by
  rcases Settler.receive_cases hreceive with ⟨-, rfl, -⟩ | ⟨c, cs, -, -, -, rfl⟩
  · exact ho
  · exact ho

end holds

/-- The orders under way after a step were so before, or the ledger has them. -/
theorem Step.holds (h : Step supply s l t) {o : Order} (ho : t.Holds o) :
    s.Holds o ∨ o ∈ t.book.ledger.orders := by
  cases h with
  | submit => exact .inl (holds_of_submit ho)
  | submission hclient hstep => exact holds_of_submission hclient hstep ho
  | register hclient hphase hoffer =>
    exact .inl (holds_of_register hclient hphase hoffer ho)
  | list => exact holds_of_list ho
  | offer hlisted hoffer =>
    rcases holds_of_taken hoffer ho with ho | rfl
    · exact .inl ho
    · exact .inl (.inr (.inl hlisted))
  | receiveOrder hrouter hreceive => exact .inl (holds_of_receiveOrder hreceive ho)
  | answer => exact .inl (.of_set_router (Router.afterRoute_ne_asking _ o) ho)
  | forward hrouter hforward => exact .inl (holds_of_forward hforward ho)
  | receiveCredit hsettler hreceive => exact .inl (holds_of_receiveCredit hreceive ho)
  | _ => exact .inl ho

/-! ## The ledger in a step -/

theorem Step.persists (h : Step supply s l t) : s.book.ledger.Persists t.book.ledger := by
  rcases h.book_eq with hbook | ⟨op, -, hbook⟩
  · exact .of_eq (by rw [hbook])
  · rw [hbook]
    exact (Ledger.perform_effect supply op s.book).persists

/-- Where an order that a step leaves behind comes from. -/
theorem Step.origin (h : Step supply s l t) {o : Order} (ho : o ∈ t.book.ledger.orders) :
    o ∈ s.book.ledger.orders ∨ ∃ op, Calls s l op ∧ Ledger.Origin s.book.ledger op o := by
  rcases h.book_eq with hbook | ⟨op, hcalls, hbook⟩
  · rw [hbook] at ho
    exact .inl ho
  · rw [hbook] at ho
    exact .inr ⟨op, hcalls, (Ledger.perform_effect supply op s.book).origin ho⟩

/-! ## Sweeps -/

theorem Runs.append {ls ls' : List Label} (h : Runs supply s ls t) (h' : Runs supply t ls' u) :
    Runs supply s (ls ++ ls') u := by
  induction h' with
  | nil => rwa [List.append_nil]
  | snoc hrun hstep ih =>
    rw [← List.append_assoc]
    exact .snoc ih hstep

/-- The ledger of a system as a store. -/
def ledgerStore (supply : ℕ → Stamp) : Store System :=
  .focus System.book (fun book s => { s with book }) (LedgerState.storeOf supply)

/-- Offers an order to the intake without waiting. -/
def tryOffer (o : Order) : Action System Bool := .ofFun fun s =>
  match s.flow.intake.offer o with
  | .taken q => (.ok true, { s with flow := { s.flow with intake := q } })
  | .full => (.ok false, s)
  | .closed => (.error (.error .pipelineClosed), s)

/-- Offering listed orders one after another is a run. -/
theorem runs_of_offerAll (supply : ℕ → Stamp) {os listed : List Order} {last : Option Position}
    {r : Except Fault (ℕ × Option Position)}
    (h : (Sweep.offerAll tryOffer os last).perform s = (r, t)) (hlisted : ∀ o ∈ os, o ∈ listed) :
    ∃ ls, Runs supply { s with listed } ls { t with listed } := by
  induction os generalizing s last r with
  | nil =>
    cases h
    exact ⟨[], .nil⟩
  | cons o os ih =>
    rw [List.forall_mem_cons] at hlisted
    rw [Sweep.offerAll, Action.perform_bind, tryOffer, Action.perform_ofFun] at h
    cases hoffer : s.flow.intake.offer o with
    | taken q =>
      simp only [hoffer, if_true, Action.perform_bind] at h
      have hstep : Step supply { s with listed } (.offer o)
          { s with listed, flow := { s.flow with intake := q } } := .offer hlisted.1 hoffer
      generalize hrest : (Sweep.offerAll tryOffer os (some o.position)).perform
        { s with flow := { s.flow with intake := q } } = rest at h
      obtain ⟨r', u⟩ := rest
      obtain rfl : u = t := by cases r' <;> cases h <;> rfl
      obtain ⟨ls, hls⟩ := ih hrest hlisted.2
      exact ⟨.offer o :: ls, .cons hstep hls⟩
    | full =>
      simp only [hoffer] at h
      cases h
      exact ⟨[], .nil⟩
    | closed =>
      simp only [hoffer] at h
      cases h
      exact ⟨[], .nil⟩

/-- A sweep is a run of listings and offers. -/
theorem runs_of_sweep {batch : ℤ} {after : Option Position} {r : Except Fault Sweep.Report}
    (h : (Sweep.once (ledgerStore supply) tryOffer batch after).perform s = (r, t)) :
    ∃ ls listed, Runs supply s ls { t with listed } := by
  have hlist : ∀ after, ((ledgerStore supply).pendingOrders after batch).perform s =
      (.ok (s.book.ledger.pendingOrders after batch), s) := fun _ => rfl
  -- The page is one of the orders listed last.
  obtain ⟨wrapped, os, ls, listed, hpage, hlisted, hruns⟩ : ∃ wrapped os ls listed,
      (Sweep.page (ledgerStore supply) batch after).perform s = (.ok (wrapped, os), s) ∧
      (∀ o ∈ os, o ∈ listed) ∧ Runs supply s ls { s with listed } := by
    by_cases hwrap :
        ((s.book.ledger.pendingOrders after batch).isEmpty && after.isSome) = true
    · refine ⟨true, s.book.ledger.pendingOrders none batch, [.list none batch], _, ?_,
        fun o ho => List.mem_append_right s.listed ho, .cons (.list none batch) .nil⟩
      simp only [Sweep.page, Action.perform_bind, hlist, hwrap, if_true, Action.perform_pure]
    · refine ⟨false, s.book.ledger.pendingOrders after batch, [.list after batch], _, ?_,
        fun o ho => List.mem_append_right s.listed ho, .cons (.list after batch) .nil⟩
      simp only [Sweep.page, Action.perform_bind, hlist, hwrap, Bool.false_eq_true, if_false,
        Action.perform_pure]
  simp only [Sweep.once, Action.perform_bind, hpage] at h
  generalize hoffers : (Sweep.offerAll tryOffer os after).perform s = rest at h
  obtain ⟨r', u⟩ := rest
  obtain rfl : u = t := by cases r' <;> cases h <;> rfl
  obtain ⟨ls', hruns'⟩ := runs_of_offerAll supply hoffers hlisted
  exact ⟨ls ++ ls', listed, hruns.append hruns'⟩

/-! ## Histories -/

/-- A run with its history: each step's label behind the system that took it, the first one
    first. -/
inductive Trace (supply : ℕ → Stamp) (s : System) : List (System × Label) → System → Prop where
  | nil : Trace supply s [] s
  | snoc {past : List (System × Label)} {l : Label} {t u : System} (htrace : Trace supply s past t)
      (hstep : Step supply t l u) : Trace supply s (past ++ [(t, l)]) u

/-- Every run has a history. -/
theorem Runs.trace {ls : List Label} (h : Runs supply s ls t) :
    ∃ past, Trace supply s past t ∧ past.map (·.2) = ls := by
  induction h with
  | nil => exact ⟨[], .nil, rfl⟩
  | snoc hrun hstep ih =>
    obtain ⟨past, htrace, rfl⟩ := ih
    exact ⟨_, .snoc htrace hstep, by simp⟩

/-- What has a history has been run. -/
theorem Trace.runs {past : List (System × Label)} (h : Trace supply s past t) :
    Runs supply s (past.map (·.2)) t := by
  induction h with
  | nil => exact .nil
  | snoc htrace hstep ih =>
    rw [List.map_append]
    exact .snoc ih hstep

/-- Whether the oracle gave this answer to a worker who asked about a number. -/
def Answered (past : List (System × Label)) (number : String)
    (answer : Except Error Oracle.Answer) : Prop :=
  ∃ s i o, (s, Label.answer i answer) ∈ past ∧ s.routers[i]? = some (.asking o) ∧
    o.number = number

/-- Whether a worker applied this credit. -/
def Applied (past : List (System × Label)) (c : Credit) : Prop :=
  ∃ s i, (s, Label.settle i) ∈ past ∧ s.settlers[i]? = some (.applying c)

/-- Whether a worker settled an order with this credit, which made the order what it is. -/
def SettledBy (past : List (System × Label)) (c : Credit) (o : Order) : Prop :=
  ∃ s i pending, (s, Label.settle i) ∈ past ∧ s.settlers[i]? = some (.applying c) ∧
    s.book.ledger.orderByNumber c.number = some pending ∧ Ledger.settles c pending = true ∧
    o = Ledger.settledBy c pending

section past

variable {past rest : List (System × Label)} {number : String} {c : Credit} {o : Order}

theorem Answered.mono {answer : Except Error Oracle.Answer} (h : Answered past number answer)
    (rest : List (System × Label)) : Answered (past ++ rest) number answer := by
  obtain ⟨s, i, o, hmem, hrouter, hnumber⟩ := h
  exact ⟨s, i, o, List.mem_append_left _ hmem, hrouter, hnumber⟩

theorem SettledBy.mono (h : SettledBy past c o) (rest : List (System × Label)) :
    SettledBy (past ++ rest) c o := by
  obtain ⟨s, i, pending, hmem, hrest⟩ := h
  exact ⟨s, i, pending, List.mem_append_left _ hmem, hrest⟩

theorem SettledBy.applied (h : SettledBy past c o) : Applied past c := by
  obtain ⟨s, i, pending, hmem, hsettler, -⟩ := h
  exact ⟨s, i, hmem, hsettler⟩

/-- A settled order belongs to the user of its credit, has its number and shows its amount. -/
theorem SettledBy.order_eq (h : SettledBy past c o) :
    o.status = .processed ∧ o.user = c.user ∧ o.number = c.number ∧ o.accrual = c.amount := by
  obtain ⟨s, i, pending, -, -, hfind, hs, rfl⟩ := h
  have hnumber : pending.number = c.number := Ledger.number_of_orderByNumber hfind
  exact ⟨rfl, (Ledger.settles_iff.mp hs).1, hnumber, rfl⟩

/-- A credit that the last step applied was being applied before it. -/
theorem applied_concat (h : Applied (past ++ [(s, l)]) c) :
    Applied past c ∨ ∃ i, l = .settle i ∧ s.settlers[i]? = some (.applying c) := by
  obtain ⟨t, i, hmem, hsettler⟩ := h
  rcases List.mem_append.mp hmem with hmem | hmem
  · exact .inl ⟨t, i, hmem, hsettler⟩
  · cases List.mem_singleton.mp hmem
    exact .inr ⟨i, rfl, hsettler⟩

end past

end System

end LoyaltyPoints
