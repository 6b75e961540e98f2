import LoyaltyPoints.Proofs.Pipeline.Conveyance

/-! # Pipeline: where its orders are

    The trail of a pipeline tells the truth: place by place its tickets stand for what is there
    (`Pipeline.Tracked`). So what holds of the tickets holds of the orders. A step moves a ticket
    from one place to another (`Pipeline.Step.tickets_perm`), which leaves each of them in one
    place, and to the ends of lists only (`Trail.Move`), which keeps them in turn. -/

namespace LoyaltyPoints

/-! ## Tickets and what they stand for -/

/-- Whether a ticket is that of an order. -/
def IsTicket (entered : List Order) (n : ℕ) (o : Order) : Prop := entered[n]? = some o

/-- Whether a ticket is that of the order of a credit. -/
def IsCreditTicket (entered : List Order) (n : ℕ) (c : Credit) : Prop :=
  ∃ o amount, IsTicket entered n o ∧ c = Credit.forOrder o amount

/-- Whether a worker has in its hands what its ticket stands for. -/
def Router.Carries (entered : List Order) (ticket : Option ℕ) : Router → Prop
  | .idle | .stopped => ticket = none
  | .asking o => ∃ n, ticket = some n ∧ IsTicket entered n o
  | .holding c => ∃ n, ticket = some n ∧ IsCreditTicket entered n c

/-- Whether a worker has in its hands what its ticket stands for. -/
def Settler.Carries (entered : List Order) (ticket : Option ℕ) : Settler → Prop
  | .idle | .stopped | .panicked => ticket = none
  | .applying c => ∃ n, ticket = some n ∧ IsCreditTicket entered n c

section mono

variable {entered : List Order} {n : ℕ} (o : Order)

theorem IsTicket.concat {p : Order} (h : IsTicket entered n p) : IsTicket (entered ++ [o]) n p :=
  (List.getElem?_append_left (List.getElem?_eq_some_iff.mp h).1).trans h

theorem IsCreditTicket.concat {c : Credit} (h : IsCreditTicket entered n c) :
    IsCreditTicket (entered ++ [o]) n c := by
  obtain ⟨p, amount, hp, hc⟩ := h
  exact ⟨p, amount, hp.concat o, hc⟩

theorem Router.Carries.concat {ticket : Option ℕ} {r : Router} (h : r.Carries entered ticket) :
    r.Carries (entered ++ [o]) ticket := by
  cases r with
  | idle => exact h
  | stopped => exact h
  | asking p =>
    obtain ⟨n, hticket, hn⟩ := h
    exact ⟨n, hticket, hn.concat o⟩
  | holding c =>
    obtain ⟨n, hticket, hn⟩ := h
    exact ⟨n, hticket, hn.concat o⟩

theorem Settler.Carries.concat {ticket : Option ℕ} {r : Settler} (h : r.Carries entered ticket) :
    r.Carries (entered ++ [o]) ticket := by
  cases r with
  | idle => exact h
  | stopped => exact h
  | panicked => exact h
  | applying c =>
    obtain ⟨n, hticket, hn⟩ := h
    exact ⟨n, hticket, hn.concat o⟩

end mono

section workers

variable {π : Type} {P : Worker π → Prop} {ws : List (Worker π)}

/-- What holds of all workers, and of what one of them becomes. -/
theorem Worker.forall_set (h : ∀ w ∈ ws, P w) (i : ℕ) {v : Worker π} (hv : P v) :
    ∀ w ∈ ws.set i v, P w := by
  intro w hw
  rcases List.mem_or_eq_of_mem_set hw with hw | rfl
  · exact h w hw
  · exact hv

/-- What holds of all workers, and of those who join them. -/
theorem Worker.forall_start (h : ∀ w ∈ ws, P w) (n : ℕ) {v : Worker π} (hv : P v) :
    ∀ w ∈ ws ++ List.replicate n v, P w := by
  intro w hw
  rcases List.mem_append.mp hw with hw | hw
  · exact h w hw
  · rw [List.eq_of_mem_replicate hw]
    exact hv

end workers

namespace Pipeline

variable {σ : Type} {store : Store σ} {crew : Crew} {s t u : Pipeline σ} {l : Label}

/-- Whether the trail tells the truth: place by place, its tickets stand for what is there. -/
structure Tracked (s : Pipeline σ) : Prop where
  intake : List.Forall₂ (IsTicket s.trail.entered) s.trail.intake s.flow.intake.items
  processing : List.Forall₂ (IsCreditTicket s.trail.entered) s.trail.processing
    s.flow.processing.items
  routers : ∀ w ∈ s.routers, w.phase.Carries s.trail.entered w.ticket
  settlers : ∀ w ∈ s.settlers, w.phase.Carries s.trail.entered w.ticket

theorem Tracked.enter (h : s.Tracked) {o : Order} {q : Queue Order}
    (hoffer : s.flow.intake.offer o = .taken q) : (s.enter o q).Tracked := by
  obtain ⟨-, -, rfl⟩ := Queue.offer_eq_taken_iff.mp hoffer
  have hnew : IsTicket (s.trail.entered ++ [o]) s.trail.entered.length o := by
    simp [IsTicket]
  exact {
    intake := List.rel_append (h.intake.imp fun n p hp => hp.concat o) (.cons hnew .nil)
    processing := h.processing.imp fun n c hc => hc.concat o
    routers := fun w hw => (h.routers w hw).concat o
    settlers := fun w hw => (h.settlers w hw).concat o }

theorem Tracked.settleEnds (h : s.Tracked) : s.settleEnds.Tracked where
  intake := by
    show List.Forall₂ _ s.trail.intake (s.closeLost _ _ s.flow.intake).items
    rw [closeLost_items]
    exact h.intake
  processing := by
    show List.Forall₂ _ s.trail.processing (s.closeLost _ _ s.flow.processing).items
    rw [closeLost_items]
    exact h.processing
  routers := h.routers
  settlers := h.settlers

/-- The workers of the first stage when one of them has changed. -/
theorem Tracked.set_router (h : s.Tracked) {i : ℕ} {v : Worker Router}
    (hv : v.phase.Carries s.trail.entered v.ticket) :
    ∀ w ∈ s.routers.set i v, w.phase.Carries s.trail.entered w.ticket :=
  Worker.forall_set h.routers i hv

/-- The workers of the second stage when one of them has changed. -/
theorem Tracked.set_settler (h : s.Tracked) {i : ℕ} {v : Worker Settler}
    (hv : v.phase.Carries s.trail.entered v.ticket) :
    ∀ w ∈ s.settlers.set i v, w.phase.Carries s.trail.entered w.ticket :=
  Worker.forall_set h.settlers i hv

theorem Tracked.router (h : s.Tracked) {i : ℕ} {w : Worker Router} (hw : s.routers[i]? = some w) :
    w.phase.Carries s.trail.entered w.ticket := h.routers w (List.mem_of_getElem? hw)

theorem Tracked.settler (h : s.Tracked) {i : ℕ} {w : Worker Settler}
    (hw : s.settlers[i]? = some w) : w.phase.Carries s.trail.entered w.ticket :=
  h.settlers w (List.mem_of_getElem? hw)

section turns

variable {i : ℕ} {stop : Bool} {o : Order} {c : Credit} {flow : Flow} {book : σ}
  {w : Worker Router}

/-- The oldest ticket is that of the oldest order. -/
theorem Tracked.takeOrder (h : s.Tracked)
    (hreceive : Router.receive stop s.flow = some (.asking o, flow)) :
    Tracked { s with
      flow
      routers := s.routers.set i ⟨.asking o, none, s.trail.intake.head?⟩
      trail := s.trail.draw } := by
  obtain ⟨-, os, hitems, rfl⟩ := Router.of_receive_asking hreceive
  obtain ⟨n, ns, hn, hns, htickets⟩ := List.forall₂_cons_right_iff.mp (hitems ▸ h.intake)
  have hcarries : (Router.asking o).Carries s.trail.entered s.trail.intake.head? :=
    ⟨n, by rw [htickets]; rfl, hn⟩
  refine ⟨?_, h.processing, h.set_router hcarries, h.settlers⟩
  show List.Forall₂ _ s.trail.intake.tail os
  rw [htickets]
  exact hns

/-- A credit is granted for the order that the worker has asked about. -/
theorem Tracked.grant (h : s.Tracked) {answer : Except Error Oracle.Answer}
    (hw : s.routers[i]? = some w) (hphase : w.phase = .asking o)
    (hroute : (Route.ofAnswer store o answer).perform s.book = (.ok (.accrue c), book)) :
    Tracked { s with
      book
      routers := s.routers.set i ⟨.afterRoute (.accrue c), none, w.ticket⟩ } := by
  obtain ⟨n, hticket, hn⟩ : (Router.asking o).Carries _ _ := hphase ▸ h.router hw
  obtain ⟨a, -, -, hc⟩ := Route.ofAnswer_eq_accrue store s.book (by rw [hroute])
  have hcarries : (Router.holding c).Carries s.trail.entered w.ticket :=
    ⟨n, hticket, o, _, hn, hc⟩
  exact ⟨h.intake, h.processing, h.set_router hcarries, h.settlers⟩

/-- The ticket of a worker goes with its credit. -/
theorem Tracked.forward (h : s.Tracked) (hw : s.routers[i]? = some w)
    (hphase : w.phase = .holding c)
    (hforward : Router.forward stop c s.flow = some (.idle, flow)) :
    Tracked { s with
      flow
      routers := s.routers.set i ⟨.idle, none, none⟩
      trail := s.trail.forward w.ticket } := by
  obtain ⟨-, -, rfl⟩ := Router.of_forward_idle hforward
  obtain ⟨n, hticket, hn⟩ : (Router.holding c).Carries _ _ := hphase ▸ h.router hw
  refine ⟨h.intake, ?_, h.set_router rfl, h.settlers⟩
  show List.Forall₂ _ (s.trail.processing ++ w.ticket.toList) (s.flow.processing.items ++ [c])
  rw [hticket]
  exact List.rel_append h.processing (.cons hn .nil)

/-- The oldest ticket of the second queue is that of the oldest credit. -/
theorem Tracked.takeCredit (h : s.Tracked)
    (hreceive : Settler.receive stop s.flow = some (.applying c, flow)) :
    Tracked { s with
      flow
      settlers := s.settlers.set i ⟨.applying c, none, s.trail.processing.head?⟩
      trail := s.trail.collect } := by
  obtain ⟨-, cs, hitems, rfl⟩ := Settler.of_receive_applying hreceive
  obtain ⟨n, ns, hn, hns, htickets⟩ := List.forall₂_cons_right_iff.mp (hitems ▸ h.processing)
  have hcarries : (Settler.applying c).Carries s.trail.entered s.trail.processing.head? :=
    ⟨n, by rw [htickets]; rfl, hn⟩
  refine ⟨h.intake, ?_, h.routers, h.set_settler hcarries⟩
  show List.Forall₂ _ s.trail.processing.tail cs
  rw [htickets]
  exact hns

end turns

theorem Step.tracked (h : Step store crew s l t) (hs : s.Tracked) : t.Tracked := by
  cases h with
  | register hoffer => exact hs.enter hoffer
  | registerRefused => exact hs
  | tryRegister htry =>
    rcases tryRegister_cases htry with ⟨q, -, hoffer, rfl⟩ | ⟨-, -, rfl⟩ | ⟨-, -, rfl⟩
    · exact hs.enter hoffer
    · exact hs
    · exact hs
  | start howned =>
    exact ⟨hs.intake, hs.processing, Worker.forall_start hs.routers _ rfl,
      Worker.forall_start hs.settlers _ rfl⟩
  | discard => exact Tracked.settleEnds ⟨hs.intake, hs.processing, hs.routers, hs.settlers⟩
  | lookRouter hw =>
    have hcarries := hs.router hw
    exact ⟨hs.intake, hs.processing, hs.set_router hcarries, hs.settlers⟩
  | waitRouter hw =>
    have hcarries := hs.router hw
    exact ⟨hs.intake, hs.processing, hs.set_router hcarries, hs.settlers⟩
  | takeOrder hw hphase hseen hreceive => exact hs.takeOrder hreceive
  | quitRouter hw hphase hseen hreceive =>
    obtain ⟨rfl, -⟩ := Router.of_receive_stopped hreceive
    exact Tracked.settleEnds ⟨hs.intake, hs.processing, hs.set_router rfl, hs.settlers⟩
  | grant hw hphase hroute => exact hs.grant hw hphase hroute
  | finish hw hphase hroute hnone =>
    rw [Router.afterRoute_eq_idle hnone]
    exact ⟨hs.intake, hs.processing, hs.set_router rfl, hs.settlers⟩
  | forward hw hphase hseen hforward => exact hs.forward hw hphase hforward
  | abandon hw hphase hseen hforward =>
    obtain ⟨rfl, -⟩ := Router.of_forward_stopped hforward
    exact Tracked.settleEnds ⟨hs.intake, hs.processing, hs.set_router rfl, hs.settlers⟩
  | lookSettler hw =>
    have hcarries := hs.settler hw
    exact ⟨hs.intake, hs.processing, hs.routers, hs.set_settler hcarries⟩
  | waitSettler hw =>
    have hcarries := hs.settler hw
    exact ⟨hs.intake, hs.processing, hs.routers, hs.set_settler hcarries⟩
  | takeCredit hw hphase hseen hreceive => exact hs.takeCredit hreceive
  | quitSettler hw hphase hseen hreceive =>
    obtain ⟨rfl, -⟩ := Settler.of_receive_stopped hreceive
    exact Tracked.settleEnds ⟨hs.intake, hs.processing, hs.routers, hs.set_settler rfl⟩
  | settle => exact ⟨hs.intake, hs.processing, hs.routers, hs.set_settler rfl⟩
  | overflow =>
    exact Tracked.settleEnds ⟨hs.intake, hs.processing, hs.routers, hs.set_settler rfl⟩
  | _ => exact ⟨hs.intake, hs.processing, hs.routers, hs.settlers⟩

end Pipeline

/-! ## One place for each ticket -/

namespace Trail

variable (t : Trail) (ticket : Option ℕ)

theorem head?_toList_append_tail {α : Type} (xs : List α) : xs.head?.toList ++ xs.tail = xs := by
  cases xs <;> rfl

theorem places_enter (o : Order) : (t.enter o).places.Perm (t.places ++ [t.entered.length]) :=
  List.perm_iff_count.mpr fun n => by
    simp only [enter, places, List.count_append]
    omega

theorem places_draw : (t.draw.places ++ t.intake.head?.toList).Perm t.places :=
  List.perm_iff_count.mpr fun n => by
    have := congrArg (List.count n) (head?_toList_append_tail t.intake)
    simp only [draw, places, List.count_append] at this ⊢
    omega

theorem places_collect : (t.collect.places ++ t.processing.head?.toList).Perm t.places :=
  List.perm_iff_count.mpr fun n => by
    have := congrArg (List.count n) (head?_toList_append_tail t.processing)
    simp only [collect, places, List.count_append] at this ⊢
    omega

theorem places_forward : (t.forward ticket).places.Perm (t.places ++ ticket.toList) :=
  List.perm_iff_count.mpr fun n => by
    simp only [forward, places, List.count_append]
    omega

theorem places_conclude (ending : Ending) :
    (t.conclude ending ticket).places = t.places ++ ticket.toList := by
  simp [conclude, places, Function.comp_def]

end Trail

/-- The tickets in the hands of workers. -/
def Worker.inHands {π : Type} (ws : List (Worker π)) : List ℕ := ws.filterMap (·.ticket)

/-- A worker that changes hands over its ticket for another. -/
theorem Worker.inHands_set {π : Type} {ws : List (Worker π)} {i : ℕ} {w : Worker π}
    (h : ws[i]? = some w) (v : Worker π) :
    (inHands (ws.set i v) ++ w.ticket.toList).Perm (inHands ws ++ v.ticket.toList) := by
  induction ws generalizing i with
  | nil => cases h
  | cons x ws ih =>
    have hcons : ∀ (y : Worker π) ys, inHands (y :: ys) = y.ticket.toList ++ inHands ys := by
      intro y ys
      cases hy : y.ticket <;> simp [inHands, hy]
    cases i with
    | zero =>
      cases h
      rw [List.set_cons_zero, hcons, hcons, List.append_assoc, List.append_assoc]
      exact List.perm_append_comm.trans
        ((List.perm_append_comm.append_right _).trans (by rw [List.append_assoc]))
    | succ i =>
      rw [List.set_cons_succ, hcons, hcons, List.append_assoc, List.append_assoc]
      exact (ih h).append_left _

namespace Pipeline

variable {σ : Type} {store : Store σ} {crew : Crew} {s t u : Pipeline σ} {l : Label}

/-- All tickets, place by place. -/
def tickets (s : Pipeline σ) : List ℕ :=
  s.trail.places ++ Worker.inHands s.routers ++ Worker.inHands s.settlers

theorem tickets_start (s : Pipeline σ) (m n : ℕ) :
    tickets { s with
      routers := s.routers ++ List.replicate m ⟨.idle, none, none⟩
      settlers := s.settlers ++ List.replicate n ⟨.idle, none, none⟩ } = s.tickets := by
  simp [tickets, Worker.inHands, List.filterMap_replicate_of_none]

/-- A worker of the first stage that changes hands over its ticket for another. -/
theorem tickets_router {i : ℕ} {w : Worker Router} (hw : s.routers[i]? = some w)
    (v : Worker Router) (hrouters : t.routers = s.routers.set i v)
    (hsettlers : t.settlers = s.settlers)
    (hplaces : (t.trail.places ++ v.ticket.toList).Perm (s.trail.places ++ w.ticket.toList)) :
    t.tickets.Perm s.tickets :=
  List.perm_iff_count.mpr fun n => by
    have hhands := (Worker.inHands_set hw v).count_eq n
    have hplaces := hplaces.count_eq n
    simp only [List.count_append] at hhands hplaces
    simp only [tickets, hrouters, hsettlers, List.count_append]
    omega

/-- A worker of the second stage that changes hands over its ticket for another. -/
theorem tickets_settler {i : ℕ} {w : Worker Settler} (hw : s.settlers[i]? = some w)
    (v : Worker Settler) (hrouters : t.routers = s.routers)
    (hsettlers : t.settlers = s.settlers.set i v)
    (hplaces : (t.trail.places ++ v.ticket.toList).Perm (s.trail.places ++ w.ticket.toList)) :
    t.tickets.Perm s.tickets :=
  List.perm_iff_count.mpr fun n => by
    have hhands := (Worker.inHands_set hw v).count_eq n
    have hplaces := hplaces.count_eq n
    simp only [List.count_append] at hhands hplaces
    simp only [tickets, hrouters, hsettlers, List.count_append]
    omega

theorem tickets_enter (s : Pipeline σ) (o : Order) (q : Queue Order) :
    (s.enter o q).tickets.Perm (s.tickets ++ [s.trail.entered.length]) :=
  List.perm_iff_count.mpr fun n => by
    have := (s.trail.places_enter o).count_eq n
    simp only [List.count_append] at this
    simp only [tickets, enter, List.count_append]
    omega

/-- Each ticket stays where it is or goes to another place, unless an order enters, with the next
    ticket. -/
theorem Step.tickets_perm (h : Step store crew s l t) (hs : s.Tracked) :
    (t.trail.entered = s.trail.entered ∧ t.tickets.Perm s.tickets) ∨
      ∃ o, t.trail.entered = s.trail.entered ++ [o] ∧
        t.tickets.Perm (s.tickets ++ [s.trail.entered.length]) := by
  -- A worker that waits for an order or a credit has nothing in its hands.
  have hrouter : ∀ {i : ℕ} {w : Worker Router}, s.routers[i]? = some w → w.phase = .idle →
      w.ticket = none := fun hw hphase => (hphase ▸ hs.router hw : Router.idle.Carries _ _)
  have hsettler : ∀ {i : ℕ} {w : Worker Settler}, s.settlers[i]? = some w → w.phase = .idle →
      w.ticket = none := fun hw hphase => (hphase ▸ hs.settler hw : Settler.idle.Carries _ _)
  cases h with
  | register hoffer => exact .inr ⟨_, rfl, tickets_enter s _ _⟩
  | registerRefused => exact .inl ⟨rfl, .refl _⟩
  | tryRegister htry =>
    rcases tryRegister_cases htry with ⟨q, -, hoffer, rfl⟩ | ⟨-, -, rfl⟩ | ⟨-, -, rfl⟩
    · exact .inr ⟨_, rfl, tickets_enter s _ _⟩
    · exact .inl ⟨rfl, .refl _⟩
    · exact .inl ⟨rfl, .refl _⟩
  | start => exact .inl ⟨rfl, .of_eq (tickets_start s _ _)⟩
  | signal => exact .inl ⟨rfl, .refl _⟩
  | dropSignal => exact .inl ⟨rfl, .refl _⟩
  | discard => exact .inl ⟨rfl, .refl _⟩
  | elsewhere => exact .inl ⟨rfl, .refl _⟩
  | lookRouter hw => exact .inl ⟨rfl, tickets_router hw _ rfl rfl (.refl _)⟩
  | waitRouter hw => exact .inl ⟨rfl, tickets_router hw _ rfl rfl (.refl _)⟩
  | takeOrder hw hphase =>
    refine .inl ⟨rfl, tickets_router hw _ rfl rfl ?_⟩
    rw [hrouter hw hphase, Option.toList_none, List.append_nil]
    exact s.trail.places_draw
  | quitRouter hw hphase =>
    refine .inl ⟨rfl, tickets_router hw _ rfl rfl ?_⟩
    rw [hrouter hw hphase]
    exact .refl _
  | grant hw => exact .inl ⟨rfl, tickets_router hw _ rfl rfl (.refl _)⟩
  | finish hw =>
    refine .inl ⟨rfl, tickets_router hw _ rfl rfl (.of_eq ?_)⟩
    exact (List.append_nil _).trans (s.trail.places_conclude _ _)
  | forward hw =>
    refine .inl ⟨rfl, tickets_router hw _ rfl rfl ?_⟩
    exact (List.append_nil _).symm ▸ s.trail.places_forward _
  | abandon hw =>
    refine .inl ⟨rfl, tickets_router hw _ rfl rfl (.of_eq ?_)⟩
    exact (List.append_nil _).trans (s.trail.places_conclude _ _)
  | lookSettler hw => exact .inl ⟨rfl, tickets_settler hw _ rfl rfl (.refl _)⟩
  | waitSettler hw => exact .inl ⟨rfl, tickets_settler hw _ rfl rfl (.refl _)⟩
  | takeCredit hw hphase =>
    refine .inl ⟨rfl, tickets_settler hw _ rfl rfl ?_⟩
    rw [hsettler hw hphase, Option.toList_none, List.append_nil]
    exact s.trail.places_collect
  | quitSettler hw hphase =>
    refine .inl ⟨rfl, tickets_settler hw _ rfl rfl ?_⟩
    rw [hsettler hw hphase]
    exact .refl _
  | settle hw =>
    refine .inl ⟨rfl, tickets_settler hw _ rfl rfl (.of_eq ?_)⟩
    exact (List.append_nil _).trans (s.trail.places_conclude _ _)
  | overflow hw =>
    refine .inl ⟨rfl, tickets_settler hw _ rfl rfl (.of_eq ?_)⟩
    exact (List.append_nil _).trans (s.trail.places_conclude _ _)

end Pipeline

/-! ## Turns -/

namespace Trail

/-- Whether the tickets left each queue in the order in which they entered it. -/
structure InTurn (t : Trail) : Prop where
  drawn : t.drawn ++ t.intake = List.range t.entered.length
  collected : t.collected ++ t.processing = t.forwarded

/-- Whether what a trail says of the past is still there in a later one. -/
structure Grows (t t' : Trail) : Prop where
  entered : t.entered <+: t'.entered
  drawn : t.drawn <+: t'.drawn
  forwarded : t.forwarded <+: t'.forwarded
  collected : t.collected <+: t'.collected
  ended : t.ended <+: t'.ended

theorem Grows.refl (t : Trail) : Grows t t :=
  ⟨List.prefix_rfl, List.prefix_rfl, List.prefix_rfl, List.prefix_rfl, List.prefix_rfl⟩

theorem Grows.trans {t t' t'' : Trail} (h : Grows t t') (h' : Grows t' t'') : Grows t t'' where
  entered := h.entered.trans h'.entered
  drawn := h.drawn.trans h'.drawn
  forwarded := h.forwarded.trans h'.forwarded
  collected := h.collected.trans h'.collected
  ended := h.ended.trans h'.ended

/-- What a step does to the trail. -/
inductive Move (t : Trail) : Trail → Prop where
  | none : Move t t
  | enter (o : Order) : Move t (t.enter o)
  | draw : Move t t.draw
  | forward (ticket : Option ℕ) : Move t (t.forward ticket)
  | collect : Move t t.collect
  | conclude (ending : Ending) (ticket : Option ℕ) : Move t (t.conclude ending ticket)

variable {t t' : Trail}

theorem Move.inTurn (h : Move t t') (ht : t.InTurn) : t'.InTurn := by
  cases h with
  | none => exact ht
  | enter o =>
    refine ⟨?_, ht.collected⟩
    simp only [Trail.enter, List.length_append, List.length_singleton, List.range_succ]
    rw [← List.append_assoc, ht.drawn]
  | draw =>
    refine ⟨?_, ht.collected⟩
    simp only [Trail.draw]
    rw [List.append_assoc, head?_toList_append_tail, ht.drawn]
  | forward ticket =>
    refine ⟨ht.drawn, ?_⟩
    simp only [Trail.forward]
    rw [← List.append_assoc, ht.collected]
  | collect =>
    refine ⟨ht.drawn, ?_⟩
    simp only [Trail.collect]
    rw [List.append_assoc, head?_toList_append_tail, ht.collected]
  | conclude => exact ⟨ht.drawn, ht.collected⟩

theorem Move.grows (h : Move t t') : t.Grows t' := by
  have hrefl := Grows.refl t
  cases h with
  | none => exact hrefl
  | enter o => exact { hrefl with entered := List.prefix_append _ _ }
  | draw => exact { hrefl with drawn := List.prefix_append _ _ }
  | forward => exact { hrefl with forwarded := List.prefix_append _ _ }
  | collect => exact { hrefl with collected := List.prefix_append _ _ }
  | conclude => exact { hrefl with ended := List.prefix_append _ _ }

end Trail

namespace Pipeline

variable {σ : Type} {store : Store σ} {crew : Crew} {s t u : Pipeline σ} {l : Label}

theorem Step.move (h : Step store crew s l t) : s.trail.Move t.trail := by
  cases h with
  | register => exact .enter _
  | tryRegister htry =>
    rcases tryRegister_cases htry with ⟨q, -, -, rfl⟩ | ⟨-, -, rfl⟩ | ⟨-, -, rfl⟩
    · exact .enter _
    · exact .none
    · exact .none
  | takeOrder => exact .draw
  | finish => exact .conclude _ _
  | forward => exact .forward _
  | abandon => exact .conclude _ _
  | takeCredit => exact .collect
  | settle => exact .conclude _ _
  | overflow => exact .conclude _ _
  | _ => exact .none

/-! ## Runs -/

/-- A run that begins with a step. -/
theorem Runs.cons {ls : List Label} (hstep : Step store crew s l t)
    (hrun : Runs store crew t ls u) : Runs store crew s (l :: ls) u := by
  induction hrun with
  | nil => exact .snoc .nil hstep
  | snoc hrun hlast ih => exact .snoc ih hlast

/-- What every step of a run preserves, the run preserves. -/
theorem Runs.preserves {P : Pipeline σ → Prop} {ls : List Label} (h : Runs store crew s ls t)
    (hstep : ∀ {u v : Pipeline σ}, ∀ l ∈ ls, Step store crew u l v → P u → P v) (hs : P s) :
    P t := by
  induction h with
  | nil => exact hs
  | snoc hrun hlast ih =>
    have hbefore := ih fun l hl => hstep l (List.mem_append_left _ hl)
    exact hstep _ (List.mem_append_right _ List.mem_cons_self) hlast hbefore

/-- What holds of every label of a run, because each step makes sure of it and preserves what it
    needs. -/
theorem Runs.labels {P : Pipeline σ → Prop} {Q : Label → Prop} {ls : List Label}
    (h : Runs store crew s ls t)
    (hstep : ∀ {u v : Pipeline σ} {l : Label}, Step store crew u l v → P u → Q l ∧ P v)
    (hs : P s) : ∀ l ∈ ls, Q l := by
  induction h with
  | nil => simp
  | snoc hrun hlast ih =>
    have hbefore := hrun.preserves (fun _ _ hstep' hu => (hstep hstep' hu).2) hs
    intro l hl
    rcases List.mem_append.mp hl with hl | hl
    · exact ih l hl
    · rw [List.mem_singleton.mp hl]
      exact (hstep hlast hbefore).1

theorem Runs.grows {ls : List Label} (h : Runs store crew s ls t) : s.trail.Grows t.trail :=
  h.preserves (P := fun t => s.trail.Grows t.trail)
    (fun _ _ hstep hs => hs.trans hstep.move.grows) (.refl s.trail)

/-- What is known of a pipeline while it runs, whatever happens. -/
structure Sound (capacity : ℕ) (s : Pipeline σ) : Prop where
  fits : s.Fits (max capacity 1)
  tracked : s.Tracked
  tickets_perm : s.tickets.Perm (List.range s.trail.entered.length)
  inTurn : s.trail.InTurn

theorem sound_new (book : σ) (capacity : ℕ) : (new book capacity).Sound capacity where
  fits := ⟨⟨rfl, Nat.zero_le _⟩, ⟨rfl, Nat.zero_le _⟩⟩
  tracked := ⟨.nil, .nil, by simp [new], by simp [new]⟩
  tickets_perm := .refl _
  inTurn := ⟨rfl, rfl⟩

theorem Step.sound {capacity : ℕ} (h : Step store crew s l t) (hs : s.Sound capacity) :
    t.Sound capacity where
  fits := h.fits hs.fits
  tracked := h.tracked hs.tracked
  tickets_perm := by
    rcases h.tickets_perm hs.tracked with ⟨hentered, htickets⟩ | ⟨o, hentered, htickets⟩
    · rw [hentered]
      exact htickets.trans hs.tickets_perm
    · rw [hentered, List.length_append, List.length_singleton, List.range_succ]
      exact htickets.trans (hs.tickets_perm.append_right _)
  inTurn := h.move.inTurn hs.inTurn

theorem Runs.sound {book : σ} {capacity : ℕ} {ls : List Label}
    (h : Runs store crew (new book capacity) ls s) : s.Sound capacity :=
  h.preserves (fun _ _ hstep hs => hstep.sound hs) (sound_new book capacity)

end Pipeline

end LoyaltyPoints
