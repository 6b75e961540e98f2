import LoyaltyPoints.Proofs.Pipeline.History
import LoyaltyPoints.Simulation.Waiting

/-! # Pipeline: an order's way through it

    Here the pipeline stands by itself: orders enter from outside, the workers of both stages act
    in any order, the stop signal comes at any time, and so does the end of the pipeline's owner.
    The ledger is any store, and others may change it between two steps.

    A worker that waits goes by turns. It first looks at the stop signal and then, by what it saw,
    takes what it waits for, ends, or waits on; the signal may come between the two.

    Each order that enters gets a ticket, its number among those that have entered, and a trail
    says where each ticket is. No step asks the trail for anything. -/

namespace LoyaltyPoints

open Simulation (LineEnd)

/-! ## State and labels -/

/-- A worker. What it saw when it last looked at the stop signal is kept until it acts on it. -/
structure Worker (π : Type) where
  phase : π
  seen : Option Bool := none
  /-- The ticket of what it has in its hands. -/
  ticket : Option ℕ := none

/-- Whether a worker of the first stage waits, and goes by turns. -/
def Router.Waits (r : Router) : Prop := r = .idle ∨ ∃ c, r = .holding c

/-- What a worker of the first stage does in its turn. -/
def Router.turn (stop : Bool) (f : Flow) : Router → Option (Router × Flow)
  | .idle => Router.receive stop f
  | .holding c => Router.forward stop c f
  | r => some (r, f)

/-- The ends of the queues that a worker of the first stage holds. -/
def Router.ends (r : Router) : List LineEnd :=
  ((Simulation.World.endsOf (.router 0 r none)).map (·.2)).getD []

/-- The ends of the queues that a worker of the second stage holds. -/
def Settler.ends (r : Settler) : List LineEnd :=
  ((Simulation.World.endsOf (.settler 0 r)).map (·.2)).getD []

/-- How the way of an order through the pipeline ends. -/
inductive Ending where
  /-- It was routed, and there was no credit. -/
  | finished
  | applied
  | abandoned
  /-- Its credit overflowed. -/
  | overflowed
deriving DecidableEq

/-- Where the tickets are that no worker has in its hands, and the orders in which they came and
    went. -/
structure Trail where
  /-- The orders that entered, the first one first. -/
  entered : List Order := []
  intake : List ℕ := []
  /-- The tickets that left the intake. -/
  drawn : List ℕ := []
  /-- The tickets that entered the second queue. -/
  forwarded : List ℕ := []
  processing : List ℕ := []
  /-- The tickets that left the second queue. -/
  collected : List ℕ := []
  ended : List (ℕ × Ending) := []

namespace Trail

/-- The next order enters. -/
def enter (o : Order) (t : Trail) : Trail :=
  { t with entered := t.entered ++ [o], intake := t.intake ++ [t.entered.length] }

/-- The oldest ticket leaves the intake. -/
def draw (t : Trail) : Trail :=
  { t with intake := t.intake.tail, drawn := t.drawn ++ t.intake.head?.toList }

def forward (ticket : Option ℕ) (t : Trail) : Trail :=
  { t with
    forwarded := t.forwarded ++ ticket.toList
    processing := t.processing ++ ticket.toList }

/-- The oldest ticket leaves the second queue. -/
def collect (t : Trail) : Trail :=
  { t with processing := t.processing.tail, collected := t.collected ++ t.processing.head?.toList }

def conclude (ending : Ending) (ticket : Option ℕ) (t : Trail) : Trail :=
  { t with ended := t.ended ++ ticket.toList.map (·, ending) }

/-- The tickets that no worker has in its hands, place by place. -/
def places (t : Trail) : List ℕ := t.intake ++ t.processing ++ t.ended.map (·.1)

end Trail

/-- The numbers of workers that are asked for. -/
structure Crew where
  routers : ℕ
  settlers : ℕ

/-- A pipeline: its queues, its workers and what they share. -/
structure Pipeline (σ : Type) where
  book : σ
  flow : Flow
  routers : List (Worker Router) := []
  settlers : List (Worker Settler) := []
  /-- Whether the pipeline is still there for its owners, beside its workers. -/
  owned : Bool := true
  signalled : Bool := false
  /-- Whether the sender of the stop signal is gone. -/
  senderGone : Bool := false
  trail : Trail := {}

namespace Pipeline

/-- What happens. The number of a worker says which of its stage acts. -/
inductive Label where
  | register (o : Order) (answer : Except Error Unit)
  | tryRegister (o : Order) (answer : Except Error Bool)
  | start
  | signal
  | dropSignal
  /-- The pipeline is dropped by its owners. -/
  | discard
  /-- Others change the ledger. -/
  | elsewhere
  /-- A worker of the first stage looks at the stop signal. -/
  | lookRouter (i : ℕ)
  | waitRouter (i : ℕ)
  | takeOrder (i : ℕ)
  | answer (i : ℕ) (answer : Except Error Oracle.Answer)
  | forward (i : ℕ)
  | abandon (i : ℕ)
  | quitRouter (i : ℕ)
  | lookSettler (i : ℕ)
  | waitSettler (i : ℕ)
  | takeCredit (i : ℕ)
  | settle (i : ℕ)
  /-- A credit overflows, and its worker panics. -/
  | overflow (i : ℕ)
  | quitSettler (i : ℕ)

variable {σ : Type}

/-- A pipeline that has not been started. -/
def new (book : σ) (capacity : ℕ) : Pipeline σ := { book, flow := .ofCapacity capacity }

/-- Whether a worker that looks at the stop signal sees it. A sender that is gone counts as one
    that has sent it. -/
def requested (s : Pipeline σ) : Bool := s.signalled || s.senderGone

/-! ### The ends of the queues -/

/-- Whether anyone holds an end. The pipeline itself holds all of them. -/
def holds (s : Pipeline σ) (e : LineEnd) : Bool :=
  s.owned || s.routers.any (·.phase.ends.contains e) || s.settlers.any (·.phase.ends.contains e)

/-- Closes a queue that has lost all senders or all receivers. -/
def closeLost {α : Type} (s : Pipeline σ) (sender receiver : LineEnd) (q : Queue α) : Queue α :=
  if s.holds sender && s.holds receiver then q else q.close

/-- Closes what has lost its last holder. -/
def settleEnds (s : Pipeline σ) : Pipeline σ :=
  { s with flow :=
    ⟨s.closeLost .intakeSender .intakeReceiver s.flow.intake,
      s.closeLost .processingSender .processingReceiver s.flow.processing⟩ }

/-! ### Steps -/

/-- The pipeline behind an order that the intake has taken. -/
def enter (o : Order) (q : Queue Order) (s : Pipeline σ) : Pipeline σ :=
  { s with flow := { s.flow with intake := q }, trail := s.trail.enter o }

/-- Registers an order without waiting: whether it was taken. -/
def tryRegister (o : Order) (s : Pipeline σ) : Except Error Bool × Pipeline σ :=
  match s.flow.intake.offer o with
  | .taken q => (.ok true, s.enter o q)
  | .full => (.ok false, s)
  | .closed => (.error .pipelineClosed, s)

/-- One step. Registering waits while the intake is full, and then there is none. -/
inductive Step (store : Store σ) (crew : Crew) (s : Pipeline σ) : Label → Pipeline σ → Prop where
  | register {o : Order} {q : Queue Order} (hoffer : s.flow.intake.offer o = .taken q) :
    Step store crew s (.register o (.ok ())) (s.enter o q)
  | registerRefused {o : Order} (hoffer : s.flow.intake.offer o = .closed) :
    Step store crew s (.register o (.error .pipelineClosed)) s
  | tryRegister {o : Order} {answer : Except Error Bool} {t : Pipeline σ}
      (htry : s.tryRegister o = (answer, t)) : Step store crew s (.tryRegister o answer) t
  | start (howned : s.owned = true) : Step store crew s .start { s with
      routers := s.routers ++ List.replicate (max crew.routers 1) ⟨.idle, none, none⟩
      settlers := s.settlers ++ List.replicate (max crew.settlers 1) ⟨.idle, none, none⟩ }
  | signal : Step store crew s .signal { s with signalled := true }
  | dropSignal : Step store crew s .dropSignal { s with senderGone := true }
  | discard : Step store crew s .discard (settleEnds { s with owned := false })
  | elsewhere (book : σ) : Step store crew s .elsewhere { s with book }
  | lookRouter {i : ℕ} {w : Worker Router} (hw : s.routers[i]? = some w) (hwaits : w.phase.Waits)
      (hseen : w.seen = none) : Step store crew s (.lookRouter i)
      { s with routers := s.routers.set i { w with seen := some s.requested } }
  | waitRouter {i : ℕ} {w : Worker Router} {stop : Bool} (hw : s.routers[i]? = some w)
      (hseen : w.seen = some stop) (hturn : w.phase.turn stop s.flow = none) :
    Step store crew s (.waitRouter i)
      { s with routers := s.routers.set i { w with seen := none } }
  | takeOrder {i : ℕ} {w : Worker Router} {stop : Bool} {o : Order} {flow : Flow}
      (hw : s.routers[i]? = some w) (hphase : w.phase = .idle) (hseen : w.seen = some stop)
      (hreceive : Router.receive stop s.flow = some (.asking o, flow)) :
    Step store crew s (.takeOrder i) { s with
      flow
      routers := s.routers.set i ⟨.asking o, none, s.trail.intake.head?⟩
      trail := s.trail.draw }
  | quitRouter {i : ℕ} {w : Worker Router} {stop : Bool} {flow : Flow}
      (hw : s.routers[i]? = some w) (hphase : w.phase = .idle) (hseen : w.seen = some stop)
      (hreceive : Router.receive stop s.flow = some (.stopped, flow)) :
    Step store crew s (.quitRouter i)
      (settleEnds { s with flow, routers := s.routers.set i ⟨.stopped, none, none⟩ })
  | grant {i : ℕ} {w : Worker Router} {o : Order} {answer : Except Error Oracle.Answer}
      {c : Credit} {book : σ} (hw : s.routers[i]? = some w) (hphase : w.phase = .asking o)
      (hroute : (Route.ofAnswer store o answer).perform s.book = (.ok (.accrue c), book)) :
    Step store crew s (.answer i answer) { s with
      book
      routers := s.routers.set i ⟨.afterRoute (.accrue c), none, w.ticket⟩ }
  | finish {i : ℕ} {w : Worker Router} {o : Order} {answer : Except Error Oracle.Answer}
      {r : Except Fault Route} {book : σ} (hw : s.routers[i]? = some w)
      (hphase : w.phase = .asking o)
      (hroute : (Route.ofAnswer store o answer).perform s.book = (r, book))
      (hnone : ∀ c, r ≠ .ok (.accrue c)) :
    Step store crew s (.answer i answer) { s with
      book
      routers := s.routers.set i ⟨.afterRoute (r.toOption.getD .storeFailed), none, none⟩
      trail := s.trail.conclude .finished w.ticket }
  | forward {i : ℕ} {w : Worker Router} {stop : Bool} {c : Credit} {flow : Flow}
      (hw : s.routers[i]? = some w) (hphase : w.phase = .holding c) (hseen : w.seen = some stop)
      (hforward : Router.forward stop c s.flow = some (.idle, flow)) :
    Step store crew s (.forward i) { s with
      flow
      routers := s.routers.set i ⟨.idle, none, none⟩
      trail := s.trail.forward w.ticket }
  | abandon {i : ℕ} {w : Worker Router} {stop : Bool} {c : Credit} {flow : Flow}
      (hw : s.routers[i]? = some w) (hphase : w.phase = .holding c) (hseen : w.seen = some stop)
      (hforward : Router.forward stop c s.flow = some (.stopped, flow)) :
    Step store crew s (.abandon i) (settleEnds { s with
      flow
      routers := s.routers.set i ⟨.stopped, none, none⟩
      trail := s.trail.conclude .abandoned w.ticket })
  | lookSettler {i : ℕ} {w : Worker Settler} (hw : s.settlers[i]? = some w)
      (hphase : w.phase = .idle) (hseen : w.seen = none) : Step store crew s (.lookSettler i)
      { s with settlers := s.settlers.set i { w with seen := some s.requested } }
  | waitSettler {i : ℕ} {w : Worker Settler} {stop : Bool} (hw : s.settlers[i]? = some w)
      (hphase : w.phase = .idle) (hseen : w.seen = some stop)
      (hreceive : Settler.receive stop s.flow = none) :
    Step store crew s (.waitSettler i)
      { s with settlers := s.settlers.set i { w with seen := none } }
  | takeCredit {i : ℕ} {w : Worker Settler} {stop : Bool} {c : Credit} {flow : Flow}
      (hw : s.settlers[i]? = some w) (hphase : w.phase = .idle) (hseen : w.seen = some stop)
      (hreceive : Settler.receive stop s.flow = some (.applying c, flow)) :
    Step store crew s (.takeCredit i) { s with
      flow
      settlers := s.settlers.set i ⟨.applying c, none, s.trail.processing.head?⟩
      trail := s.trail.collect }
  | quitSettler {i : ℕ} {w : Worker Settler} {stop : Bool} {flow : Flow}
      (hw : s.settlers[i]? = some w) (hphase : w.phase = .idle) (hseen : w.seen = some stop)
      (hreceive : Settler.receive stop s.flow = some (.stopped, flow)) :
    Step store crew s (.quitSettler i)
      (settleEnds { s with flow, settlers := s.settlers.set i ⟨.stopped, none, none⟩ })
  | settle {i : ℕ} {w : Worker Settler} {c : Credit} {r : Settlement} {book : σ}
      (hw : s.settlers[i]? = some w) (hphase : w.phase = .applying c)
      (hsettle : (Settlement.apply store c).perform s.book = (.ok r, book)) :
    Step store crew s (.settle i) { s with
      book
      settlers := s.settlers.set i ⟨.afterApply (Except.ok r : Except Fault Settlement), none, none⟩
      trail := s.trail.conclude .applied w.ticket }
  | overflow {i : ℕ} {w : Worker Settler} {c : Credit} {e : Fault} {book : σ}
      (hw : s.settlers[i]? = some w) (hphase : w.phase = .applying c)
      (hsettle : (Settlement.apply store c).perform s.book = (.error e, book)) :
    Step store crew s (.overflow i) (settleEnds { s with
      book
      settlers := s.settlers.set i ⟨.afterApply (.error e : Except Fault Settlement), none, none⟩
      trail := s.trail.conclude .overflowed w.ticket })

/-- A run, with its labels, the first one first. -/
inductive Runs (store : Store σ) (crew : Crew) (s : Pipeline σ) :
    List Label → Pipeline σ → Prop where
  | nil : Runs store crew s [] s
  | snoc {ls : List Label} {l : Label} {t u : Pipeline σ} (hrun : Runs store crew s ls t)
      (hstep : Step store crew t l u) : Runs store crew s (ls ++ [l]) u

end Pipeline

/-! ## Room -/

/-- Whether a queue has this capacity and keeps to it. -/
def Queue.Fits {α : Type} (n : ℕ) (q : Queue α) : Prop := q.capacity = n ∧ q.size ≤ n

namespace Queue.Fits

variable {α : Type} {n : ℕ} {q : Queue α}

theorem push (h : q.Fits n) (hroom : q.items.length < q.capacity) (x : α) :
    ({ q with items := q.items ++ [x] } : Queue α).Fits n := by
  obtain ⟨hcapacity, -⟩ := h
  refine ⟨hcapacity, ?_⟩
  simp only [Queue.size, List.length_append, List.length_singleton]
  omega

theorem pop (h : q.Fits n) {x : α} {xs : List α} (hitems : q.items = x :: xs) :
    ({ q with items := xs } : Queue α).Fits n := by
  obtain ⟨hcapacity, hsize⟩ := h
  refine ⟨hcapacity, ?_⟩
  simp only [Queue.size, hitems, List.length_cons] at hsize
  exact Nat.le_of_succ_le hsize

end Queue.Fits

namespace Pipeline

variable {σ : Type} {store : Store σ} {crew : Crew} {s t u : Pipeline σ} {l : Label}

@[simp] theorem closeLost_items {α : Type} (s : Pipeline σ) (sender receiver : LineEnd)
    (q : Queue α) : (s.closeLost sender receiver q).items = q.items := by
  unfold closeLost
  split <;> rfl

@[simp] theorem closeLost_capacity {α : Type} (s : Pipeline σ) (sender receiver : LineEnd)
    (q : Queue α) : (s.closeLost sender receiver q).capacity = q.capacity := by
  unfold closeLost
  split <;> rfl

theorem closeLost_fits {α : Type} {n : ℕ} {q : Queue α} (h : q.Fits n) (s : Pipeline σ)
    (sender receiver : LineEnd) : (s.closeLost sender receiver q).Fits n := by
  simpa only [Queue.Fits, Queue.size, closeLost_capacity, closeLost_items] using h

/-- What an attempt to register can come to. -/
theorem tryRegister_cases {o : Order} {answer : Except Error Bool}
    (h : s.tryRegister o = (answer, t)) :
    (∃ q, answer = .ok true ∧ s.flow.intake.offer o = .taken q ∧ t = s.enter o q) ∨
      (answer = .ok false ∧ s.flow.intake.offer o = .full ∧ t = s) ∨
      (answer = .error .pipelineClosed ∧ s.flow.intake.offer o = .closed ∧ t = s) := by
  unfold tryRegister at h
  split at h
  · next q hoffer =>
    cases h
    exact .inl ⟨q, rfl, hoffer, rfl⟩
  · next hoffer =>
    cases h
    exact .inr (.inl ⟨rfl, hoffer, rfl⟩)
  · next hoffer =>
    cases h
    exact .inr (.inr ⟨rfl, hoffer, rfl⟩)

/-- Whether both queues have this capacity and keep to it. -/
structure Fits (n : ℕ) (s : Pipeline σ) : Prop where
  intake : s.flow.intake.Fits n
  processing : s.flow.processing.Fits n

theorem Fits.enter {n : ℕ} (h : s.Fits n) {o : Order} {q : Queue Order}
    (hoffer : s.flow.intake.offer o = .taken q) : (s.enter o q).Fits n := by
  obtain ⟨-, hroom, rfl⟩ := Queue.offer_eq_taken_iff.mp hoffer
  exact ⟨h.intake.push hroom o, h.processing⟩

theorem Fits.settleEnds {n : ℕ} (h : s.Fits n) : s.settleEnds.Fits n :=
  ⟨closeLost_fits h.intake s _ _, closeLost_fits h.processing s _ _⟩

theorem Step.fits {n : ℕ} (h : Step store crew s l t) (hs : s.Fits n) : t.Fits n := by
  cases h with
  | register hoffer => exact hs.enter hoffer
  | registerRefused => exact hs
  | tryRegister htry =>
    rcases tryRegister_cases htry with ⟨q, -, hoffer, rfl⟩ | ⟨-, -, rfl⟩ | ⟨-, -, rfl⟩
    · exact hs.enter hoffer
    · exact hs
    · exact hs
  | discard => exact Fits.settleEnds ⟨hs.intake, hs.processing⟩
  | takeOrder hw hphase hseen hreceive =>
    obtain ⟨-, os, hitems, rfl⟩ := Router.of_receive_asking hreceive
    exact ⟨hs.intake.pop hitems, hs.processing⟩
  | quitRouter hw hphase hseen hreceive =>
    obtain ⟨rfl, -⟩ := Router.of_receive_stopped hreceive
    exact Fits.settleEnds ⟨hs.intake, hs.processing⟩
  | forward hw hphase hseen hforward =>
    obtain ⟨-, hroom, rfl⟩ := Router.of_forward_idle hforward
    exact ⟨hs.intake, hs.processing.push hroom _⟩
  | abandon hw hphase hseen hforward =>
    obtain ⟨rfl, -⟩ := Router.of_forward_stopped hforward
    exact Fits.settleEnds ⟨hs.intake, hs.processing⟩
  | takeCredit hw hphase hseen hreceive =>
    obtain ⟨-, cs, hitems, rfl⟩ := Settler.of_receive_applying hreceive
    exact ⟨hs.intake, hs.processing.pop hitems⟩
  | quitSettler hw hphase hseen hreceive =>
    obtain ⟨rfl, -⟩ := Settler.of_receive_stopped hreceive
    exact Fits.settleEnds ⟨hs.intake, hs.processing⟩
  | overflow => exact Fits.settleEnds ⟨hs.intake, hs.processing⟩
  | _ => exact ⟨hs.intake, hs.processing⟩

end Pipeline

/-! ## The pipeline of a session

    A session runs its workers by the same functions, and tells those who wait. What it does to
    the queues when an order is offered, and when someone lets go of an end, is what is done
    here. -/

theorem Queue.close_of_closed {α : Type} {q : Queue α} (h : q.closed = true) : q.close = q := by
  cases q
  cases h
  rfl

namespace Simulation.World

@[simp] theorem wake_lines (id : ℕ) (w : World) : (w.wake id).lines = w.lines := by
  unfold wake
  split
  · rfl
  · split <;> rfl

@[simp] theorem wake_tasks (id : ℕ) (w : World) : (w.wake id).tasks = w.tasks := by
  unfold wake
  split
  · rfl
  · split <;> rfl

@[simp] theorem notify_lines (p : Place) (w : World) : (w.notify p).lines = w.lines := by
  unfold notify
  split
  · rw [wake_lines]
    rfl
  · rfl

theorem foldl_wake (ws : List Waiter) (w : World) :
    (ws.foldl (fun w x => w.wake x.task) w).lines = w.lines ∧
      (ws.foldl (fun w x => w.wake x.task) w).tasks = w.tasks := by
  induction ws generalizing w with
  | nil => exact ⟨rfl, rfl⟩
  | cons x ws ih => simpa using ih (w.wake x.task)

@[simp] theorem notifyAll_lines (p : Place) (w : World) : (w.notifyAll p).lines = w.lines :=
  (foldl_wake _ _).1

@[simp] theorem notifyAll_tasks (p : Place) (w : World) : (w.notifyAll p).tasks = w.tasks :=
  (foldl_wake _ _).2

theorem isHeld_congr {w w' : World} {i : ℕ} {l l' : Line} (hl : w.lines[i]? = some l)
    (hl' : w'.lines[i]? = some l') (hheld : l'.held = l.held) (htasks : w'.tasks = w.tasks)
    (e : LineEnd) : w'.isHeld i e = w.isHeld i e := by
  simp only [isHeld, line?, hl, hl', hheld, htasks]

end Simulation.World

namespace Pipeline

open Simulation (World Line)

variable {σ : Type} {s : Pipeline σ} {w : World} {line : Line}

/-- An order that is offered to the pipeline of a session is registered without waiting. -/
theorem tryRegister_eq_tryOffer (hline : w.lines[0]? = some line) (hflow : s.flow = line.flow)
    (o : Order) :
    ((World.tryOffer o).perform w).1 = (s.tryRegister o).1.mapError .error ∧
      (((World.tryOffer o).perform w).2.line? 0).map (·.flow) =
        some (s.tryRegister o).2.flow := by
  rw [World.tryOffer, Action.perform_ofFun, tryRegister, hflow]
  simp only [World.line?, hline]
  cases hoffer : line.flow.intake.offer o with
  | taken q =>
    refine ⟨rfl, ?_⟩
    simp [World.noteDepth, World.setFlow, World.modifyLine, hline, enter, hflow]
  | full => exact ⟨rfl, by simp [hline, hflow]⟩
  | closed => exact ⟨rfl, by simp [hline, hflow]⟩

theorem closeIfLost_intake (hline : w.lines[0]? = some line)
    (hheld : ∀ e, w.isHeld 0 e = s.holds e) :
    (w.closeIfLost 0 .intake).lines[0]? = some { line with flow := { line.flow with
      intake := s.closeLost .intakeSender .intakeReceiver line.flow.intake } } ∧
      (w.closeIfLost 0 .intake).tasks = w.tasks := by
  simp only [World.closeIfLost, World.line?, hline, hheld, closeLost]
  by_cases hends : (s.holds .intakeSender && s.holds .intakeReceiver) = true
  · simp [hends, hline]
  · cases hclosed : line.flow.intake.closed with
    | false => simp [hends, World.setFlow, World.modifyLine, hline]
    | true => simp [hends, hline, Queue.close_of_closed hclosed]

theorem closeIfLost_processing (hline : w.lines[0]? = some line)
    (hheld : ∀ e, w.isHeld 0 e = s.holds e) :
    (w.closeIfLost 0 .processing).lines[0]? = some { line with flow := { line.flow with
      processing :=
        s.closeLost .processingSender .processingReceiver line.flow.processing } } := by
  simp only [World.closeIfLost, World.line?, hline, hheld, closeLost]
  by_cases hends : (s.holds .processingSender && s.holds .processingReceiver) = true
  · simp [hends, hline]
  · cases hclosed : line.flow.processing.closed with
    | false => simp [hends, World.setFlow, World.modifyLine, hline]
    | true => simp [hends, hline, Queue.close_of_closed hclosed]

/-- The ends of a session's pipeline are settled in the same way when the same ends are held. -/
theorem settleEnds_eq_session (hline : w.lines[0]? = some line) (hflow : s.flow = line.flow)
    (hheld : ∀ e, w.isHeld 0 e = s.holds e) :
    (w.settleEnds 0).lines[0]? = some { line with flow := s.settleEnds.flow } := by
  obtain ⟨hintake, htasks⟩ := closeIfLost_intake hline hheld
  have hheld' : ∀ e, (w.closeIfLost 0 .intake).isHeld 0 e = s.holds e := fun e =>
    (World.isHeld_congr hline hintake rfl htasks e).trans (hheld e)
  rw [World.settleEnds, closeIfLost_processing hintake hheld', settleEnds, hflow]

end Pipeline

end LoyaltyPoints
