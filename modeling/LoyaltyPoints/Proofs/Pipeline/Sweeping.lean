import LoyaltyPoints.Pipeline.Sweep
import LoyaltyPoints.Proofs.Ledger.Listing
import LoyaltyPoints.Proofs.Pipeline.Worker

/-! # Pipeline: the sweeper among others

    A sweeper goes through the pending orders page by page, while orders come, are decided and are
    taken from the intake between any two of its calls. Where the intake is full it stops, and goes
    on from there in its next sweep.

    The others have a turn before each call, and a log keeps the pages that were listed. Two facts
    about it are kept by every sweep (`Scene.Sound.sweep`): a page shows the ledger of its time and
    its first orders are registered, and a page that does not come to the end leads to the next one,
    which is listed with the place that was reached. A sweep that fails has only listed. -/

namespace LoyaltyPoints

/-- The store that a part of a state is. -/
def Store.focus {σ τ : Type} (get : σ → τ) (set : τ → σ → σ) (s : Store τ) : Store σ where
  createOrder user number := .focus get set (s.createOrder user number)
  orderByNumber number := .focus get set (s.orderByNumber number)
  userOrder user number := .focus get set (s.userOrder user number)
  userOrders user := .focus get set (s.userOrders user)
  pendingOrders after limit := .focus get set (s.pendingOrders after limit)
  markOrders ids status := .focus get set (s.markOrders ids status)
  accrue c := .focus get set (s.accrue c)
  balance user := .focus get set (s.balance user)
  debit user number amount := .focus get set (s.debit user number amount)
  withdrawals user := .focus get set (s.withdrawals user)

theorem Order.Evolves.position_eq {o o' : Order} (h : o.Evolves o') : o'.position = o.position := by
  rw [Order.position, Order.position, h.uploadedAt_eq, h.id_eq]

namespace Sweep

/-! ## The others -/

/-- What somebody else does. -/
inductive Move where
  /-- Calls the ledger. -/
  | call (op : Operation)
  /-- Takes an order from the intake. -/
  | take
  /-- Gives an order to the intake, which may be full. -/
  | put (o : Order)

/-- What the others do before a call of the sweeper, and how the call fails if it is a listing that
    does. -/
structure Turn where
  moves : List Move := []
  failure : Option Error := none

section others

variable (supply : ℕ → Stamp)

/-- What a move does to the ledger and the intake. -/
def Move.act (m : Move) (s : LedgerState × Queue Order) : LedgerState × Queue Order :=
  match m with
  | .call op => ((op.perform (LedgerState.storeOf supply) s.1).2, s.2)
  | .take =>
    match s.2.pop? with
    | some (_, q) => (s.1, q)
    | none => s
  | .put o =>
    match s.2.offer o with
    | .taken q => (s.1, q)
    | _ => s

/-- What a turn does to the ledger and the intake. -/
def Turn.act (t : Turn) (s : LedgerState × Queue Order) : LedgerState × Queue Order :=
  t.moves.foldl (fun s m => m.act supply s) s

/-- What many turns do, the first one first. -/
def actAll (ts : List Turn) (s : LedgerState × Queue Order) : LedgerState × Queue Order :=
  ts.foldl (fun s t => t.act supply s) s

/-- What the others leave as it is: stored orders, and the intake open. -/
structure Keeps (s t : LedgerState × Queue Order) : Prop where
  persists : s.1.ledger.Persists t.1.ledger
  closed_eq : t.2.closed = s.2.closed

theorem Keeps.refl (s : LedgerState × Queue Order) : Keeps s s := ⟨.of_eq rfl, rfl⟩

theorem Keeps.trans {s t u : LedgerState × Queue Order} (hst : Keeps s t) (htu : Keeps t u) :
    Keeps s u :=
  ⟨hst.persists.trans htu.persists, htu.closed_eq.trans hst.closed_eq⟩

theorem Move.keeps (m : Move) (s : LedgerState × Queue Order) : Keeps s (m.act supply s) := by
  cases m with
  | call op => exact ⟨(Ledger.perform_effect supply op s.1).persists, rfl⟩
  | take =>
    simp only [Move.act]
    split
    · next hpop =>
      obtain ⟨os, -, rfl⟩ := Queue.pop?_eq_some_iff.mp hpop
      exact ⟨.of_eq rfl, rfl⟩
    · exact .refl s
  | put o =>
    simp only [Move.act]
    split
    · next hoffer =>
      obtain ⟨-, -, rfl⟩ := Queue.offer_eq_taken_iff.mp hoffer
      exact ⟨.of_eq rfl, rfl⟩
    · exact .refl s

theorem Turn.keeps (t : Turn) (s : LedgerState × Queue Order) : Keeps s (t.act supply s) := by
  unfold Turn.act
  induction t.moves generalizing s with
  | nil => exact .refl s
  | cons m ms ih => exact (m.keeps supply s).trans (ih (m.act supply s))

end others

/-! ## The sweeper among the others -/

/-- A page that the sweeper has listed. -/
structure Page where
  /-- The cursor it was listed with. -/
  after : Option Position
  /-- The ledger at that time. -/
  ledger : Ledger
  listed : List Order
  /-- The orders of it that the intake has taken. -/
  registered : List Order := []

/-- A ledger, the intake, a sweeper, and the others. -/
structure Scene where
  book : LedgerState
  intake : Queue Order
  cursor : Option Position := none
  /-- What the others are about to do, a turn before each call of the sweeper. -/
  turns : List Turn
  /-- The pages listed so far, the last one first. -/
  pages : List Page := []

namespace Scene

/-- A sweeper that has done nothing yet. -/
def start (book : LedgerState) (capacity : ℕ) (turns : List Turn) : Scene where
  book
  intake := .ofCapacity capacity
  turns

/-- The pages listed so far, the first one first. -/
def history (s : Scene) : List Page := s.pages.reverse

variable (supply : ℕ → Stamp)

/-- The others have their turn. -/
def next (s : Scene) : Scene :=
  match s.turns with
  | [] => s
  | t :: ts =>
    { s with
      book := (t.act supply (s.book, s.intake)).1
      intake := (t.act supply (s.book, s.intake)).2
      turns := ts }

/-- The sweeper lists a page. -/
def list (after : Option Position) (limit : ℤ) : Action Scene (List Order) := .ofFun fun s =>
  match s.turns.head?.bind (·.failure) with
  | some e => (.error (.error e), s.next supply)
  | none =>
    let s := s.next supply
    let (r, book) := ((LedgerState.storeOf supply).pendingOrders after limit).perform s.book
    match r with
    | .ok os => (.ok os, { s with book, pages := ⟨after, book.ledger, os, []⟩ :: s.pages })
    | .error f => (.error f, { s with book })

/-- Writes down that an order of the last page was taken. -/
def register (o : Order) : List Page → List Page
  | [] => []
  | p :: ps => { p with registered := p.registered ++ [o] } :: ps

/-- The sweeper offers an order to the intake. -/
def offer (o : Order) : Action Scene Bool := .ofFun fun s =>
  let s := s.next supply
  match s.intake.offer o with
  | .taken q => (.ok true, { s with intake := q, pages := register o s.pages })
  | .full => (.ok false, s)
  | .closed => (.error (.error .pipelineClosed), s)

/-- The ledger as the sweeper sees it. -/
def store : Store Scene :=
  { Store.focus Scene.book (fun b s => { s with book := b }) (LedgerState.storeOf supply) with
    pendingOrders := list supply }

/-- A sweep. The cursor stays where it is if the sweep fails. -/
def sweep (batch : ℤ) (s : Scene) : Except Fault Report × Scene :=
  match (once (store supply) (offer supply) batch s.cursor).perform s with
  | (.ok r, t) => (.ok r, { t with cursor := r.cursor })
  | (.error f, t) => (.error f, t)

/-- Sweeps, one after another. -/
def sweeps (batch : ℤ) : ℕ → Scene → Scene
  | 0, s => s
  | n + 1, s => ((sweeps batch n s).sweep supply batch).2

end Scene

/-! ## Pages and passes -/

namespace Page

/-- The page that a ledger shows. -/
def ofLedger (after : Option Position) (limit : ℤ) (l : Ledger) : Page where
  after
  ledger := l
  listed := l.pendingOrders after limit

/-- Whether the scan has come to its end: the page is shorter than a whole one, and all of it is
    registered. -/
def Ends (batch : ℤ) (p : Page) : Prop :=
  p.registered.length = p.listed.length ∧ (p.listed.length : ℤ) < batch

/-- The place up to which the scan has come. -/
def reached (p : Page) : Option Position := (p.registered.getLast?.map (·.position)).or p.after

/-- Whether the next page may be listed with a cursor: it is the place that was reached, unless the
    scan has come to its end. -/
def LeadsTo (batch : ℤ) (p : Page) (after : Option Position) : Prop :=
  ¬ p.Ends batch → ∀ x, p.reached = some x → after = some x

/-- Whether a page shows its ledger, and its first orders are registered. -/
def Genuine (batch : ℤ) (p : Page) : Prop :=
  p.listed = p.ledger.pendingOrders p.after batch ∧ p.registered <+: p.listed

end Page

/-- The orders that were registered, in this order. -/
def registered (pages : List Page) : List Order := pages.flatMap (·.registered)

/-! ## Calls of the sweeper -/

namespace Scene

variable (supply : ℕ → Stamp) {batch : ℤ} {s t : Scene}

theorem next_pages (s : Scene) : (s.next supply).pages = s.pages := by
  unfold next
  split <;> rfl

theorem next_cursor (s : Scene) : (s.next supply).cursor = s.cursor := by
  unfold next
  split <;> rfl

theorem next_keeps (s : Scene) :
    Keeps (s.book, s.intake) ((s.next supply).book, (s.next supply).intake) := by
  unfold next
  split
  · exact .refl _
  · exact Turn.keeps supply _ _

theorem store_pendingOrders : (store supply).pendingOrders = list supply := rfl

/-- A listing that does not fail shows what the ledger is when the others had their turn. -/
theorem list_perform (h : s.turns.head?.bind (·.failure) = none) (after : Option Position)
    (limit : ℤ) : (list supply after limit).perform s =
      (.ok (Page.ofLedger after limit (s.next supply).book.ledger).listed,
        { s.next supply with
          pages := .ofLedger after limit (s.next supply).book.ledger :: s.pages }) := by
  unfold list
  rw [Action.perform_ofFun, h, ← next_pages supply s]
  rfl

theorem list_cases (after : Option Position) (limit : ℤ) (s : Scene) :
    (∃ f, (list supply after limit).perform s = (.error f, s.next supply)) ∨
    (list supply after limit).perform s =
      (.ok (Page.ofLedger after limit (s.next supply).book.ledger).listed,
        { s.next supply with
          pages := .ofLedger after limit (s.next supply).book.ledger :: s.pages }) := by
  cases h : s.turns.head?.bind (·.failure) with
  | none => exact .inr (list_perform supply h after limit)
  | some e =>
    refine .inl ⟨.error e, ?_⟩
    unfold list
    rw [Action.perform_ofFun, h]

/-- An offer to an intake that is open is taken, or the intake is full. -/
theorem offer_cases (o : Order) (hopen : s.intake.closed = false) :
    (∃ q, (offer supply o).perform s =
        (.ok true, { s.next supply with intake := q, pages := register o s.pages }) ∧
      Keeps (s.book, s.intake) ((s.next supply).book, q)) ∨
    (offer supply o).perform s = (.ok false, s.next supply) := by
  have hkeeps := next_keeps supply s
  have hopen' : (s.next supply).intake.closed = false := hkeeps.closed_eq.trans hopen
  unfold offer
  rw [Action.perform_ofFun]
  cases hoffer : (s.next supply).intake.offer o with
  | taken q =>
    refine .inl ⟨q, by simp only [hoffer, next_pages], hkeeps.persists, ?_⟩
    obtain ⟨-, -, rfl⟩ := Queue.offer_eq_taken_iff.mp hoffer
    exact hkeeps.closed_eq
  | full => exact .inr (by simp only [hoffer])
  | closed =>
    rw [Queue.offer_eq_closed_iff.mp hoffer] at hopen'
    cases hopen'

/-- Of the orders that are offered the first ones are registered, of the last page. -/
theorem offerAll_perform (os : List Order) (last : Option Position)
    (hopen : s.intake.closed = false) {p : Page} {older : List Page}
    (hpages : s.pages = p :: older) :
    ∃ n t, (offerAll (offer supply) os last).perform s =
        (.ok (n, ((os.take n).getLast?.map (·.position)).or last), t) ∧ n ≤ os.length ∧
      t.pages = { p with registered := p.registered ++ os.take n } :: older ∧
      t.cursor = s.cursor ∧ Keeps (s.book, s.intake) (t.book, t.intake) := by
  induction os generalizing last s p with
  | nil =>
    refine ⟨0, s, rfl, le_rfl, ?_, rfl, .refl _⟩
    rw [hpages, List.take_nil, List.append_nil]
  | cons o os ih =>
    rcases offer_cases supply o hopen with ⟨q, hoffer, hkeeps⟩ | hoffer
    · obtain ⟨n, t, hall, hn, hpages', hcursor, hkeeps'⟩ :=
        ih (s := { s.next supply with intake := q, pages := register o s.pages })
          (some o.position) (hkeeps.closed_eq.trans hopen) (by rw [hpages]; rfl)
      refine ⟨n + 1, t, ?_, Nat.succ_le_succ hn, ?_, hcursor.trans (next_cursor supply s),
        hkeeps.trans hkeeps'⟩
      · simp only [offerAll, Action.perform_bind, hoffer, if_true, hall, Action.perform_pure,
          List.take_succ_cons, List.getLast?_cons]
        cases (os.take n).getLast? <;> rfl
      · rw [hpages', List.take_succ_cons, List.append_assoc]
        rfl
    · refine ⟨0, s.next supply, ?_, Nat.zero_le _, ?_, next_cursor supply s, next_keeps supply s⟩
      · simp only [offerAll, Action.perform_bind, hoffer, Bool.false_eq_true, if_false,
          Action.perform_pure]
        rfl
      · rw [next_pages, hpages, List.take_zero, List.append_nil]

/-! ## The invariant -/

/-- What holds between the calls of the sweeper. -/
structure Sound (batch : ℤ) (s : Scene) : Prop where
  isOpen : s.intake.closed = false
  genuine : ∀ p ∈ s.pages, p.Genuine batch
  linked : s.pages.IsChain fun q p => p.LeadsTo batch q.after
  ordered : s.pages.Pairwise fun q p => p.ledger.Persists q.ledger
  stored : ∀ p ∈ s.pages, p.ledger.Persists s.book.ledger

/-- What holds between sweeps beside that: the next page is listed with the right cursor. -/
def Resumes (batch : ℤ) (s : Scene) : Prop := ∀ p ∈ s.pages.head?, p.LeadsTo batch s.cursor

theorem sound_start (book : LedgerState) (capacity : ℕ) (turns : List Turn) :
    (start book capacity turns).Sound batch where
  isOpen := rfl
  genuine := by simp [start]
  linked := .nil
  ordered := .nil
  stored := by simp [start]

/-- Whatever keeps orders, and the pages, keeps all of it. -/
theorem Sound.keeps (h : s.Sound batch) (hpages : t.pages = s.pages)
    (hkeeps : Keeps (s.book, s.intake) (t.book, t.intake)) : t.Sound batch where
  isOpen := hkeeps.closed_eq.trans h.isOpen
  genuine := hpages ▸ h.genuine
  linked := hpages ▸ h.linked
  ordered := hpages ▸ h.ordered
  stored := by
    rw [hpages]
    exact fun p hp => (h.stored p hp).trans hkeeps.persists

theorem Sound.next (h : s.Sound batch) : (s.next supply).Sound batch :=
  h.keeps (next_pages supply s) (next_keeps supply s)

/-- A page may be listed with any cursor to which the last one leads. -/
theorem Sound.listed (h : s.Sound batch) {after : Option Position}
    (hlink : ∀ p ∈ s.pages.head?, p.LeadsTo batch after) :
    Sound batch { s with pages := .ofLedger after batch s.book.ledger :: s.pages } where
  isOpen := h.isOpen
  genuine := by
    intro p hp
    rcases List.mem_cons.mp hp with rfl | hp
    · exact ⟨rfl, List.nil_prefix⟩
    · exact h.genuine p hp
  linked := List.isChain_cons.mpr ⟨hlink, h.linked⟩
  ordered := List.pairwise_cons.mpr ⟨h.stored, h.ordered⟩
  stored := by
    intro p hp
    rcases List.mem_cons.mp hp with rfl | hp
    · exact .of_eq rfl
    · exact h.stored p hp

/-- The first orders of the last page may be registered. -/
theorem Sound.registered (h : s.Sound batch) {p : Page} {older : List Page} {os : List Order}
    (hpages : s.pages = p :: older) (hos : os <+: p.listed)
    (hpages' : t.pages = { p with registered := os } :: older)
    (hkeeps : Keeps (s.book, s.intake) (t.book, t.intake)) : t.Sound batch := by
  obtain ⟨hopen, hgenuine, hlinked, hordered, hstored⟩ := h
  rw [hpages] at hgenuine hlinked hordered hstored
  rw [List.forall_mem_cons] at hgenuine hstored
  rw [List.isChain_cons] at hlinked
  rw [List.pairwise_cons] at hordered
  refine ⟨hkeeps.closed_eq.trans hopen, ?_, ?_, ?_, ?_⟩
  · rw [hpages', List.forall_mem_cons]
    exact ⟨⟨hgenuine.1.1, hos⟩, hgenuine.2⟩
  · rw [hpages', List.isChain_cons]
    exact hlinked
  · rw [hpages', List.pairwise_cons]
    exact hordered
  · rw [hpages', List.forall_mem_cons]
    exact ⟨hstored.1.trans hkeeps.persists, fun q hq => (hstored.2 q hq).trans hkeeps.persists⟩

/-! ## Sweeps -/

/-- Whether nothing has happened between two scenes but turns of the others, and pages listed of
    which nothing was registered. -/
structure Idle (supply : ℕ → Stamp) (s t : Scene) : Prop where
  cursor_eq : t.cursor = s.cursor
  registered_eq : Sweep.registered t.history = Sweep.registered s.history
  acted : ∃ ts, s.turns = ts ++ t.turns ∧
    (t.book, t.intake) = actAll supply ts (s.book, s.intake)

theorem Idle.trans {supply : ℕ → Stamp} {u : Scene} (hst : Idle supply s t)
    (htu : Idle supply t u) : Idle supply s u where
  cursor_eq := htu.cursor_eq.trans hst.cursor_eq
  registered_eq := htu.registered_eq.trans hst.registered_eq
  acted := by
    obtain ⟨ts, hts, hact⟩ := hst.acted
    obtain ⟨us, hus, hact'⟩ := htu.acted
    refine ⟨ts ++ us, by rw [hts, hus, List.append_assoc], ?_⟩
    rw [hact', hact, actAll, actAll, actAll, List.foldl_append]

theorem Idle.next (s : Scene) : Idle supply s (s.next supply) where
  cursor_eq := next_cursor supply s
  registered_eq := by rw [history, next_pages, history]
  acted := by
    rcases s with ⟨book, intake, cursor, turns, pages⟩
    cases turns with
    | nil => exact ⟨[], rfl, rfl⟩
    | cons turn ts => exact ⟨[turn], rfl, rfl⟩

theorem Idle.listed (after : Option Position) (limit : ℤ) (s : Scene) :
    Idle supply s { s with pages := .ofLedger after limit s.book.ledger :: s.pages } where
  cursor_eq := rfl
  registered_eq := by simp [history, Sweep.registered, Page.ofLedger]
  acted := ⟨[], rfl, rfl⟩

/-- The end of the listing in a sweep: it has failed, or the last page is listed with the cursor or
    without any. -/
theorem page_perform (h : s.Sound batch) (hresumes : s.Resumes batch) (hbatch : 1 ≤ batch) :
    ∃ r t, (page (store supply) batch s.cursor).perform s = (r, t) ∧ Idle supply s t ∧
      t.Sound batch ∧ ((∃ f, r = .error f ∧ t.Resumes batch) ∨
        ∃ wrapped p older, r = .ok (wrapped, p.listed) ∧ t.pages = p :: older ∧
          p.registered = [] ∧ ∀ x, p.after = some x → s.cursor = some x) := by
  have hnext : (s.next supply).Sound batch := h.next supply
  have hlink : ∀ p ∈ (s.next supply).pages.head?, p.LeadsTo batch s.cursor := by
    rw [next_pages]
    exact hresumes
  rcases list_cases supply s.cursor batch s with ⟨f, hlist⟩ | hlist
  · refine ⟨.error f, s.next supply, ?_, .next supply s, hnext, .inl ⟨f, rfl, ?_⟩⟩
    · simp only [page, Action.perform_bind, store_pendingOrders, hlist]
    · rw [Resumes, next_cursor]
      exact hlink
  rw [← next_pages supply s] at hlist
  set p := Page.ofLedger s.cursor batch (s.next supply).book.ledger
  set u : Scene := { s.next supply with pages := p :: (s.next supply).pages }
  have hsound : u.Sound batch := hnext.listed hlink
  have hidle : Idle supply s u :=
    (Idle.next supply s).trans (.listed supply s.cursor batch (s.next supply))
  by_cases hwrap : (p.listed.isEmpty && s.cursor.isSome) = true
  · -- The page is empty, so the scan has come to its end and may go on from the start.
    have hends : p.Ends batch := by
      have hempty : p.listed = [] := List.isEmpty_iff.mp (Bool.and_eq_true_iff.mp hwrap).1
      refine ⟨by rw [hempty]; rfl, ?_⟩
      rw [hempty]
      exact_mod_cast hbatch
    have hlink' : ∀ after, ∀ q ∈ (u.next supply).pages.head?, q.LeadsTo batch after := by
      intro after q hq
      rw [next_pages] at hq
      cases hq
      exact fun hnot => absurd hends hnot
    rcases list_cases supply none batch u with ⟨f, hlist'⟩ | hlist'
    · refine ⟨.error f, u.next supply, ?_, hidle.trans (.next supply u), hsound.next supply,
        .inl ⟨f, rfl, hlink' _⟩⟩
      simp only [page, Action.perform_bind, store_pendingOrders, hlist, hwrap, if_true, hlist']
    · rw [← next_pages supply u] at hlist'
      have hidle' := (hidle.trans (.next supply u)).trans
        (.listed supply none batch (u.next supply))
      refine ⟨_, _, ?_, hidle', (hsound.next supply).listed (hlink' none),
        .inr ⟨true, _, _, rfl, rfl, rfl, by rintro x ⟨⟩⟩⟩
      simp only [page, Action.perform_bind, store_pendingOrders, hlist, hwrap, if_true, hlist',
        Action.perform_pure]
  · refine ⟨_, _, ?_, hidle, hsound, .inr ⟨false, p, _, rfl, rfl, rfl, fun x hx => hx⟩⟩
    simp only [page, Action.perform_bind, store_pendingOrders, hlist, hwrap, if_false,
      Bool.false_eq_true, Action.perform_pure]

/-- A sweep keeps all of it, and if it fails nothing has happened. -/
theorem Sound.sweep (h : s.Sound batch) (hresumes : s.Resumes batch) (hbatch : 1 ≤ batch) :
    (s.sweep supply batch).2.Sound batch ∧ (s.sweep supply batch).2.Resumes batch ∧
      ∀ f, (s.sweep supply batch).1 = .error f → Idle supply s (s.sweep supply batch).2 := by
  obtain ⟨r, t, hpage, hidle, hsound, hr⟩ := page_perform supply h hresumes hbatch
  rcases hr with ⟨f, rfl, ht⟩ | ⟨wrapped, p, older, rfl, hpages, hregistered, hafter⟩
  · have hsweep : s.sweep supply batch = (.error f, t) := by
      simp only [Scene.sweep, once, Action.perform_bind, hpage]
    rw [hsweep]
    exact ⟨hsound, ht, fun _ _ => hidle⟩
  · obtain ⟨n, u, hall, hn, hpages', hcursor, hkeeps⟩ :=
      offerAll_perform supply p.listed s.cursor hsound.isOpen hpages
    rw [hregistered, List.nil_append] at hpages'
    have hlength : (p.listed.take n).length = n := List.length_take_of_le hn
    have htaken : p.listed.take n <+: p.listed := List.take_prefix n _
    obtain ⟨cursor, hsweep, hexhausted⟩ : ∃ cursor, (s.sweep supply batch) =
        (.ok ⟨n, cursor, wrapped, !(n == p.listed.length)⟩, { u with cursor }) ∧
        (¬ Page.Ends batch { p with registered := p.listed.take n } →
          cursor = ((p.listed.take n).getLast?.map (·.position)).or s.cursor) := by
      refine ⟨if (n == p.listed.length && decide ((p.listed.length : ℤ) < batch)) = true then none
        else ((p.listed.take n).getLast?.map (·.position)).or s.cursor, ?_, ?_⟩
      · simp only [Scene.sweep, once, Action.perform_bind, hpage, hall, Action.perform_pure]
      · intro hends
        refine if_neg ?_
        intro hexhausted
        simp only [Bool.and_eq_true, beq_iff_eq, decide_eq_true_eq] at hexhausted
        exact hends ⟨hlength.trans hexhausted.1, hexhausted.2⟩
    rw [hsweep]
    have hu : u.Sound batch := hsound.registered hpages htaken hpages' hkeeps
    refine ⟨hu.keeps rfl (.refl _), ?_, by rintro f ⟨⟩⟩
    -- What the page has reached is the new cursor, which the page itself was listed with if nothing
    -- of it was registered.
    intro q hq hends x hx
    rw [hpages'] at hq
    cases hq
    rw [hexhausted hends]
    cases hlast : (p.listed.take n).getLast? with
    | some o => simpa [Page.reached, hlast] using hx
    | none =>
      have hx : p.after = some x := by simpa [Page.reached, hlast] using hx
      simp [hafter x hx]

theorem Sound.sweeps (h : s.Sound batch) (hresumes : s.Resumes batch) (hbatch : 1 ≤ batch)
    (n : ℕ) : (s.sweeps supply batch n).Sound batch ∧ (s.sweeps supply batch n).Resumes batch := by
  induction n with
  | zero => exact ⟨h, hresumes⟩
  | succ n ih =>
    obtain ⟨hsound, hresumes, -⟩ := ih.1.sweep supply ih.2 hbatch
    exact ⟨hsound, hresumes⟩

end Scene

end Sweep

end LoyaltyPoints
