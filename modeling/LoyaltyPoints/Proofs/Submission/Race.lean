import LoyaltyPoints.Proofs.Ledger.Settlement
import LoyaltyPoints.Proofs.Pipeline.System

/-! # Submission: one winner for each number

    Looking a number up and storing an order under it are two calls, so many clients can find the
    same number free. What decides is the store: it takes one order for each number, and whoever
    comes too late reads the number again and learns whose it is.

    Two invariants carry the argument. Where a client stands is backed by the ledger: a refusal
    names an order that is there (`Phase.Backed`). And of the clients with a number that was free,
    as many have stored their order as there are orders with it, which is one at most. -/

namespace LoyaltyPoints

/-! ## The order of a number -/

namespace Ledger

/-- The order with a number is the same one later. -/
theorem Persists.orderByNumber {l l' : Ledger} (h : l.Persists l') {number : String} {o : Order}
    (ho : l.orderByNumber number = some o) :
    ∃ o', l'.orderByNumber number = some o' ∧ o.Evolves o' := by
  obtain ⟨hnumber, i, hi, hio, hbefore⟩ := List.find?_eq_some_iff_getElem.mp ho
  obtain ⟨o', ho', hevolves⟩ := h i o (by rw [List.getElem?_eq_getElem hi, hio])
  obtain ⟨hi', hio'⟩ := List.getElem?_eq_some_iff.mp ho'
  refine ⟨o', ?_, hevolves⟩
  refine List.find?_eq_some_iff_getElem.mpr ⟨by rwa [hevolves.number_eq], i, hi', hio', ?_⟩
  intro j hj
  -- The orders in front of it are there too, and keep their numbers.
  obtain ⟨x, hx, hevolves⟩ := h j _ (List.getElem?_eq_getElem (hj.trans hi))
  obtain ⟨hj', rfl⟩ := List.getElem?_eq_some_iff.mp hx
  rw [hevolves.number_eq]
  exact hbefore j hj

/-- The number of orders with a number. -/
def countOf (number : String) (l : Ledger) : ℕ := l.orders.countP (·.number == number)

theorem countOf_eq {l l' : Ledger} (h : l'.orders.map (·.number) = l.orders.map (·.number))
    (number : String) : l'.countOf number = l.countOf number := by
  have hcount : ∀ l : Ledger,
      l.countOf number = (l.orders.map (·.number)).countP (· == number) := by
    intro l
    rw [countOf, List.countP_map]
    rfl
  rw [hcount, hcount, h]

theorem countOf_eq_zero_iff {number : String} {l : Ledger} :
    l.countOf number = 0 ↔ l.orderByNumber number = none := by
  simp [countOf, orderByNumber]

theorem countOf_pos {number : String} {l : Ledger} {o : Order}
    (h : l.orderByNumber number = some o) : 0 < l.countOf number := by
  refine Nat.pos_of_ne_zero fun hzero => ?_
  rw [countOf_eq_zero_iff.mp hzero] at h
  cases h

/-- The ledger with a fresh order. -/
def stored (s : Stamp) (user number : String) (l : Ledger) : Ledger :=
  { l with orders := l.orders ++ [Order.submitted s.recordId user number s.now] }

theorem countOf_stored (s : Stamp) (user number n : String) (l : Ledger) :
    (l.stored s user number).countOf n = l.countOf n + if number = n then 1 else 0 := by
  simp [stored, countOf, Order.submitted, List.countP_append, List.countP_singleton]

theorem orderByNumber_stored (s : Stamp) (user : String) {number : String} {l : Ledger}
    (h : l.orderByNumber number = none) : (l.stored s user number).orderByNumber number =
      some (Order.submitted s.recordId user number s.now) := by
  have hfind : l.orders.find? (·.number == number) = none := h
  simp [stored, orderByNumber, hfind, Order.submitted]

theorem Persists.stored (s : Stamp) (user number : String) (l : Ledger) :
    l.Persists (l.stored s user number) := by
  intro i o ho
  have hi : i < l.orders.length := (List.getElem?_eq_some_iff.mp ho).1
  exact ⟨o, by rw [Ledger.stored, List.getElem?_append_left hi, ho], .refl o⟩

end Ledger

/-- A call that stores an order under a number. -/
def Operation.Stores (op : Operation) (user number : String) : Prop :=
  op = .submit user number ∨ op = .createOrder user number

/-- All other calls leave the numbers as they are. -/
theorem Ledger.Effect.numbers_eq {l l' : Ledger} {op : Operation} {answer : Except Fault Reply}
    (h : Effect l op answer l') (hop : ∀ user number, ¬ op.Stores user number) :
    l'.orders.map (·.number) = l.orders.map (·.number) := by
  cases h with
  | quiet => rfl
  | opened => simp
  | stored s user number hstores => exact absurd hstores (hop user number)
  | marked ids status => exact map_marked (fun _ _ => rfl) ids status l
  | credited s c o sum ho => rw [credited_orders, map_settled rfl ho]
  | creditLost s c o e ho => rw [openBalance_orders, map_settled rfl ho]
  | paid => simp
  | restLost => simp
  | sumLost => simp

namespace Submission

/-! ## Where a client stands -/

/-- The order that a client has stored. -/
def Phase.stored? : Phase → Option Order
  | .register o | .done (.ok o) => some o
  | _ => none

/-- The order that a client was told is accepted. -/
def Phase.accepted? : Phase → Option Order
  | .done (.ok o) => some o
  | _ => none

/-- What the ledger shows where a client stands. -/
inductive Phase.Backed (user number : String) (l : Ledger) : Phase → Prop where
  | lookUp : Backed user number l .lookUp
  | insert : Backed user number l .insert
  | reread {o : Order} (ho : l.orderByNumber number = some o) : Backed user number l .reread
  | register {o o' : Order} (huser : o.user = user) (hnumber : o.number = number)
      (ho : l.orderByNumber number = some o') (hevolves : o.Evolves o') :
      Backed user number l (.register o)
  | accepted {o o' : Order} (huser : o.user = user) (hnumber : o.number = number)
      (ho : l.orderByNumber number = some o') (hevolves : o.Evolves o') :
      Backed user number l (.done (.ok o))
  | refused {o : Order} (ho : l.orderByNumber number = some o) :
      Backed user number l (.done (.error (.error (conflict o user))))
  | invalid (hvalid : OrderNumber.isValid number = false) :
      Backed user number l (.done (.error (.error (.invalidOrderNumber number))))

theorem Phase.backed_start (user number : String) (l : Ledger) :
    (start number).Backed user number l := by
  unfold start
  split
  · exact .lookUp
  · next h => exact .invalid (by simpa using h)

theorem Phase.stored?_start (number : String) : (start number).stored? = none := by
  unfold start
  split <;> rfl

/-- A refusal depends on what never changes of an order. -/
theorem conflict_eq_of_evolves {o o' : Order} (h : o.Evolves o') (user : String) :
    conflict o' user = conflict o user := by
  rw [conflict, conflict, h.user_eq, h.number_eq]

/-- What backs a client stays in the ledger. -/
theorem Phase.Backed.mono {user number : String} {l l' : Ledger} {p : Phase}
    (h : p.Backed user number l) (hl : l.Persists l') : p.Backed user number l' := by
  cases h with
  | lookUp => exact .lookUp
  | insert => exact .insert
  | reread ho =>
    obtain ⟨o', ho', -⟩ := hl.orderByNumber ho
    exact .reread ho'
  | register huser hnumber ho hevolves =>
    obtain ⟨o', ho', hevolves'⟩ := hl.orderByNumber ho
    exact .register huser hnumber ho' (hevolves.trans hevolves')
  | accepted huser hnumber ho hevolves =>
    obtain ⟨o', ho', hevolves'⟩ := hl.orderByNumber ho
    exact .accepted huser hnumber ho' (hevolves.trans hevolves')
  | refused ho =>
    obtain ⟨o', ho', hevolves⟩ := hl.orderByNumber ho
    rw [← conflict_eq_of_evolves hevolves]
    exact .refused ho'
  | invalid hvalid => exact .invalid hvalid

/-- What a client's call does, by where the client stands and what the ledger has of the number. -/
inductive Turns (user number : String) (l l' : Ledger) : Phase → Phase → Prop where
  | free (hnone : l.orderByNumber number = none) (hl : l' = l) :
      Turns user number l l' .lookUp .insert
  | found {o : Order} (ho : l.orderByNumber number = some o) (hl : l' = l) :
      Turns user number l l' .lookUp (.done (.error (.error (conflict o user))))
  | stored (s : Stamp) (hnone : l.orderByNumber number = none) (hl : l' = l.stored s user number) :
      Turns user number l l' .insert (.register (Order.submitted s.recordId user number s.now))
  | late {o : Order} (ho : l.orderByNumber number = some o) (hl : l' = l) :
      Turns user number l l' .insert .reread
  | reread {o : Order} (ho : l.orderByNumber number = some o) (hl : l' = l) :
      Turns user number l l' .reread (.done (.error (.error (conflict o user))))
  | gone (hnone : l.orderByNumber number = none) (hl : l' = l) :
      Turns user number l l' .reread (.done (.error (.error (.duplicateOrderNumber number))))
  | register (o : Order) (hl : l' = l) : Turns user number l l' (.register o) (.register o)
  | done (r : Except Fault Order) (hl : l' = l) : Turns user number l l' (.done r) (.done r)

theorem turns_of_step {supply : ℕ → Stamp} {user number : String} {phase phase' : Phase}
    {book book' : LedgerState}
    (h : step (LedgerState.storeOf supply) user number phase book = (phase', book')) :
    Turns user number book.ledger book'.ledger phase phase' := by
  have hlookUp : ((LedgerState.storeOf supply).orderByNumber number).perform book =
      (.ok (book.ledger.orderByNumber number), book) := rfl
  have hcreate : ((LedgerState.storeOf supply).createOrder user number).perform book =
      ((book.ledger.createOrder (supply book.stamps) user number).1,
        ⟨(book.ledger.createOrder (supply book.stamps) user number).2, book.stamps + 1⟩) := rfl
  cases phase with
  | lookUp =>
    cases ho : book.ledger.orderByNumber number with
    | none =>
      simp only [step, hlookUp, ho, Prod.mk.injEq] at h
      obtain ⟨rfl, rfl⟩ := h
      exact .free ho rfl
    | some o =>
      simp only [step, hlookUp, ho, Prod.mk.injEq] at h
      obtain ⟨rfl, rfl⟩ := h
      exact .found ho rfl
  | insert =>
    rcases book.ledger.createOrder_cases (supply book.stamps) user number with
      ⟨hnone, hstored⟩ | ⟨o, ho, hrefused⟩
    · simp only [step, hcreate, hstored, Prod.mk.injEq] at h
      obtain ⟨rfl, rfl⟩ := h
      exact .stored (supply book.stamps) hnone rfl
    · simp only [step, hcreate, hrefused, Prod.mk.injEq] at h
      obtain ⟨rfl, rfl⟩ := h
      exact .late ho rfl
  | reread =>
    cases ho : book.ledger.orderByNumber number with
    | none =>
      simp only [step, hlookUp, ho, Prod.mk.injEq] at h
      obtain ⟨rfl, rfl⟩ := h
      exact .gone ho rfl
    | some o =>
      simp only [step, hlookUp, ho, Prod.mk.injEq] at h
      obtain ⟨rfl, rfl⟩ := h
      exact .reread ho rfl
  | register o =>
    cases h
    exact .register o rfl
  | done r =>
    cases h
    exact .done r rfl

/-- A client's call stores its order under a number that is free, or it writes nothing, and the
    client has stored its order if it had before. -/
theorem step_cases {supply : ℕ → Stamp} {user number : String} {phase phase' : Phase}
    {book book' : LedgerState}
    (h : step (LedgerState.storeOf supply) user number phase book = (phase', book'))
    (hbacked : phase.Backed user number book.ledger) :
    (phase.stored? = none ∧ book.ledger.orderByNumber number = none ∧
      ∃ s : Stamp, phase' = .register (Order.submitted s.recordId user number s.now) ∧
        book'.ledger = book.ledger.stored s user number) ∨
    (book'.ledger = book.ledger ∧ phase'.stored? = phase.stored? ∧
      phase'.accepted? = phase.accepted? ∧ phase'.Backed user number book.ledger) := by
  cases turns_of_step h with
  | free hnone hl => exact .inr ⟨hl, rfl, rfl, .insert⟩
  | found ho hl => exact .inr ⟨hl, rfl, rfl, .refused ho⟩
  | stored s hnone hl => exact .inl ⟨rfl, hnone, s, rfl, hl⟩
  | late ho hl => exact .inr ⟨hl, rfl, rfl, .reread ho⟩
  | reread ho hl => exact .inr ⟨hl, rfl, rfl, .refused ho⟩
  | gone hnone =>
    -- Who reads the number again has been told that it is there.
    cases hbacked with
    | reread ho =>
      rw [hnone] at ho
      cases ho
  | register o hl => exact .inr ⟨hl, rfl, rfl, hbacked⟩
  | done r hl => exact .inr ⟨hl, rfl, rfl, hbacked⟩

/-! ## The race -/

/-- Clients on one ledger, and what they have given to the intake. -/
structure Race where
  book : LedgerState
  clients : List Client
  /-- The orders given to the intake, the first one first, each with the number of its client. -/
  handed : List (ℕ × Order)

namespace Race

/-- A ledger on which nobody submits anything yet. -/
def start (book : LedgerState) : Race := ⟨book, [], []⟩

/-- One step. The clients come and act in any order, and so do those who write to the ledger
    without storing orders. -/
inductive Step (supply : ℕ → Stamp) (r : Race) : Race → Prop where
  /-- A client comes with an order number. -/
  | enter (user number : String) :
    Step supply r { r with clients := r.clients ++ [⟨user, number, Submission.start number⟩] }
  /-- A client makes its next call of the ledger. -/
  | call {i : ℕ} {c : Client} {phase : Phase} {book : LedgerState}
      (hclient : r.clients[i]? = some c)
      (hstep : step (LedgerState.storeOf supply) c.user c.number c.phase r.book = (phase, book)) :
    Step supply r { r with book, clients := r.clients.set i { c with phase } }
  /-- A client gives its order to the intake. It is done whatever the intake answers. -/
  | handOver {i : ℕ} {c : Client} {o : Order} (hclient : r.clients[i]? = some c)
      (hphase : c.phase = .register o) :
    Step supply r { r with
      clients := r.clients.set i { c with phase := .done (.ok o) }
      handed := r.handed ++ [(i, o)] }
  /-- A worker marks orders or applies a credit, or a user withdraws or reads. -/
  | other {op : Operation} (hop : ∀ user number, ¬ op.Stores user number) :
    Step supply r { r with book := (op.perform (LedgerState.storeOf supply) r.book).2 }

/-- Any number of steps. -/
abbrev Steps (supply : ℕ → Stamp) : Race → Race → Prop := Relation.ReflTransGen (Step supply)

/-- The orders that a client has given to the intake. -/
def handedBy (i : ℕ) (r : Race) : List Order := (r.handed.filter (·.1 == i)).map (·.2)

/-- Whether a client has stored an order under a number. -/
def hasStored (number : String) (c : Client) : Bool :=
  c.number == number && c.phase.stored?.isSome

/-- What holds at any time for a number that was free. -/
structure Sound (number : String) (r : Race) : Prop where
  backed : ∀ c ∈ r.clients, c.phase.Backed c.user c.number r.book.ledger
  handedBy_eq : ∀ i, r.handedBy i = ((r.clients[i]?).bind (·.phase.accepted?)).toList
  countP_eq : r.clients.countP (hasStored number) = r.book.ledger.countOf number
  countOf_le : r.book.ledger.countOf number ≤ 1

theorem sound_start {number : String} {book : LedgerState}
    (h : book.ledger.orderByNumber number = none) : (start book).Sound number where
  backed := by simp [start]
  handedBy_eq := by simp [start, handedBy]
  countP_eq := (Ledger.countOf_eq_zero_iff.mpr h).symm
  countOf_le := (Ledger.countOf_eq_zero_iff.mpr h).trans_le zero_le_one

section step

variable {supply : ℕ → Stamp} {number : String} {r : Race}

/-- A client changes its phase, while the ledger goes on. -/
theorem Sound.backed_set {i : ℕ} {c : Client} {phase : Phase} {l : Ledger} (h : r.Sound number)
    (hl : r.book.ledger.Persists l) (hphase : phase.Backed c.user c.number l) :
    ∀ d ∈ r.clients.set i { c with phase }, d.phase.Backed d.user d.number l := by
  intro d hd
  rcases List.mem_or_eq_of_mem_set hd with hd | rfl
  · exact (h.backed d hd).mono hl
  · exact hphase

/-- A client that changes its phase changes the count of those that have stored an order. -/
theorem countP_set (number : String) {i : ℕ} {c : Client} (hclient : r.clients[i]? = some c)
    (phase : Phase) :
    (r.clients.set i { c with phase }).countP (hasStored number) +
        (if hasStored number c then 1 else 0) =
      r.clients.countP (hasStored number) +
        if hasStored number { c with phase } then 1 else 0 := by
  obtain ⟨hi, rfl⟩ := List.getElem?_eq_some_iff.mp hclient
  rw [List.countP_set hi]
  have hpos : (if hasStored number r.clients[i] then 1 else 0) ≤
      r.clients.countP (hasStored number) := by
    split
    · next h => exact List.countP_pos_iff.mpr ⟨_, List.getElem_mem hi, h⟩
    · exact Nat.zero_le _
  omega

/-- A client that is not told that its order is accepted gives nothing to the intake. -/
theorem Sound.handedBy_set {i : ℕ} {c : Client} {phase : Phase} (h : r.Sound number)
    (hclient : r.clients[i]? = some c) (hphase : phase.accepted? = c.phase.accepted?) (j : ℕ) :
    r.handedBy j =
      (((r.clients.set i { c with phase })[j]?).bind (·.phase.accepted?)).toList := by
  rw [h.handedBy_eq j, List.getElem?_set]
  split
  · next hij =>
    subst hij
    rw [if_pos (List.getElem?_eq_some_iff.mp hclient).1, hclient, Option.bind_some,
      Option.bind_some, hphase]
  · rfl

theorem Sound.enter (h : r.Sound number) (user n : String) :
    Sound number { r with clients := r.clients ++ [⟨user, n, Submission.start n⟩] } where
  backed := by
    intro c hc
    rcases List.mem_append.mp hc with hc | hc
    · exact h.backed c hc
    · rw [List.mem_singleton.mp hc]
      exact Phase.backed_start user n r.book.ledger
  handedBy_eq := by
    intro i
    have hstart : (Submission.start n).accepted? = none := by
      unfold Submission.start
      split <;> rfl
    refine (h.handedBy_eq i).trans ?_
    rcases Nat.lt_trichotomy i r.clients.length with hi | rfl | hi
    · rw [List.getElem?_append_left hi]
    · simp [hstart]
    · rw [List.getElem?_eq_none hi.le, List.getElem?_eq_none (by simpa using hi)]
  countP_eq := by
    have hnew : hasStored number ⟨user, n, Submission.start n⟩ = false := by
      simp [hasStored, Phase.stored?_start]
    rw [List.countP_append, List.countP_singleton, hnew]
    exact h.countP_eq
  countOf_le := h.countOf_le

/-- Only a call that stores an order is noticed by others, and it finds its number free. -/
theorem Sound.call (h : r.Sound number) {i : ℕ} {c : Client} {phase : Phase} {book : LedgerState}
    (hclient : r.clients[i]? = some c)
    (hstep : step (LedgerState.storeOf supply) c.user c.number c.phase r.book = (phase, book)) :
    Sound number { r with book, clients := r.clients.set i { c with phase } } := by
  have hbacked := h.backed c (List.mem_of_getElem? hclient)
  have hcount := countP_set number hclient phase
  rw [h.countP_eq] at hcount
  rcases step_cases hstep hbacked with ⟨hnot, hfree, s, rfl, hbook⟩ | ⟨hbook, hsame, hacc, hphase⟩
  · have hpersists : r.book.ledger.Persists book.ledger := hbook ▸ .stored s c.user c.number _
    have hbefore : hasStored number c = false := by simp [hasStored, hnot]
    have hafter : hasStored number { c with
        phase := .register (Order.submitted s.recordId c.user c.number s.now) } =
        decide (c.number = number) := by
      simp [hasStored, Phase.stored?, beq_eq_decide]
    have hcountOf := Ledger.countOf_stored s c.user c.number number r.book.ledger
    rw [← hbook] at hcountOf
    simp only [hbefore, hafter, decide_eq_true_eq, Bool.false_eq_true, if_false] at hcount
    exact {
      backed := h.backed_set hpersists (.register rfl rfl
        (hbook ▸ Ledger.orderByNumber_stored s c.user hfree) (.refl _))
      handedBy_eq := by
        refine h.handedBy_set hclient ?_
        cases hphase : c.phase with
        | done x => cases x with
          | ok o => simp [hphase, Phase.stored?] at hnot
          | error e => rfl
        | _ => rfl
      countP_eq := hcount.trans hcountOf.symm
      countOf_le := by
        rw [hcountOf]
        split
        · next hn =>
          rw [hn] at hfree
          rw [Ledger.countOf_eq_zero_iff.mpr hfree]
        · exact h.countOf_le }
  · have hsame : hasStored number { c with phase } = hasStored number c := by
      simp [hasStored, hsame]
    rw [hsame] at hcount
    exact {
      backed := h.backed_set (.of_eq (congrArg Ledger.orders hbook)) (hbook ▸ hphase)
      handedBy_eq := h.handedBy_set hclient hacc
      countP_eq := by
        show _ = book.ledger.countOf number
        rw [hbook]
        exact Nat.add_right_cancel hcount
      countOf_le := by
        show book.ledger.countOf number ≤ 1
        rw [hbook]
        exact h.countOf_le }

/-- A client gives its order away once: it is accepted then. -/
theorem Sound.handOver (h : r.Sound number) {i : ℕ} {c : Client} {o : Order}
    (hclient : r.clients[i]? = some c) (hphase : c.phase = .register o) :
    Sound number { r with
      clients := r.clients.set i { c with phase := .done (.ok o) }
      handed := r.handed ++ [(i, o)] } where
  backed := by
    have hbacked := h.backed c (List.mem_of_getElem? hclient)
    rw [hphase] at hbacked
    cases hbacked with
    | register huser hnumber ho hevolves =>
      exact h.backed_set (.of_eq rfl) (.accepted huser hnumber ho hevolves)
  handedBy_eq := by
    intro j
    have hi := (List.getElem?_eq_some_iff.mp hclient).1
    have hj := h.handedBy_eq j
    unfold handedBy at hj ⊢
    simp only [List.filter_append, List.map_append, hj]
    rw [List.getElem?_set]
    by_cases hij : i = j
    · subst hij
      rw [if_pos rfl, if_pos hi, hclient, Option.bind_some, Option.bind_some, hphase]
      simp [Phase.accepted?]
    · simp [hij]
  countP_eq := by
    have hcount := countP_set number hclient (.done (.ok o))
    have hsame : hasStored number { c with phase := .done (.ok o) } = hasStored number c := by
      simp [hasStored, hphase, Phase.stored?]
    rw [hsame] at hcount
    exact (Nat.add_right_cancel hcount).trans h.countP_eq
  countOf_le := h.countOf_le

theorem Sound.step (h : r.Sound number) {r' : Race} (hstep : Step supply r r') :
    r'.Sound number := by
  cases hstep with
  | enter user n => exact h.enter user n
  | call hclient hstep => exact h.call hclient hstep
  | handOver hclient hphase => exact h.handOver hclient hphase
  | other hop =>
    rename_i op
    have heffect := Ledger.perform_effect supply op r.book
    have hcount := Ledger.countOf_eq (heffect.numbers_eq hop) number
    exact {
      backed := fun c hc => (h.backed c hc).mono heffect.persists
      handedBy_eq := h.handedBy_eq
      countP_eq := h.countP_eq.trans hcount.symm
      countOf_le := hcount.trans_le h.countOf_le }

theorem Sound.steps (h : r.Sound number) {r' : Race} (hsteps : Steps supply r r') :
    r'.Sound number := by
  induction hsteps with
  | refl => exact h
  | tail _ hstep ih => exact ih.step hstep

end step

/-! ## The winner -/

/-- Whether a client has submitted a number and got this result. -/
def Finished (number : String) (i : ℕ) (c : Client) (result : Except Fault Order) (r : Race) :
    Prop :=
  r.clients[i]? = some c ∧ c.number = number ∧ c.phase = .done result

/-- How it stands with a number that was free. -/
structure OneWinner (number : String) (r : Race) : Prop where
  /-- No two clients are accepted. -/
  accepted_unique : ∀ i j c d o p, r.Finished number i c (.ok o) →
    r.Finished number j d (.ok p) → i = j
  /-- One is accepted once all are done. -/
  accepted_exists : (∃ c ∈ r.clients, c.number = number) →
    (∀ c ∈ r.clients, c.number = number → ∃ x, c.phase = .done x) →
    ∃ i c o, r.Finished number i c (.ok o)
  /-- Whoever is accepted owns the only order with the number. -/
  accepted_stored : ∀ i c o, r.Finished number i c (.ok o) → o.user = c.user ∧
    ∃ o', r.book.ledger.orders.filter (·.number == number) = [o'] ∧ o'.id = o.id ∧
      o'.user = c.user
  /-- All others are told whose the order is. -/
  refused : ∀ i c f, r.Finished number i c (.error f) →
    ∃ o, r.book.ledger.orders.filter (·.number == number) = [o] ∧
      f = .error (if o.user = c.user then .alreadyAccepted number else .alreadyRegistered number)
  /-- Nobody is told of the race. -/
  not_duplicate : ∀ c ∈ r.clients, ∀ n, c.phase ≠ .done (.error (.error (.duplicateOrderNumber n)))
  /-- Whoever is accepted gives one order to the intake, and nobody else gives any. -/
  handed : ∀ i c, r.clients[i]? = some c → r.handedBy i = c.phase.accepted?.toList

/-- A list that at most one element of has a property has it in one place. -/
theorem eq_of_countP_le_one {α : Type} {p : α → Bool} {xs : List α} (h : xs.countP p ≤ 1)
    {i j : ℕ} {x y : α} (hx : xs[i]? = some x) (hy : xs[j]? = some y) (hpx : p x = true)
    (hpy : p y = true) : i = j := by
  -- Of two places one is the first, and it lies in a front part that the other is behind.
  have hlt : ∀ {i j : ℕ} {x y : α}, xs[i]? = some x → xs[j]? = some y → p x = true → p y = true →
      ¬ i < j := by
    intro i j x y hx hy hpx hpy hij
    have hfront : 0 < (xs.take j).countP p := by
      refine List.countP_pos_iff.mpr ⟨x, List.mem_of_getElem? (i := i) ?_, hpx⟩
      rw [List.getElem?_take_of_lt hij, hx]
    have hback : 0 < (xs.drop j).countP p := by
      refine List.countP_pos_iff.mpr ⟨y, List.mem_of_getElem? (i := 0) ?_, hpy⟩
      rw [List.getElem?_drop, Nat.add_zero, hy]
    have hsum : (xs.take j).countP p + (xs.drop j).countP p = xs.countP p := by
      rw [← List.countP_append, List.take_append_drop]
    omega
  exact Nat.le_antisymm (not_lt.mp (hlt hy hx hpy hpx)) (not_lt.mp (hlt hx hy hpx hpy))

section winner

variable {number : String} {r : Race}

/-- The order that a look-up finds is the only one with its number. -/
theorem Sound.filter_eq (h : r.Sound number) {o : Order}
    (ho : r.book.ledger.orderByNumber number = some o) :
    r.book.ledger.orders.filter (·.number == number) = [o] := by
  have hone : (r.book.ledger.orders.filter (·.number == number)).length = 1 := by
    rw [← List.countP_eq_length_filter]
    exact Nat.le_antisymm h.countOf_le (Ledger.countOf_pos ho)
  obtain ⟨x, hx⟩ := List.length_eq_one_iff.mp hone
  have hmem : o ∈ r.book.ledger.orders.filter (·.number == number) := by
    refine List.mem_filter.mpr ⟨Ledger.mem_of_orderByNumber ho, ?_⟩
    simp [Ledger.number_of_orderByNumber ho]
  rw [hx, List.mem_singleton] at hmem
  rw [hx, hmem]

theorem Finished.hasStored {i : ℕ} {c : Client} {o : Order} (h : r.Finished number i c (.ok o)) :
    hasStored number c = true := by
  simp [Race.hasStored, h.2.1, h.2.2, Phase.stored?]

theorem Sound.oneWinner (h : r.Sound number) (hvalid : OrderNumber.isValid number = true) :
    r.OneWinner number where
  accepted_unique := by
    intro i j c d o p hi hj
    refine eq_of_countP_le_one ?_ hi.1 hj.1 hi.hasStored hj.hasStored
    exact h.countP_eq.trans_le h.countOf_le
  accepted_exists := by
    rintro ⟨c, hc, rfl⟩ hdone
    -- Whoever is done has seen an order with the number, so somebody has stored one.
    have hpos : 0 < r.book.ledger.countOf c.number := by
      obtain ⟨x, hx⟩ := hdone c hc rfl
      have hbacked := h.backed c hc
      rw [hx] at hbacked
      cases hbacked with
      | accepted huser hnumber ho => exact Ledger.countOf_pos ho
      | refused ho => exact Ledger.countOf_pos ho
      | invalid hinvalid =>
        rw [hvalid] at hinvalid
        cases hinvalid
    rw [← h.countP_eq] at hpos
    obtain ⟨d, hd, hstored⟩ := List.countP_pos_iff.mp hpos
    simp only [Race.hasStored, Bool.and_eq_true, beq_iff_eq] at hstored
    obtain ⟨x, hx⟩ := hdone d hd hstored.1
    obtain ⟨i, hi, rfl⟩ := List.mem_iff_getElem.mp hd
    cases x with
    | ok o => exact ⟨i, _, o, List.getElem?_eq_getElem hi, hstored.1, hx⟩
    | error f => simp [hx, Phase.stored?] at hstored
  accepted_stored := by
    rintro i c o ⟨hclient, rfl, hphase⟩
    have hbacked := h.backed c (List.mem_of_getElem? hclient)
    rw [hphase] at hbacked
    cases hbacked with
    | accepted huser hnumber ho hevolves =>
      exact ⟨huser, _, h.filter_eq ho, hevolves.id_eq, hevolves.user_eq.trans huser⟩
  refused := by
    rintro i c f ⟨hclient, rfl, hphase⟩
    have hbacked := h.backed c (List.mem_of_getElem? hclient)
    rw [hphase] at hbacked
    cases hbacked with
    | refused ho =>
      refine ⟨_, h.filter_eq ho, ?_⟩
      simp [conflict, Ledger.number_of_orderByNumber ho]
    | invalid hinvalid =>
      rw [hvalid] at hinvalid
      cases hinvalid
  not_duplicate := by
    intro c hc n hphase
    have hbacked := h.backed c hc
    rw [hphase] at hbacked
    generalize hx : Error.duplicateOrderNumber n = x at hbacked
    cases hbacked with
    | refused ho =>
      unfold conflict at hx
      split at hx <;> cases hx
    | invalid => cases hx
  handed := by
    intro i c hclient
    rw [h.handedBy_eq i, hclient]
    rfl

end winner

/-- However the clients, and all others who use the ledger, take turns: of those who submit a
    number that was free one is accepted, and the others are told whose it is. -/
theorem one_winner {supply : ℕ → Stamp} {book : LedgerState} {r : Race}
    (hsteps : Steps supply (start book) r) :
    ∀ number, OrderNumber.isValid number = true → book.ledger.orderByNumber number = none →
      r.OneWinner number := by
  intro number hvalid hfree
  exact ((sound_start hfree).steps hsteps).oneWinner hvalid

/-- Two clients find a number free. The second one is faster, and its order is marked before the
    first one reads it again. -/
theorem one_winner_of_two :
    ∃ r o, Steps .number (start {}) r ∧
      r.Finished "79927398713" 0 ⟨"ann", "79927398713",
          .done (.error (.error (.alreadyRegistered "79927398713")))⟩
        (.error (.error (.alreadyRegistered "79927398713"))) ∧
      r.Finished "79927398713" 1 ⟨"bob", "79927398713", .done (.ok o)⟩ (.ok o) ∧
      r.handed = [(1, o)] ∧ r.OneWinner "79927398713" := by
  have hmark : ∀ user number,
      ¬ (Operation.markOrders [(Stamp.number 0).recordId] .processing).Stores user number := by
    rintro user number (h | h) <;> cases h
  have hrun : ∃ r, Steps .number (start {}) r ∧
      ∃ o, r.clients = [⟨"ann", "79927398713",
          .done (.error (.error (.alreadyRegistered "79927398713")))⟩,
        ⟨"bob", "79927398713", .done (.ok o)⟩] ∧ r.handed = [(1, o)] :=
    ⟨_, .head (.enter "ann" "79927398713") <| .head (.enter "bob" "79927398713") <|
      .head (.call (i := 0) rfl rfl) <| .head (.call (i := 1) rfl rfl) <|
      .head (.call (i := 1) rfl rfl) <| .head (.call (i := 0) rfl rfl) <|
      .head (.other hmark) <| .head (.call (i := 0) rfl rfl) <|
      .head (.handOver (i := 1) rfl rfl) .refl, _, rfl, rfl⟩
  obtain ⟨r, hsteps, o, hclients, hhanded⟩ := hrun
  refine ⟨r, o, hsteps, ⟨by rw [hclients]; rfl, rfl, rfl⟩, ⟨by rw [hclients]; rfl, rfl, rfl⟩,
    hhanded, ?_⟩
  exact one_winner hsteps _ (by decide +kernel) rfl

end Race

end Submission

end LoyaltyPoints
