import LoyaltyPoints.Proofs.Ledger.Operation
import Mathlib.Logic.Relation

/-! # Ledger: orders are settled once

    Orders are stored for good. What can change of one is its status, forwards only, and the points
    it earned, once. A terminal order never changes, so of all the credits that are presented for a
    number at most one is accepted, and the order shows which one it was. -/

namespace LoyaltyPoints

/-! ## How an order evolves -/

/-- The moves of a status: work on an order can begin, and an order that is not terminal can become
    so. -/
inductive OrderStatus.Moves : OrderStatus → OrderStatus → Prop where
  | begun : Moves .new .processing
  | ended {a b : OrderStatus} (ha : a.isTerminal = false) (hb : b.isTerminal = true) : Moves a b

/-- One status comes from another by moves, or by none. -/
abbrev OrderStatus.Reaches : OrderStatus → OrderStatus → Prop :=
  Relation.ReflTransGen OrderStatus.Moves

theorem OrderStatus.reaches_of_canBecome {a b : OrderStatus} (h : a.canBecome b = true) :
    a.Reaches b := by
  cases a with
  | invalid => cases h
  | processed => cases h
  | new =>
    cases b with
    | new => exact .refl
    | processing => exact .single .begun
    | invalid => exact .single (.ended rfl rfl)
    | processed => exact .single (.ended rfl rfl)
  | processing =>
    cases b with
    | new => cases h
    | processing => exact .refl
    | invalid => exact .single (.ended rfl rfl)
    | processed => exact .single (.ended rfl rfl)

/-- An order, and what it is later. -/
structure Order.Evolves (o o' : Order) : Prop where
  id_eq : o'.id = o.id
  user_eq : o'.user = o.user
  number_eq : o'.number = o.number
  uploadedAt_eq : o'.uploadedAt = o.uploadedAt
  reaches : o.status.Reaches o'.status
  eq_of_terminal : o.status.isTerminal = true → o' = o

theorem Order.Evolves.refl (o : Order) : o.Evolves o :=
  ⟨rfl, rfl, rfl, rfl, .refl, fun _ => rfl⟩

theorem Order.Evolves.trans {a b c : Order} (hab : a.Evolves b) (hbc : b.Evolves c) :
    a.Evolves c where
  id_eq := hbc.id_eq.trans hab.id_eq
  user_eq := hbc.user_eq.trans hab.user_eq
  number_eq := hbc.number_eq.trans hab.number_eq
  uploadedAt_eq := hbc.uploadedAt_eq.trans hab.uploadedAt_eq
  reaches := hab.reaches.trans hbc.reaches
  eq_of_terminal := by
    intro h
    obtain rfl := hab.eq_of_terminal h
    exact hbc.eq_of_terminal h

/-- A change of status that is allowed, with any points, is an evolution. -/
theorem Order.Evolves.of_canBecome {o : Order} {status : OrderStatus} (accrual : Decimal)
    (h : o.status.canBecome status = true) : o.Evolves { o with status, accrual } :=
  ⟨rfl, rfl, rfl, rfl, OrderStatus.reaches_of_canBecome h, by
    intro hterminal
    rw [OrderStatus.isTerminal_of_canBecome h] at hterminal
    cases hterminal⟩

namespace Ledger

/-! ## What neither marks nor credits change -/

section kept

variable {α : Type} {f : Order → α} {l : Ledger}

/-- Whatever does not depend on the status of an order is the same behind marks. -/
theorem map_marked (hf : ∀ (o : Order) (status : OrderStatus), f { o with status } = f o)
    (ids : List Uuid) (status : OrderStatus) (l : Ledger) :
    (l.marked ids status).orders.map f = l.orders.map f := by
  rw [Ledger.marked, List.map_map]
  refine List.map_congr_left ?_
  intro o _
  show f (if isMarked ids status o = true then { o with status } else o) = f o
  split
  · exact hf o status
  · rfl

/-- Whatever does not depend on the status and the points is the same behind a settlement. -/
theorem map_settled {c : Credit} {o : Order} (hf : f (settledBy c o) = f o)
    (ho : l.orderByNumber c.number = some o) :
    (l.settled c).orders.map f = l.orders.map f := by
  obtain ⟨before, after, hos, hsettled⟩ := settled_orders ho
  rw [hsettled, hos, List.map_append, List.map_append, List.map_cons, List.map_cons, hf]

end kept

/-! ## All orders of a ledger -/

/-- All orders of a ledger are there later, in their places. -/
def Persists (l l' : Ledger) : Prop :=
  ∀ (i : ℕ) (o : Order), l.orders[i]? = some o → ∃ o', l'.orders[i]? = some o' ∧ o.Evolves o'

namespace Persists

theorem of_eq {l l' : Ledger} (h : l'.orders = l.orders) : l.Persists l' := by
  intro i o ho
  exact ⟨o, by rw [h, ho], .refl o⟩

theorem trans {a b c : Ledger} (hab : a.Persists b) (hbc : b.Persists c) : a.Persists c := by
  intro i o ho
  obtain ⟨o', ho', hevolves⟩ := hab i o ho
  obtain ⟨o'', ho'', hevolves'⟩ := hbc i o' ho'
  exact ⟨o'', ho'', hevolves.trans hevolves'⟩

/-- The orders of a ledger are there later, evolved. -/
theorem mem {l l' : Ledger} (h : l.Persists l') {o : Order} (ho : o ∈ l.orders) :
    ∃ o' ∈ l'.orders, o.Evolves o' := by
  obtain ⟨i, hi⟩ := List.mem_iff_getElem?.mp ho
  obtain ⟨o', ho', hevolves⟩ := h i o hi
  exact ⟨o', List.mem_of_getElem? ho', hevolves⟩

/-- Ids stay, in their places, so that they were different before if they are so now. -/
theorem ids_extend {l l' : Ledger} (h : l.Persists l') :
    l.orders.map (·.id) <+: l'.orders.map (·.id) := by
  rw [List.prefix_iff_getElem?]
  intro i hi
  rw [List.length_map] at hi
  obtain ⟨o', ho', hevolves⟩ := h i _ (List.getElem?_eq_getElem hi)
  rw [List.getElem?_map, ho', Option.map_some, hevolves.id_eq, List.getElem_map]

theorem marked (ids : List Uuid) (status : OrderStatus) (l : Ledger) :
    l.Persists (l.marked ids status) := by
  intro i o ho
  simp only [Ledger.marked, List.getElem?_map, ho, Option.map_some]
  refine ⟨_, rfl, ?_⟩
  split
  · next hm =>
    simp only [isMarked, Bool.and_eq_true] at hm
    exact .of_canBecome o.accrual hm.2
  · exact .refl o

theorem settled {c : Credit} {o : Order} {l : Ledger} (ho : l.orderByNumber c.number = some o)
    (hs : settles c o = true) : l.Persists (l.settled c) := by
  obtain ⟨before, after, hos, hsettled⟩ := settled_orders ho
  simp only [settles, Bool.and_eq_true] at hs
  intro i x hx
  rw [hsettled]
  rw [hos] at hx
  -- The place is one before the settled order, its own, or one behind it.
  rcases Nat.lt_trichotomy i before.length with hi | rfl | hi
  · rw [List.getElem?_append_left hi] at hx ⊢
    exact ⟨x, hx, .refl x⟩
  · obtain rfl : o = x := by simpa using hx
    exact ⟨settledBy c o, by simp, .of_canBecome c.amount hs.2⟩
  · rw [List.getElem?_append_right hi.le] at hx ⊢
    obtain ⟨k, hk⟩ := Nat.exists_eq_add_of_lt (Nat.sub_pos_of_lt hi)
    rw [hk, Nat.zero_add] at hx ⊢
    exact ⟨x, hx, .refl x⟩

end Persists

/-- No call removes an order or turns one back. -/
theorem Effect.persists {l l' : Ledger} {op : Operation} {answer : Except Fault Reply}
    (h : Effect l op answer l') : l.Persists l' := by
  cases h with
  | quiet => exact .of_eq rfl
  | opened => exact .of_eq (by simp)
  | stored s user number hop hnew =>
    intro i o ho
    have hi : i < l.orders.length := (List.getElem?_eq_some_iff.mp ho).1
    exact ⟨o, by rw [List.getElem?_append_left hi, ho], .refl o⟩
  | marked ids status => exact .marked ids status l
  | credited s c o sum ho hs =>
    exact (Persists.settled ho hs).trans (.of_eq (credited_orders s c sum l))
  | creditLost s c o e ho hs =>
    exact (Persists.settled ho hs).trans (.of_eq (openBalance_orders s c.user _))
  | paid => exact .of_eq (by simp)
  | restLost => exact .of_eq (by simp)
  | sumLost => exact .of_eq (by simp)

/-- The orders of a run are those of its later states, evolved. -/
theorem run_persists (supply : Nat → Stamp) {p q : List Operation} (h : p <+: q) :
    (run supply p).state.ledger.Persists (run supply q).state.ledger := by
  obtain ⟨rest, rfl⟩ := h
  induction rest using List.reverseRecOn with
  | nil => exact .of_eq (by simp)
  | append_singleton rest op ih =>
    rw [← List.append_assoc, run, run, Run.ofCalls_concat]
    exact ih.trans (perform_effect supply op _).persists

end Ledger

/-! ## Accepted credits -/

/-- The credit that a call accepted. -/
def Event.accepted? (e : Event) : Option Credit :=
  match e.operation, e.answer with
  | .accrue c, .ok (.flag true) => some c
  | _, _ => none

/-- The credits that were accepted for an order number, the first one first. -/
def acceptedFor (number : String) (events : List Event) : List Credit :=
  (events.filterMap Event.accepted?).filter (·.number == number)

theorem acceptedFor_concat (number : String) (events : List Event) (e : Event) :
    acceptedFor number (events ++ [e]) =
      acceptedFor number events ++ e.accepted?.toList.filter (·.number == number) := by
  cases h : e.accepted? <;> simp [acceptedFor, h]

theorem acceptedFor_concat_none {e : Event} (h : e.accepted? = none) (number : String)
    (events : List Event) : acceptedFor number (events ++ [e]) = acceptedFor number events := by
  simp [acceptedFor_concat, h]

/-- A credit that is accepted counts for its number. -/
theorem acceptedFor_concat_accrue (number : String) (events : List Event) (c : Credit) :
    acceptedFor number (events ++ [⟨.accrue c, .ok (.flag true)⟩]) =
      acceptedFor number events ++ if c.number = number then [c] else [] := by
  by_cases hn : c.number = number <;> simp [acceptedFor_concat, Event.accepted?, hn]

theorem accepted?_eq_none {op : Operation} {answer : Except Fault Reply}
    (h : ∀ c, op = .accrue c → answer = .ok (.flag false)) :
    Event.accepted? ⟨op, answer⟩ = none := by
  cases op with
  | accrue c =>
    obtain rfl := h c rfl
    rfl
  | _ => rfl

theorem accepted?_eq_none_of_ne {op : Operation} (h : ∀ c, op ≠ .accrue c)
    (answer : Except Fault Reply) : Event.accepted? ⟨op, answer⟩ = none :=
  accepted?_eq_none fun c hc => absurd hc (h c)

namespace Ledger

/-- The credits that an order must have had, to be as it is. -/
def creditsOf (o : Order) : List Credit :=
  if o.status = .processed then [⟨o.user, o.number, o.accrual⟩] else []

/-- Where all numbers are different, an order has a number of its own. -/
theorem number_ne_of_nodup {before after : List Order} {o x : Order}
    (h : ((before ++ o :: after).map (·.number)).Nodup) (hx : x ∈ before ++ after) :
    o.number ≠ x.number := by
  rw [List.map_append, List.map_cons, List.nodup_append, List.nodup_cons] at h
  obtain ⟨-, ⟨hafter, -⟩, hbefore⟩ := h
  rcases List.mem_append.mp hx with hx | hx
  · exact (hbefore x.number (List.mem_map_of_mem hx) o.number List.mem_cons_self).symm
  · intro heq
    exact hafter (heq ▸ List.mem_map_of_mem hx)

/-- How the orders of a ledger stand to the credits that were accepted. -/
structure Settled (events : List Event) (l : Ledger) : Prop where
  numbers_nodup : (l.orders.map (·.number)).Nodup
  accrual_eq_zero : ∀ o ∈ l.orders, o.status ≠ .processed → o.accrual = .zero
  accepted_eq : ∀ o ∈ l.orders, acceptedFor o.number events = creditsOf o
  accepted_eq_nil : ∀ n, n ∉ l.orders.map (·.number) → acceptedFor n events = []

theorem settled_empty : Settled [] {} where
  numbers_nodup := List.nodup_nil
  accrual_eq_zero := by simp
  accepted_eq := by simp
  accepted_eq_nil := fun _ _ => rfl

section step

variable {events : List Event} {l l' : Ledger} {e : Event}

/-- A call that accepts no credit and leaves the orders alone. -/
theorem Settled.frame (h : Settled events l) (he : e.accepted? = none)
    (horders : l'.orders = l.orders) : Settled (events ++ [e]) l' where
  numbers_nodup := horders ▸ h.numbers_nodup
  accrual_eq_zero := horders ▸ h.accrual_eq_zero
  accepted_eq := by
    intro o ho
    rw [horders] at ho
    rw [acceptedFor_concat_none he, h.accepted_eq o ho]
  accepted_eq_nil := by
    intro n hn
    rw [horders] at hn
    rw [acceptedFor_concat_none he, h.accepted_eq_nil n hn]

/-- No credit was accepted for an order before there was one. -/
theorem Settled.stored (h : Settled events l) (he : e.accepted? = none) {user number : String}
    (s : Stamp) (hnew : l.orderByNumber number = none) :
    Settled (events ++ [e])
      { l with orders := l.orders ++ [Order.submitted s.recordId user number s.now] } where
  numbers_nodup := by
    simp only [List.map_append, List.map_cons, List.map_nil]
    refine h.numbers_nodup.append (List.nodup_singleton _) ?_
    intro n hn hsingle
    rw [List.mem_singleton.mp hsingle] at hn
    exact orderByNumber_eq_none_iff.mp hnew hn
  accrual_eq_zero := by
    intro o ho hstatus
    rcases List.mem_append.mp ho with ho | ho
    · exact h.accrual_eq_zero o ho hstatus
    · rw [List.mem_singleton.mp ho]
      rfl
  accepted_eq := by
    intro o ho
    rw [acceptedFor_concat_none he]
    rcases List.mem_append.mp ho with ho | ho
    · exact h.accepted_eq o ho
    · rw [List.mem_singleton.mp ho]
      exact h.accepted_eq_nil number (orderByNumber_eq_none_iff.mp hnew)
  accepted_eq_nil := by
    intro n hn
    rw [List.map_append, List.mem_append, not_or] at hn
    rw [acceptedFor_concat_none he, h.accepted_eq_nil n hn.1]

/-- A mark reaches pending orders only, and leaves them without points. -/
theorem Settled.marked (h : Settled events l) (he : e.accepted? = none) (ids : List Uuid)
    {status : OrderStatus} (hmark : status.isMarkable = true) :
    Settled (events ++ [e]) (l.marked ids status) := by
  have hnot : status ≠ .processed := by
    rintro rfl
    cases hmark
  -- An order is the same behind a mark, but perhaps for a status that is not `processed`.
  have hmem : ∀ o' ∈ (l.marked ids status).orders, ∃ o ∈ l.orders, o'.number = o.number ∧
      o'.accrual = o.accrual ∧ creditsOf o' = creditsOf o ∧
        (o'.status ≠ .processed → o.status ≠ .processed) := by
    intro o' ho'
    obtain ⟨o, ho, rfl⟩ := List.mem_map.mp ho'
    refine ⟨o, ho, ?_⟩
    split
    · next hm => simp [creditsOf, hnot, status_ne_of_isMarked hm]
    · simp
  have hnumbers : (l.marked ids status).orders.map (·.number) = l.orders.map (·.number) := by
    simp only [Ledger.marked, List.map_map]
    refine List.map_congr_left ?_
    intro o _
    by_cases hm : isMarked ids status o = true <;> simp [hm]
  exact {
    numbers_nodup := hnumbers ▸ h.numbers_nodup
    accrual_eq_zero := by
      intro o' ho' hstatus
      obtain ⟨o, ho, -, haccrual, -, hback⟩ := hmem o' ho'
      rw [haccrual, h.accrual_eq_zero o ho (hback hstatus)]
    accepted_eq := by
      intro o' ho'
      obtain ⟨o, ho, hnumber, -, hcredits, -⟩ := hmem o' ho'
      rw [acceptedFor_concat_none he, hnumber, hcredits, h.accepted_eq o ho]
    accepted_eq_nil := by
      intro n hn
      rw [hnumbers] at hn
      rw [acceptedFor_concat_none he, h.accepted_eq_nil n hn] }

/-- An accepted credit is the first one for its number, and the order shows it. -/
theorem Settled.credited (h : Settled events l) (s : Stamp) {c : Credit} {o : Order}
    (sum : Decimal) (ho : l.orderByNumber c.number = some o) (hs : settles c o = true) :
    Settled (events ++ [⟨.accrue c, .ok (.flag true)⟩]) (l.credited s c sum) := by
  obtain ⟨before, after, hos, hsettled⟩ := settled_orders ho
  have horders : (l.credited s c sum).orders = before ++ settledBy c o :: after := by
    rw [credited_orders, hsettled]
  have huser := (settles_iff.mp hs).1
  have hnumber := number_of_orderByNumber ho
  have hnumbers : (l.credited s c sum).orders.map (·.number) = l.orders.map (·.number) := by
    rw [horders, hos]
    simp [settledBy]
  have hother : ∀ x ∈ before ++ after, x ∈ l.orders ∧ c.number ≠ x.number := by
    intro x hx
    refine ⟨?_, ?_⟩
    · rw [hos]
      simp only [List.mem_append, List.mem_cons] at hx ⊢
      tauto
    · rw [← hnumber]
      exact number_ne_of_nodup (hos ▸ h.numbers_nodup) hx
  -- The order of the credit had none before, and the others do not get this one.
  have hmem : ∀ x ∈ (l.credited s c sum).orders, x = settledBy c o ∨ x ∈ before ++ after := by
    intro x hx
    rw [horders] at hx
    simp only [List.mem_append, List.mem_cons] at hx ⊢
    tauto
  exact {
    numbers_nodup := hnumbers ▸ h.numbers_nodup
    accrual_eq_zero := by
      intro x hx hstatus
      rcases hmem x hx with rfl | hx
      · exact absurd rfl hstatus
      · exact h.accrual_eq_zero x (hother x hx).1 hstatus
    accepted_eq := by
      intro x hx
      rw [acceptedFor_concat_accrue]
      rcases hmem x hx with rfl | hx
      · have hfirst : acceptedFor o.number events = [] := by
          rw [h.accepted_eq o (mem_of_orderByNumber ho), creditsOf,
            if_neg (status_ne_of_settles hs)]
        have hcredit : creditsOf (settledBy c o) = [c] := by
          show [Credit.mk o.user o.number c.amount] = [c]
          rw [huser, hnumber]
        show acceptedFor o.number events ++ (if c.number = o.number then [c] else []) = _
        rw [hfirst, hcredit, if_pos hnumber.symm, List.nil_append]
      · obtain ⟨hx, hne⟩ := hother x hx
        rw [if_neg hne, List.append_nil, h.accepted_eq x hx]
    accepted_eq_nil := by
      intro n hn
      rw [hnumbers] at hn
      have hne : c.number ≠ n := by
        rintro rfl
        exact hn (hnumber ▸ List.mem_map_of_mem (mem_of_orderByNumber ho))
      rw [acceptedFor_concat_accrue, if_neg hne, List.append_nil, h.accepted_eq_nil n hn] }

/-- A call that overflows nothing keeps the orders in step with the credits. -/
theorem Settled.step {op : Operation} {answer : Except Fault Reply} (h : Settled events l)
    (heffect : Effect l op answer l') (hquiet : ¬ Event.IsOverflow ⟨op, answer⟩) :
    Settled (events ++ [⟨op, answer⟩]) l' := by
  cases heffect with
  | quiet hover hcredit => exact h.frame (accepted?_eq_none hcredit) rfl
  | opened s user hover hcredit =>
    exact h.frame (accepted?_eq_none_of_ne hcredit answer) (openBalance_orders s user l)
  | stored s user number hop hnew =>
    have hne : ∀ c, op ≠ .accrue c := by
      rintro c rfl
      rcases hop with h | h <;> cases h
    exact h.stored (accepted?_eq_none_of_ne hne _) s hnew
  | marked ids status n hmark => exact h.marked rfl ids hmark
  | credited s c o sum ho hs hadd => exact h.credited s sum ho hs
  -- An order that is settled without its points would show a credit that nobody accepted.
  | creditLost s c o e ho hs hadd => exact absurd ⟨e, rfl⟩ hquiet
  | paid s user number amount rest sum hop hle hsub hadd =>
    exact h.frame (accepted?_eq_none_of_ne hop.ne_accrue _) (by simp)
  | restLost s user number amount e hop hle hsub => exact absurd ⟨e, rfl⟩ hquiet
  | sumLost s user number amount rest e hop hle hsub hadd => exact absurd ⟨e, rfl⟩ hquiet

end step

/-! ## Runs -/

/-- A run without an overflow keeps the orders in step with the credits. -/
theorem run_settled (supply : Nat → Stamp) (ops : List Operation) :
    (∀ e ∈ (run supply ops).events, ¬ e.IsOverflow) →
      Settled (run supply ops).events (run supply ops).state.ledger := by
  refine run_induction (P := fun events l => (∀ e ∈ events, ¬ e.IsOverflow) → Settled events l)
    supply (fun _ => settled_empty) ?_ ops
  intro events l op answer l' ih heffect hquiet
  refine (ih ?_).step heffect (hquiet _ (List.mem_append_right _ List.mem_cons_self))
  intro e he
  exact hquiet e (List.mem_append_left _ he)

/-- Each order is settled at most once: in a run without an overflow no order is lost or turned
    back, no two have one number, none has points before it is processed, and the credits that
    were accepted for its number are the one that it shows, or none. -/
theorem orders_settle_once (supply : Nat → Stamp) (ops : List Operation)
    (hquiet : ∀ e ∈ (run supply ops).events, ¬ e.IsOverflow) :
    (∀ p q, p <+: q → q <+: ops →
      (run supply p).state.ledger.Persists (run supply q).state.ledger) ∧
    ∀ p, p <+: ops →
      ((run supply p).state.ledger.orders.map (·.number)).Nodup ∧
      ∀ o ∈ (run supply p).state.ledger.orders,
        (o.status ≠ .processed → o.accrual = .zero) ∧
        acceptedFor o.number (run supply p).events =
          if o.status = .processed then [⟨o.user, o.number, o.accrual⟩] else [] := by
  refine ⟨fun p q hpq _ => run_persists supply hpq, ?_⟩
  intro p hp
  have h := run_settled supply p fun e he =>
    hquiet e ((Run.events_ofCalls_mono _ _ hp).subset he)
  exact ⟨h.numbers_nodup, fun o ho => ⟨h.accrual_eq_zero o ho, h.accepted_eq o ho⟩⟩

/-- An order is marked, credited, and credited and marked again in vain. -/
theorem orders_settle_once_repeated :
    let c : Credit := ⟨"ann", "79927398713", ⟨500, 0, by decide, by decide⟩⟩
    let id := (Stamp.number 0).recordId
    let ops : List Operation := [.createOrder "ann" "79927398713", .markOrders [id] .processing,
      .accrue { c with user := "bob" }, .accrue c, .accrue c, .markOrders [id] .invalid]
    (∀ e ∈ (run .number ops).events, ¬ e.IsOverflow) ∧
      acceptedFor "79927398713" (run .number ops).events = [c] := by
  intro c id ops
  have hquiet : ∀ e ∈ (run .number ops).events, ¬ e.IsOverflow := by
    have hevents : ∃ o m n, (run .number ops).events = [⟨ops[0], .ok (.order o)⟩,
        ⟨ops[1], .ok (.count m)⟩, ⟨ops[2], .ok (.flag false)⟩, ⟨ops[3], .ok (.flag true)⟩,
        ⟨ops[4], .ok (.flag false)⟩, ⟨ops[5], .ok (.count n)⟩] := ⟨_, _, _, rfl⟩
    obtain ⟨o, m, n, hevents⟩ := hevents
    rw [hevents]
    simp [Event.IsOverflow]
  have horder : ∃ o ∈ (run .number ops).state.ledger.orders, o.status = .processed ∧
      (⟨o.user, o.number, o.accrual⟩ : Credit) = c := ⟨_, List.mem_cons_self, rfl, rfl⟩
  refine ⟨hquiet, ?_⟩
  obtain ⟨o, ho, hstatus, hc⟩ := horder
  have haccepted := (((orders_settle_once .number ops hquiet).2 ops List.prefix_rfl).2 o ho).2
  rw [if_pos hstatus, hc] at haccepted
  rw [← haccepted, show o.number = c.number by rw [← hc]]

end Ledger

end LoyaltyPoints
