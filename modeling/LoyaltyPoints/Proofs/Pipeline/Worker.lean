import LoyaltyPoints.Pipeline.Worker

/-! # Pipeline: what a worker does next

    What comes of an offer, and which way a worker goes on, tells what was seen of the queues. An
    offer is taken while the queue is open and has room. A worker that goes on has put one item
    behind the others or taken the oldest one; or else it ends and leaves the queues as they were,
    because it has seen the stop signal or its queue is closed. -/

namespace LoyaltyPoints

/-! ## Queues -/

namespace Queue

variable {α : Type} {x : α} {q q' : Queue α}

theorem offer_eq_taken_iff : q.offer x = .taken q' ↔
    q.closed = false ∧ q.items.length < q.capacity ∧ q' = { q with items := q.items ++ [x] } := by
  unfold offer
  split
  · next hclosed => simp [hclosed]
  · next hopen =>
    split
    · next hroom => simp [hopen, hroom, eq_comm]
    · next hroom => simp [hroom]

theorem offer_eq_full_iff :
    q.offer x = .full ↔ q.closed = false ∧ q.capacity ≤ q.items.length := by
  unfold offer
  split
  · next hclosed => simp [hclosed]
  · next hopen =>
    split
    · next hroom => simpa [hopen] using hroom
    · next hroom => simpa [hopen] using hroom

theorem offer_eq_closed_iff : q.offer x = .closed ↔ q.closed = true := by
  unfold offer
  split
  · next hclosed => simp [hclosed]
  · next hopen => split <;> simp [hopen]

theorem pop?_eq_some_iff :
    q.pop? = some (x, q') ↔ ∃ xs, q.items = x :: xs ∧ q' = { q with items := xs } := by
  unfold pop?
  split
  · next hitems => simp [hitems]
  · next hitems =>
    constructor
    · rintro ⟨⟩
      exact ⟨_, hitems, rfl⟩
    · rintro ⟨xs, hxs, rfl⟩
      obtain ⟨rfl, rfl⟩ := List.cons.inj (hitems.symm.trans hxs)
      rfl

end Queue

/-! ## Workers -/

section workers

variable {stop : Bool} {f f' : Flow} {o : Order} {c : Credit}

/-- An idle worker of the first stage ends, or takes the oldest order. -/
theorem Router.receive_cases {r : Router} (h : Router.receive stop f = some (r, f')) :
    (r = .stopped ∧ f' = f ∧ (stop = true ∨ f.intake.closed = true)) ∨
      ∃ o os, r = .asking o ∧ stop = false ∧ f.intake.items = o :: os ∧
        f' = { f with intake := { f.intake with items := os } } := by
  -- The signal goes first. A queue that is closed still gives what it holds.
  unfold Router.receive at h
  split at h
  · next hstop =>
    cases h
    exact .inl ⟨rfl, rfl, .inl hstop⟩
  · next hstop =>
    split at h
    · next hpop =>
      cases h
      obtain ⟨os, hitems, rfl⟩ := Queue.pop?_eq_some_iff.mp hpop
      exact .inr ⟨_, os, rfl, Bool.eq_false_iff.mpr hstop, hitems, rfl⟩
    · split at h
      · next hclosed =>
        cases h
        exact .inl ⟨rfl, rfl, .inr hclosed⟩
      · cases h

/-- A worker with a credit ends and gives it up, or puts it behind the others. -/
theorem Router.forward_cases {r : Router} (h : Router.forward stop c f = some (r, f')) :
    (r = .stopped ∧ f' = f ∧ (stop = true ∨ f.processing.closed = true)) ∨
      (r = .idle ∧ stop = false ∧ f.processing.items.length < f.processing.capacity ∧
        f' = { f with processing :=
          { f.processing with items := f.processing.items ++ [c] } }) := by
  unfold Router.forward at h
  split at h
  · next hstop =>
    cases h
    exact .inl ⟨rfl, rfl, .inl hstop⟩
  · next hstop =>
    split at h
    · next hoffer =>
      cases h
      obtain ⟨-, hroom, rfl⟩ := Queue.offer_eq_taken_iff.mp hoffer
      exact .inr ⟨rfl, Bool.eq_false_iff.mpr hstop, hroom, rfl⟩
    · cases h
    · next hoffer =>
      cases h
      exact .inl ⟨rfl, rfl, .inr (Queue.offer_eq_closed_iff.mp hoffer)⟩

/-- An idle worker of the second stage ends, or takes the oldest credit. -/
theorem Settler.receive_cases {r : Settler} (h : Settler.receive stop f = some (r, f')) :
    (r = .stopped ∧ f' = f ∧ (stop = true ∨ f.processing.closed = true)) ∨
      ∃ c cs, r = .applying c ∧ stop = false ∧ f.processing.items = c :: cs ∧
        f' = { f with processing := { f.processing with items := cs } } := by
  unfold Settler.receive at h
  split at h
  · next hstop =>
    cases h
    exact .inl ⟨rfl, rfl, .inl hstop⟩
  · next hstop =>
    split at h
    · next hpop =>
      cases h
      obtain ⟨cs, hitems, rfl⟩ := Queue.pop?_eq_some_iff.mp hpop
      exact .inr ⟨_, cs, rfl, Bool.eq_false_iff.mpr hstop, hitems, rfl⟩
    · split at h
      · next hclosed =>
        cases h
        exact .inl ⟨rfl, rfl, .inr hclosed⟩
      · cases h

/-- A worker that takes an order has not seen the signal, and takes the oldest one. -/
theorem Router.of_receive_asking (h : Router.receive stop f = some (.asking o, f')) :
    stop = false ∧ ∃ os, f.intake.items = o :: os ∧
      f' = { f with intake := { f.intake with items := os } } := by
  obtain ⟨⟨⟩, -⟩ | ⟨_, os, ⟨⟩, hstop, hitems, hf⟩ := Router.receive_cases h
  exact ⟨hstop, os, hitems, hf⟩

theorem Router.of_receive_stopped (h : Router.receive stop f = some (.stopped, f')) :
    f' = f ∧ (stop = true ∨ f.intake.closed = true) := by
  obtain ⟨-, hended⟩ | ⟨_, _, ⟨⟩, -⟩ := Router.receive_cases h
  exact hended

/-- A worker that forwards a credit has not seen the signal, and there was room. -/
theorem Router.of_forward_idle (h : Router.forward stop c f = some (.idle, f')) :
    stop = false ∧ f.processing.items.length < f.processing.capacity ∧
      f' = { f with processing := { f.processing with items := f.processing.items ++ [c] } } := by
  obtain ⟨⟨⟩, -⟩ | ⟨-, hforwarded⟩ := Router.forward_cases h
  exact hforwarded

theorem Router.of_forward_stopped (h : Router.forward stop c f = some (.stopped, f')) :
    f' = f ∧ (stop = true ∨ f.processing.closed = true) := by
  obtain ⟨-, hended⟩ | ⟨⟨⟩, -⟩ := Router.forward_cases h
  exact hended

/-- A worker that takes a credit has not seen the signal, and takes the oldest one. -/
theorem Settler.of_receive_applying (h : Settler.receive stop f = some (.applying c, f')) :
    stop = false ∧ ∃ cs, f.processing.items = c :: cs ∧
      f' = { f with processing := { f.processing with items := cs } } := by
  obtain ⟨⟨⟩, -⟩ | ⟨_, cs, ⟨⟩, hstop, hitems, hf⟩ := Settler.receive_cases h
  exact ⟨hstop, cs, hitems, hf⟩

theorem Settler.of_receive_stopped (h : Settler.receive stop f = some (.stopped, f')) :
    f' = f ∧ (stop = true ∨ f.processing.closed = true) := by
  obtain ⟨-, hended⟩ | ⟨_, _, ⟨⟩, -⟩ := Settler.receive_cases h
  exact hended

/-- A route leads a worker back to wait or to a credit, and to no question. -/
theorem Router.afterRoute_ne_asking (route : Route) (o : Order) :
    Router.afterRoute route ≠ .asking o := by
  cases route <;> simp [afterRoute]

theorem Router.eq_accrue_of_afterRoute {r : Except Fault Route}
    (h : Router.afterRoute (r.toOption.getD .storeFailed) = .holding c) : r = .ok (.accrue c) := by
  cases r with
  | error e => cases h
  | ok route =>
    cases route with
    | accrue d =>
      cases h
      rfl
    | _ => cases h

theorem Router.afterRoute_eq_idle {r : Except Fault Route} (h : ∀ c, r ≠ .ok (.accrue c)) :
    Router.afterRoute (r.toOption.getD .storeFailed) = .idle := by
  cases r with
  | error e => rfl
  | ok route =>
    cases route with
    | accrue c => exact absurd rfl (h c)
    | _ => rfl

theorem Settler.afterApply_ne_applying {α : Type} (r : Except Fault α) (c : Credit) :
    Settler.afterApply r ≠ .applying c := by
  cases r <;> simp [afterApply]

end workers

end LoyaltyPoints
