import LoyaltyPoints.Proofs.Pipeline.Tickets

/-! # Pipeline: its end

    A pipeline ends when the stop signal is sent, or its sender is dropped, and when its owners
    drop it. A queue is closed as soon as nobody holds its senders, or nobody its receivers; while
    the pipeline is owned, it holds all of them itself. So three things are shown here, each by
    what a step can do: who is told to stop has been told (`Watched`); queues close only when all
    workers of a stage have ended (`Attended`); and unless a credit overflows, workers of the
    second stage end without the signal only when the first stage has ended (`Quiet`).

    The last part is `Pipeline.conveys`, which says what a run can rely on. -/

namespace LoyaltyPoints

/-- Whether a worker of the second stage has ended. -/
def Settler.Ended (r : Settler) : Prop := r = .stopped ∨ r = .panicked

theorem Router.ends_eq {r : Router} (h : r ≠ .stopped) :
    r.ends = [.intakeReceiver, .processingSender] := by
  cases r with
  | stopped => exact absurd rfl h
  | _ => rfl

theorem Settler.ends_eq {r : Settler} (h : ¬ r.Ended) : r.ends = [.processingReceiver] := by
  cases r with
  | stopped => exact absurd (.inl rfl) h
  | panicked => exact absurd (.inr rfl) h
  | _ => rfl

theorem Router.Waits.ne_stopped {r : Router} (h : r.Waits) : r ≠ .stopped := by
  rintro rfl
  rcases h with h | ⟨c, h⟩ <;> cases h

theorem Router.ne_stopped_of_turn {stop : Bool} {f : Flow} {r : Router}
    (h : r.turn stop f = none) : r ≠ .stopped := by
  rintro rfl
  cases h

namespace Pipeline

variable {σ : Type} {store : Store σ} {crew : Crew} {s t u : Pipeline σ} {l : Label}

/-! ## Ends that are lost -/

theorem holds_of_owned (h : s.owned = true) (e : Simulation.LineEnd) : s.holds e = true := by
  simp [holds, h]

/-- Who has lost the senders of the second queue has no worker left in the first stage. -/
theorem routers_of_not_holds (h : s.holds .processingSender = false) :
    s.owned = false ∧ ∀ w ∈ s.routers, w.phase = .stopped := by
  simp only [holds, Bool.or_eq_false_iff] at h
  obtain ⟨⟨howned, hrouters⟩, -⟩ := h
  refine ⟨howned, fun w hw => ?_⟩
  by_contra hphase
  have := List.any_eq_false.mp hrouters w hw
  rw [Router.ends_eq hphase] at this
  exact this rfl

/-- Who has lost the receivers of the second queue has no worker left in the second stage. -/
theorem settlers_of_not_holds (h : s.holds .processingReceiver = false) :
    s.owned = false ∧ ∀ w ∈ s.settlers, w.phase.Ended := by
  simp only [holds, Bool.or_eq_false_iff] at h
  obtain ⟨⟨howned, -⟩, hsettlers⟩ := h
  refine ⟨howned, fun w hw => ?_⟩
  by_contra hphase
  have := List.any_eq_false.mp hsettlers w hw
  rw [Settler.ends_eq hphase] at this
  exact this rfl

theorem closed_of_closeLost {α : Type} {q : Queue α} {sender receiver : Simulation.LineEnd}
    (h : (s.closeLost sender receiver q).closed = true) :
    q.closed = true ∨ s.holds sender = false ∨ s.holds receiver = false := by
  unfold closeLost at h
  split at h
  · exact .inl h
  · next hlost =>
    refine .inr ?_
    simpa only [Bool.and_eq_true, not_and_or, Bool.not_eq_true] using hlost

/-- Whether all workers of a stage have ended, and nobody can start others. -/
def Deserted (s : Pipeline σ) : Prop :=
  s.owned = false ∧
    ((∀ w ∈ s.routers, w.phase = .stopped) ∨ ∀ w ∈ s.settlers, w.phase.Ended)

theorem settleEnds_intake_closed (h : s.settleEnds.flow.intake.closed = true) :
    s.flow.intake.closed = true ∨ s.owned = false := by
  by_contra hnot
  rw [not_or, Bool.not_eq_false] at hnot
  obtain ⟨hopen, howned⟩ := hnot
  rcases closed_of_closeLost h with h | h | h
  · exact hopen h
  · simp [holds_of_owned howned] at h
  · simp [holds_of_owned howned] at h

theorem settleEnds_processing_closed (h : s.settleEnds.flow.processing.closed = true) :
    s.flow.processing.closed = true ∨ s.Deserted := by
  rcases closed_of_closeLost h with h | h | h
  · exact .inl h
  · obtain ⟨howned, hrouters⟩ := routers_of_not_holds h
    exact .inr ⟨howned, .inl hrouters⟩
  · obtain ⟨howned, hsettlers⟩ := settlers_of_not_holds h
    exact .inr ⟨howned, .inr hsettlers⟩

/-! ## What a step can end -/

theorem Step.owned (h : Step store crew s l t) (ht : t.owned = true) : s.owned = true := by
  cases h with
  | tryRegister htry =>
    rcases tryRegister_cases htry with ⟨q, -, -, rfl⟩ | ⟨-, -, rfl⟩ | ⟨-, -, rfl⟩ <;> exact ht
  | discard => cases ht
  | _ => exact ht

theorem Step.requested (h : Step store crew s l t) (hs : s.requested = true) :
    t.requested = true := by
  cases h with
  | tryRegister htry =>
    rcases tryRegister_cases htry with ⟨q, -, -, rfl⟩ | ⟨-, -, rfl⟩ | ⟨-, -, rfl⟩ <;> exact hs
  | signal => rfl
  | dropSignal => exact Bool.or_true _
  | _ => exact hs

theorem Step.intake_closed (h : Step store crew s l t) (ht : t.flow.intake.closed = true) :
    s.flow.intake.closed = true ∨ t.owned = false := by
  cases h with
  | register hoffer =>
    obtain ⟨-, -, rfl⟩ := Queue.offer_eq_taken_iff.mp hoffer
    exact .inl ht
  | tryRegister htry =>
    rcases tryRegister_cases htry with ⟨q, -, hoffer, rfl⟩ | ⟨-, -, rfl⟩ | ⟨-, -, rfl⟩
    · obtain ⟨-, -, rfl⟩ := Queue.offer_eq_taken_iff.mp hoffer
      exact .inl ht
    · exact .inl ht
    · exact .inl ht
  | discard => exact settleEnds_intake_closed ht
  | takeOrder hw hphase hseen hreceive =>
    obtain ⟨-, os, -, rfl⟩ := Router.of_receive_asking hreceive
    exact .inl ht
  | quitRouter hw hphase hseen hreceive =>
    obtain ⟨rfl, -⟩ := Router.of_receive_stopped hreceive
    have hclosed := settleEnds_intake_closed ht
    exact hclosed
  | forward hw hphase hseen hforward =>
    obtain ⟨-, -, rfl⟩ := Router.of_forward_idle hforward
    exact .inl ht
  | abandon hw hphase hseen hforward =>
    obtain ⟨rfl, -⟩ := Router.of_forward_stopped hforward
    have hclosed := settleEnds_intake_closed ht
    exact hclosed
  | takeCredit hw hphase hseen hreceive =>
    obtain ⟨-, cs, -, rfl⟩ := Settler.of_receive_applying hreceive
    exact .inl ht
  | quitSettler hw hphase hseen hreceive =>
    obtain ⟨rfl, -⟩ := Settler.of_receive_stopped hreceive
    have hclosed := settleEnds_intake_closed ht
    exact hclosed
  | overflow =>
    have hclosed := settleEnds_intake_closed ht
    exact hclosed
  | _ => exact .inl ht

theorem Step.processing_closed (h : Step store crew s l t)
    (ht : t.flow.processing.closed = true) :
    s.flow.processing.closed = true ∨ t.Deserted := by
  cases h with
  | register hoffer => exact .inl ht
  | tryRegister htry =>
    rcases tryRegister_cases htry with ⟨q, -, -, rfl⟩ | ⟨-, -, rfl⟩ | ⟨-, -, rfl⟩ <;> exact .inl ht
  | discard => exact settleEnds_processing_closed ht
  | takeOrder hw hphase hseen hreceive =>
    obtain ⟨-, os, -, rfl⟩ := Router.of_receive_asking hreceive
    exact .inl ht
  | quitRouter hw hphase hseen hreceive =>
    obtain ⟨rfl, -⟩ := Router.of_receive_stopped hreceive
    exact settleEnds_processing_closed ht
  | forward hw hphase hseen hforward =>
    obtain ⟨-, -, rfl⟩ := Router.of_forward_idle hforward
    exact .inl ht
  | abandon hw hphase hseen hforward =>
    obtain ⟨rfl, -⟩ := Router.of_forward_stopped hforward
    exact settleEnds_processing_closed ht
  | takeCredit hw hphase hseen hreceive =>
    obtain ⟨-, cs, -, rfl⟩ := Settler.of_receive_applying hreceive
    exact .inl ht
  | quitSettler hw hphase hseen hreceive =>
    obtain ⟨rfl, -⟩ := Settler.of_receive_stopped hreceive
    exact settleEnds_processing_closed ht
  | overflow => exact settleEnds_processing_closed ht
  | _ => exact .inl ht

/-- Workers of the first stage that have ended do nothing more. -/
theorem Step.routers_stopped (h : Step store crew s l t) (howned : s.owned = false)
    (hs : ∀ w ∈ s.routers, w.phase = .stopped) : ∀ w ∈ t.routers, w.phase = .stopped := by
  have habsurd : ∀ {i : ℕ} {w : Worker Router}, s.routers[i]? = some w → w.phase ≠ .stopped →
      False := fun hw hphase => hphase (hs _ (List.mem_of_getElem? hw))
  cases h with
  | tryRegister htry =>
    rcases tryRegister_cases htry with ⟨q, -, -, rfl⟩ | ⟨-, -, rfl⟩ | ⟨-, -, rfl⟩ <;> exact hs
  | start hstart => simp [hstart] at howned
  | lookRouter hw hwaits => exact (habsurd hw hwaits.ne_stopped).elim
  | waitRouter hw hseen hturn => exact (habsurd hw (Router.ne_stopped_of_turn hturn)).elim
  | takeOrder hw hphase => exact (habsurd hw (by simp [hphase])).elim
  | quitRouter hw hphase => exact (habsurd hw (by simp [hphase])).elim
  | grant hw hphase => exact (habsurd hw (by simp [hphase])).elim
  | finish hw hphase => exact (habsurd hw (by simp [hphase])).elim
  | forward hw hphase => exact (habsurd hw (by simp [hphase])).elim
  | abandon hw hphase => exact (habsurd hw (by simp [hphase])).elim
  | _ => exact hs

/-- Workers of the second stage that have ended do nothing more. -/
theorem Step.settlers_ended (h : Step store crew s l t) (howned : s.owned = false)
    (hs : ∀ w ∈ s.settlers, w.phase.Ended) : ∀ w ∈ t.settlers, w.phase.Ended := by
  have habsurd : ∀ {i : ℕ} {w : Worker Settler}, s.settlers[i]? = some w → ¬ w.phase.Ended →
      False := fun hw hphase => hphase (hs _ (List.mem_of_getElem? hw))
  cases h with
  | tryRegister htry =>
    rcases tryRegister_cases htry with ⟨q, -, -, rfl⟩ | ⟨-, -, rfl⟩ | ⟨-, -, rfl⟩ <;> exact hs
  | start hstart => simp [hstart] at howned
  | lookSettler hw hphase => exact (habsurd hw (by simp [hphase, Settler.Ended])).elim
  | waitSettler hw hphase => exact (habsurd hw (by simp [hphase, Settler.Ended])).elim
  | takeCredit hw hphase => exact (habsurd hw (by simp [hphase, Settler.Ended])).elim
  | quitSettler hw hphase => exact (habsurd hw (by simp [hphase, Settler.Ended])).elim
  | settle hw hphase => exact (habsurd hw (by simp [hphase, Settler.Ended])).elim
  | overflow hw hphase => exact (habsurd hw (by simp [hphase, Settler.Ended])).elim
  | _ => exact hs

theorem Step.deserted (h : Step store crew s l t) (hs : s.Deserted) : t.Deserted := by
  obtain ⟨howned, hended⟩ := hs
  refine ⟨Bool.eq_false_iff.mpr fun ht => by simp [h.owned ht] at howned, ?_⟩
  rcases hended with hrouters | hsettlers
  · exact .inl (h.routers_stopped howned hrouters)
  · exact .inr (h.settlers_ended howned hsettlers)

/-! ## Who ends, and when -/

/-- Whether a worker that has seen the signal has seen it rightly. -/
structure Watched (s : Pipeline σ) : Prop where
  routers : ∀ w ∈ s.routers, w.seen = some true → s.requested = true
  settlers : ∀ w ∈ s.settlers, w.seen = some true → s.requested = true

theorem Step.watched (h : Step store crew s l t) (hs : s.Watched) : t.Watched := by
  -- Only looking at the signal makes a worker see it.
  have hrouters : ∀ (i : ℕ) (v : Worker Router), (v.seen = some true → s.requested = true) →
      ∀ w ∈ s.routers.set i v, w.seen = some true → s.requested = true :=
    fun i v hv => Worker.forall_set hs.routers i hv
  have hsettlers : ∀ (i : ℕ) (v : Worker Settler), (v.seen = some true → s.requested = true) →
      ∀ w ∈ s.settlers.set i v, w.seen = some true → s.requested = true :=
    fun i v hv => Worker.forall_set hs.settlers i hv
  cases h with
  | tryRegister htry =>
    rcases tryRegister_cases htry with ⟨q, -, -, rfl⟩ | ⟨-, -, rfl⟩ | ⟨-, -, rfl⟩ <;>
      exact ⟨hs.routers, hs.settlers⟩
  | start =>
    exact ⟨Worker.forall_start hs.routers _ nofun, Worker.forall_start hs.settlers _ nofun⟩
  | signal => exact ⟨fun _ _ _ => rfl, fun _ _ _ => rfl⟩
  | dropSignal => exact ⟨fun _ _ _ => Bool.or_true _, fun _ _ _ => Bool.or_true _⟩
  | lookRouter => exact ⟨hrouters _ _ fun hseen => Option.some.inj hseen, hs.settlers⟩
  | waitRouter => exact ⟨hrouters _ _ nofun, hs.settlers⟩
  | takeOrder => exact ⟨hrouters _ _ nofun, hs.settlers⟩
  | quitRouter => exact ⟨hrouters _ _ nofun, hs.settlers⟩
  | grant => exact ⟨hrouters _ _ nofun, hs.settlers⟩
  | finish => exact ⟨hrouters _ _ nofun, hs.settlers⟩
  | forward => exact ⟨hrouters _ _ nofun, hs.settlers⟩
  | abandon => exact ⟨hrouters _ _ nofun, hs.settlers⟩
  | lookSettler => exact ⟨hs.routers, hsettlers _ _ fun hseen => Option.some.inj hseen⟩
  | waitSettler => exact ⟨hs.routers, hsettlers _ _ nofun⟩
  | takeCredit => exact ⟨hs.routers, hsettlers _ _ nofun⟩
  | quitSettler => exact ⟨hs.routers, hsettlers _ _ nofun⟩
  | settle => exact ⟨hs.routers, hsettlers _ _ nofun⟩
  | overflow => exact ⟨hs.routers, hsettlers _ _ nofun⟩
  | _ => exact ⟨hs.routers, hs.settlers⟩

/-- Whether the queues are open as long as they have to be, and no first stage is without a
    second. -/
structure Attended (s : Pipeline σ) : Prop where
  intake : s.flow.intake.closed = true → s.owned = false
  processing : s.flow.processing.closed = true → s.Deserted
  staffed : s.routers ≠ [] → s.settlers ≠ []

theorem Step.staffed (h : Step store crew s l t) (hs : s.routers ≠ [] → s.settlers ≠ []) :
    t.routers ≠ [] → t.settlers ≠ [] := by
  cases h with
  | tryRegister htry =>
    rcases tryRegister_cases htry with ⟨q, -, -, rfl⟩ | ⟨-, -, rfl⟩ | ⟨-, -, rfl⟩ <;> exact hs
  | start => simp
  | _ => simpa [settleEnds, enter, List.set_eq_nil_iff] using hs

theorem Step.attended (h : Step store crew s l t) (hs : s.Attended) : t.Attended where
  intake ht := by
    rcases h.intake_closed ht with hclosed | howned
    · have howned := hs.intake hclosed
      exact Bool.eq_false_iff.mpr fun ht => by simp [h.owned ht] at howned
    · exact howned
  processing ht := by
    rcases h.processing_closed ht with hclosed | hdeserted
    · exact h.deserted (hs.processing hclosed)
    · exact hdeserted
  staffed := h.staffed hs.staffed

/-- Whether no credit overflowed and, unless the signal was given, no worker of the second stage
    has ended before the first stage, and nothing was abandoned. -/
structure Quiet (s : Pipeline σ) : Prop where
  settlers : s.requested = false → ∀ w ∈ s.settlers, w.phase.Ended →
    s.owned = false ∧ ∀ r ∈ s.routers, r.phase = .stopped
  abandoned : ∀ n, (n, Ending.abandoned) ∈ s.trail.ended → s.requested = true
  overflowed : ∀ n, (n, Ending.overflowed) ∉ s.trail.ended

theorem Step.quiet_settlers (h : Step store crew s l t) (hcalm : ∀ i, l ≠ .overflow i)
    (hwatched : s.Watched) (hattended : s.Attended) (hs : s.Quiet) (ht : t.requested = false) :
    ∀ w ∈ t.settlers, w.phase.Ended →
      t.owned = false ∧ ∀ r ∈ t.routers, r.phase = .stopped := by
  have hrequested : s.requested = false :=
    Bool.eq_false_iff.mpr fun hs => by simp [h.requested hs] at ht
  have hold := hs.settlers hrequested
  have hset : ∀ (i : ℕ) (v : Worker Settler), ¬ v.phase.Ended →
      ∀ w ∈ s.settlers.set i v, w.phase.Ended →
        s.owned = false ∧ ∀ r ∈ s.routers, r.phase = .stopped :=
    fun i v hv => Worker.forall_set hold i fun hended => absurd hended hv
  -- It is enough that all was over before the step.
  suffices hbefore : ∀ w ∈ t.settlers, w.phase.Ended →
      s.owned = false ∧ ∀ r ∈ s.routers, r.phase = .stopped by
    intro w hw hended
    obtain ⟨howned, hrouters⟩ := hbefore w hw hended
    exact ⟨Bool.eq_false_iff.mpr fun ht => by simp [h.owned ht] at howned,
      h.routers_stopped howned hrouters⟩
  cases h with
  | tryRegister htry =>
    rcases tryRegister_cases htry with ⟨q, -, -, rfl⟩ | ⟨-, -, rfl⟩ | ⟨-, -, rfl⟩ <;> exact hold
  | start => exact Worker.forall_start hold _ (by simp [Settler.Ended])
  | lookSettler hv hphase => exact hset _ _ (by simp [hphase, Settler.Ended])
  | waitSettler hv hphase => exact hset _ _ (by simp [hphase, Settler.Ended])
  | takeCredit => exact hset _ _ (by simp [Settler.Ended])
  | settle => exact hset _ _ (by simp [Settler.Ended, Settler.afterApply])
  | overflow => exact absurd rfl (hcalm _)
  | quitSettler hv hphase hseen hreceive =>
    rename_i i v stop flow
    intro _ _ _
    have hmem : v ∈ s.settlers := List.mem_of_getElem? hv
    obtain ⟨-, hstop | hclosed⟩ := Settler.of_receive_stopped hreceive
    · rw [hwatched.settlers v hmem (by rw [hseen, hstop])] at hrequested
      cases hrequested
    · obtain ⟨howned, hrouters | hsettlers⟩ := hattended.processing hclosed
      · exact ⟨howned, hrouters⟩
      · have := hsettlers v hmem
        simp [hphase, Settler.Ended] at this
  | _ => exact hold

/-- The ending that a step gives to the order whose worker takes it. -/
def Label.ending? : Label → Option Ending
  | .answer _ _ => some .finished
  | .abandon _ => some .abandoned
  | .settle _ => some .applied
  | .overflow _ => some .overflowed
  | _ => none

/-- What has ended after a step had ended before, or ends by it. -/
theorem Step.ended_cases (h : Step store crew s l t) {n : ℕ} {ending : Ending}
    (hn : (n, ending) ∈ t.trail.ended) :
    (n, ending) ∈ s.trail.ended ∨ l.ending? = some ending := by
  have hcases : ∀ (e : Ending) (ticket : Option ℕ),
      (n, ending) ∈ (s.trail.conclude e ticket).ended →
      (n, ending) ∈ s.trail.ended ∨ some e = some ending := by
    intro e ticket hn
    rcases List.mem_append.mp hn with hn | hn
    · exact .inl hn
    · obtain ⟨m, -, hm⟩ := List.mem_map.mp hn
      cases hm
      exact .inr rfl
  cases h with
  | tryRegister htry =>
    rcases tryRegister_cases htry with ⟨q, -, -, rfl⟩ | ⟨-, -, rfl⟩ | ⟨-, -, rfl⟩ <;> exact .inl hn
  | finish => exact hcases _ _ hn
  | abandon => exact hcases _ _ hn
  | settle => exact hcases _ _ hn
  | overflow => exact hcases _ _ hn
  | _ => exact .inl hn

/-- A worker abandons its credit only when it has seen the signal: as long as it is there itself,
    the second stage does not end without. -/
theorem Step.quiet_abandoned (h : Step store crew s l t) (hwatched : s.Watched)
    (hattended : s.Attended) (hs : s.Quiet) {n : ℕ}
    (hn : (n, Ending.abandoned) ∈ t.trail.ended) : t.requested = true := by
  refine h.requested ?_
  rcases h.ended_cases hn with hn | hl
  · exact hs.abandoned n hn
  cases h with
  | abandon hw hphase hseen hforward =>
    rename_i i w stop c flow
    have hmem : w ∈ s.routers := List.mem_of_getElem? hw
    obtain ⟨-, hstop | hclosed⟩ := Router.of_forward_stopped hforward
    · exact hwatched.routers w hmem (by rw [hseen, hstop])
    · obtain ⟨-, hrouters | hsettlers⟩ := hattended.processing hclosed
      · have := hrouters w hmem
        simp [hphase] at this
      · obtain ⟨v, hv⟩ := List.exists_mem_of_ne_nil _
          (hattended.staffed (List.ne_nil_of_mem hmem))
        by_contra hnot
        have := (hs.settlers (Bool.eq_false_iff.mpr hnot) v hv (hsettlers v hv)).2 w hmem
        simp [hphase] at this
  | _ => cases hl

theorem Step.quiet (h : Step store crew s l t) (hcalm : ∀ i, l ≠ .overflow i)
    (hwatched : s.Watched) (hattended : s.Attended) (hs : s.Quiet) : t.Quiet where
  settlers := h.quiet_settlers hcalm hwatched hattended hs
  abandoned _ hn := h.quiet_abandoned hwatched hattended hs hn
  overflowed n hn := by
    rcases h.ended_cases hn with hn | hl
    · exact hs.overflowed n hn
    · cases h with
      | overflow => exact hcalm _ rfl
      | _ => cases hl

theorem watched_new (book : σ) (capacity : ℕ) : (new book capacity).Watched :=
  ⟨by simp [new], by simp [new]⟩

theorem attended_new (book : σ) (capacity : ℕ) : (new book capacity).Attended :=
  ⟨nofun, nofun, fun h => absurd rfl h⟩

theorem quiet_new (book : σ) (capacity : ℕ) : (new book capacity).Quiet :=
  ⟨by simp [new], by simp [new], by simp [new]⟩

theorem Runs.watched {book : σ} {capacity : ℕ} {ls : List Label}
    (h : Runs store crew (new book capacity) ls s) : s.Watched :=
  h.preserves (fun _ _ hstep hs => hstep.watched hs) (watched_new book capacity)

theorem Runs.attended {book : σ} {capacity : ℕ} {ls : List Label}
    (h : Runs store crew (new book capacity) ls s) : s.Attended :=
  h.preserves (fun _ _ hstep hs => hstep.attended hs) (attended_new book capacity)

theorem Runs.quiet {book : σ} {capacity : ℕ} {ls : List Label}
    (h : Runs store crew (new book capacity) ls s) (hcalm : ∀ i, .overflow i ∉ ls) : s.Quiet := by
  have hall : s.Watched ∧ s.Attended ∧ s.Quiet :=
    h.preserves (P := fun s => s.Watched ∧ s.Attended ∧ s.Quiet)
      (fun l hl hstep hs => ⟨hstep.watched hs.1, hstep.attended hs.2.1,
        hstep.quiet (fun i hi => hcalm i (hi ▸ hl)) hs.1 hs.2.1 hs.2.2⟩)
      ⟨watched_new book capacity, attended_new book capacity, quiet_new book capacity⟩
  exact hall.2.2

/-! ## Workers behind the signal -/

/-- Whether a worker of the first stage can only end: it has not looked at the signal in this turn,
    or has seen it, or has ended. -/
def RouterLeaves (w : Worker Router) : Prop :=
  w.phase = .stopped ∨ w.phase.Waits ∧ w.seen ≠ some false

/-- Whether a worker of the second stage can only end. -/
def SettlerLeaves (w : Worker Settler) : Prop :=
  w.phase.Ended ∨ w.phase = .idle ∧ w.seen ≠ some false

section leaves

variable {w : Worker Router} {x : Worker Settler}

theorem not_routerLeaves_of_seen (hphase : w.phase ≠ .stopped) (hseen : w.seen = some false) :
    ¬ RouterLeaves w := by
  rintro (h | ⟨-, h⟩)
  · exact hphase h
  · exact h hseen

theorem not_routerLeaves_of_asking {o : Order} (hphase : w.phase = .asking o) :
    ¬ RouterLeaves w := by
  simp [RouterLeaves, Router.Waits, hphase]

theorem not_settlerLeaves_of_seen (hphase : x.phase = .idle) (hseen : x.seen = some false) :
    ¬ SettlerLeaves x := by
  simp [SettlerLeaves, Settler.Ended, hphase, hseen]

theorem not_settlerLeaves_of_applying {c : Credit} (hphase : x.phase = .applying c) :
    ¬ SettlerLeaves x := by
  simp [SettlerLeaves, Settler.Ended, hphase]

end leaves

/-- A worker that has a property keeps it when a worker of its stage changes, if it is another one
    or the change keeps it. -/
theorem kept_of_set {π : Type} {P : Worker π → Prop} {ws : List (Worker π)} {i j : ℕ}
    {w x v : Worker π} (hw : ws[i]? = some w) (hP : P w) (hx : ws[j]? = some x) (hv : P x → P v) :
    ∃ y, (ws.set j v)[i]? = some y ∧ P y := by
  by_cases hij : j = i
  · subst hij
    obtain rfl : w = x := Option.some.inj (hw.symm.trans hx)
    exact ⟨v, List.getElem?_set_self (List.getElem?_eq_some_iff.mp hw).1, hv hP⟩
  · exact ⟨w, (List.getElem?_set_ne hij).trans hw, hP⟩

/-- A worker that has a property is not one that has not. -/
theorem ne_of_not {π : Type} {P : Worker π → Prop} {ws : List (Worker π)} {i j : ℕ}
    {w x : Worker π} (hw : ws[i]? = some w) (hP : P w) (hx : ws[j]? = some x) (hnot : ¬ P x) :
    j ≠ i := by
  rintro rfl
  exact hnot (Option.some.inj (hw.symm.trans hx) ▸ hP)

/-- Behind the signal, a worker of the first stage that can only end takes no order, forwards no
    credit, and still can only end. -/
theorem Step.router_leaves (h : Step store crew s l t) (hs : s.requested = true) {i : ℕ}
    {w : Worker Router} (hw : s.routers[i]? = some w) (hleaves : RouterLeaves w) :
    (l ≠ .takeOrder i ∧ l ≠ .forward i) ∧ ∃ v, t.routers[i]? = some v ∧ RouterLeaves v := by
  cases h with
  | tryRegister htry =>
    rcases tryRegister_cases htry with ⟨q, -, -, rfl⟩ | ⟨-, -, rfl⟩ | ⟨-, -, rfl⟩ <;>
      exact ⟨⟨nofun, nofun⟩, w, hw, hleaves⟩
  | start =>
    have hlt := (List.getElem?_eq_some_iff.mp hw).1
    exact ⟨⟨nofun, nofun⟩, w, (List.getElem?_append_left hlt).trans hw, hleaves⟩
  | lookRouter hx hwaits =>
    exact ⟨⟨nofun, nofun⟩, kept_of_set hw hleaves hx fun _ => .inr ⟨hwaits, by simp [hs]⟩⟩
  | waitRouter hx hseen hturn =>
    refine ⟨⟨nofun, nofun⟩, kept_of_set hw hleaves hx fun hx => ?_⟩
    rcases hx with hphase | ⟨hwaits, -⟩
    · exact .inl hphase
    · exact .inr ⟨hwaits, nofun⟩
  | takeOrder hx hphase hseen hreceive =>
    obtain ⟨rfl, -⟩ := Router.of_receive_asking hreceive
    have hnot := not_routerLeaves_of_seen (by simp [hphase]) hseen
    exact ⟨⟨by simpa using ne_of_not hw hleaves hx hnot, nofun⟩,
      kept_of_set hw hleaves hx fun h => absurd h hnot⟩
  | forward hx hphase hseen hforward =>
    obtain ⟨rfl, -⟩ := Router.of_forward_idle hforward
    have hnot := not_routerLeaves_of_seen (by simp [hphase]) hseen
    exact ⟨⟨nofun, by simpa using ne_of_not hw hleaves hx hnot⟩,
      kept_of_set hw hleaves hx fun h => absurd h hnot⟩
  | quitRouter hx => exact ⟨⟨nofun, nofun⟩, kept_of_set hw hleaves hx fun _ => .inl rfl⟩
  | abandon hx => exact ⟨⟨nofun, nofun⟩, kept_of_set hw hleaves hx fun _ => .inl rfl⟩
  | grant hx hphase =>
    exact ⟨⟨nofun, nofun⟩,
      kept_of_set hw hleaves hx fun h => absurd h (not_routerLeaves_of_asking hphase)⟩
  | finish hx hphase =>
    exact ⟨⟨nofun, nofun⟩,
      kept_of_set hw hleaves hx fun h => absurd h (not_routerLeaves_of_asking hphase)⟩
  | _ => exact ⟨⟨nofun, nofun⟩, w, hw, hleaves⟩

/-- Behind the signal, a worker of the second stage that can only end takes no credit, applies
    none, and still can only end. -/
theorem Step.settler_leaves (h : Step store crew s l t) (hs : s.requested = true) {i : ℕ}
    {w : Worker Settler} (hw : s.settlers[i]? = some w) (hleaves : SettlerLeaves w) :
    (l ≠ .takeCredit i ∧ l ≠ .settle i ∧ l ≠ .overflow i) ∧
      ∃ v, t.settlers[i]? = some v ∧ SettlerLeaves v := by
  cases h with
  | tryRegister htry =>
    rcases tryRegister_cases htry with ⟨q, -, -, rfl⟩ | ⟨-, -, rfl⟩ | ⟨-, -, rfl⟩ <;>
      exact ⟨⟨nofun, nofun, nofun⟩, w, hw, hleaves⟩
  | start =>
    have hlt := (List.getElem?_eq_some_iff.mp hw).1
    exact ⟨⟨nofun, nofun, nofun⟩, w, (List.getElem?_append_left hlt).trans hw, hleaves⟩
  | lookSettler hx hphase =>
    exact ⟨⟨nofun, nofun, nofun⟩,
      kept_of_set hw hleaves hx fun _ => .inr ⟨hphase, by simp [hs]⟩⟩
  | waitSettler hx hphase =>
    exact ⟨⟨nofun, nofun, nofun⟩, kept_of_set hw hleaves hx fun _ => .inr ⟨hphase, nofun⟩⟩
  | takeCredit hx hphase hseen hreceive =>
    obtain ⟨rfl, -⟩ := Settler.of_receive_applying hreceive
    have hnot := not_settlerLeaves_of_seen hphase hseen
    exact ⟨⟨by simpa using ne_of_not hw hleaves hx hnot, nofun, nofun⟩,
      kept_of_set hw hleaves hx fun h => absurd h hnot⟩
  | quitSettler hx =>
    exact ⟨⟨nofun, nofun, nofun⟩, kept_of_set hw hleaves hx fun _ => .inl (.inl rfl)⟩
  | settle hx hphase =>
    have hnot := not_settlerLeaves_of_applying hphase
    exact ⟨⟨nofun, by simpa using ne_of_not hw hleaves hx hnot, nofun⟩,
      kept_of_set hw hleaves hx fun h => absurd h hnot⟩
  | overflow hx hphase =>
    have hnot := not_settlerLeaves_of_applying hphase
    exact ⟨⟨nofun, nofun, by simpa using ne_of_not hw hleaves hx hnot⟩,
      kept_of_set hw hleaves hx fun h => absurd h hnot⟩
  | _ => exact ⟨⟨nofun, nofun, nofun⟩, w, hw, hleaves⟩

theorem Runs.router_leaves {ls : List Label} (h : Runs store crew s ls t)
    (hs : s.requested = true) {i : ℕ} {w : Worker Router} (hw : s.routers[i]? = some w)
    (hleaves : RouterLeaves w) : ∀ l ∈ ls, l ≠ .takeOrder i ∧ l ≠ .forward i := by
  refine h.labels (P := fun s => s.requested = true ∧ ∃ w, s.routers[i]? = some w ∧ RouterLeaves w)
    ?_ ⟨hs, w, hw, hleaves⟩
  rintro u v l hstep ⟨hu, w, hw, hleaves⟩
  obtain ⟨hl, hkept⟩ := hstep.router_leaves hu hw hleaves
  exact ⟨hl, hstep.requested hu, hkept⟩

theorem Runs.settler_leaves {ls : List Label} (h : Runs store crew s ls t)
    (hs : s.requested = true) {i : ℕ} {w : Worker Settler} (hw : s.settlers[i]? = some w)
    (hleaves : SettlerLeaves w) :
    ∀ l ∈ ls, l ≠ .takeCredit i ∧ l ≠ .settle i ∧ l ≠ .overflow i := by
  refine h.labels
    (P := fun s => s.requested = true ∧ ∃ w, s.settlers[i]? = some w ∧ SettlerLeaves w)
    ?_ ⟨hs, w, hw, hleaves⟩
  rintro u v l hstep ⟨hu, w, hw, hleaves⟩
  obtain ⟨hl, hkept⟩ := hstep.settler_leaves hu hw hleaves
  exact ⟨hl, hstep.requested hu, hkept⟩

/-! ## What a run can rely on -/

/-- What is certain at any moment of a run. -/
structure Conveys (store : Store σ) (crew : Crew) (capacity : ℕ) (s : Pipeline σ) : Prop where
  /-- Neither queue holds more than its capacity, which is one at least. -/
  room : s.flow.intake.size ≤ max capacity 1 ∧ s.flow.processing.size ≤ max capacity 1
  /-- Who is told at once that there is no room has found the intake full, and left all as it
      was. -/
  full : ∀ {o t}, Step store crew s (.tryRegister o (.ok false)) t →
    s.flow.intake.size = max capacity 1 ∧ t = s
  /-- The tickets stand for what is in the queues and in the hands of workers. -/
  tracked : s.Tracked
  /-- Each order that has entered is in exactly one place. -/
  once : s.tickets.Perm (List.range s.trail.entered.length)
  /-- The ways that have ended ended without a credit, with one that was applied, or abandoned. -/
  endings : ∀ p ∈ s.trail.ended,
    p.2 = Ending.finished ∨ p.2 = Ending.applied ∨ p.2 = Ending.abandoned
  /-- What has ended stays so, and what has been said of the past remains. -/
  lasting : ∀ {ls t}, Runs store crew s ls t → s.trail.Grows t.trail
  /-- Items leave each queue in the order in which they entered it. -/
  inTurn : s.trail.InTurn
  /-- Nothing is abandoned before the signal. -/
  abandoned : ∀ n, (n, Ending.abandoned) ∈ s.trail.ended → s.requested = true
  /-- A worker of the first stage that begins to wait behind the signal takes no order any more,
      and forwards no credit. -/
  routers_leave : s.requested = true → ∀ {i : ℕ} {w : Worker Router}, s.routers[i]? = some w →
    w.phase.Waits → w.seen ≠ some false → ∀ {ls t}, Runs store crew s ls t →
    ∀ l ∈ ls, l ≠ .takeOrder i ∧ l ≠ .forward i
  /-- A worker of the second stage that begins to wait behind the signal takes no credit any more,
      and applies none. -/
  settlers_leave : s.requested = true → ∀ {i : ℕ} {w : Worker Settler},
    s.settlers[i]? = some w → w.phase = .idle → w.seen ≠ some false →
    ∀ {ls t}, Runs store crew s ls t → ∀ l ∈ ls,
      l ≠ .takeCredit i ∧ l ≠ .settle i ∧ l ≠ .overflow i
  /-- As long as the pipeline is owned, it does not refuse an order. -/
  open_of_owned : s.owned = true → ∀ {o e t}, ¬ Step store crew s (.register o (.error e)) t ∧
    ¬ Step store crew s (.tryRegister o (.error e)) t

theorem Sound.full {capacity : ℕ} (h : s.Sound capacity) {o : Order}
    (hstep : Step store crew s (.tryRegister o (.ok false)) t) :
    s.flow.intake.size = max capacity 1 ∧ t = s := by
  cases hstep with
  | tryRegister htry =>
    rcases tryRegister_cases htry with ⟨q, hanswer, -, -⟩ | ⟨-, hoffer, ht⟩ | ⟨hanswer, -, -⟩
    · cases hanswer
    · have hle := (Queue.offer_eq_full_iff.mp hoffer).2
      rw [h.fits.intake.1] at hle
      exact ⟨le_antisymm h.fits.intake.2 hle, ht⟩
    · cases hanswer

theorem Attended.open_of_owned (h : s.Attended) (howned : s.owned = true) {o : Order} {e : Error} :
    ¬ Step store crew s (.register o (.error e)) t ∧
      ¬ Step store crew s (.tryRegister o (.error e)) t := by
  have hopen : s.flow.intake.closed = false :=
    Bool.eq_false_iff.mpr fun hclosed => by simp [h.intake hclosed] at howned
  constructor
  · intro hstep
    cases hstep with
    | registerRefused hoffer => simp [Queue.offer_eq_closed_iff.mp hoffer] at hopen
  · intro hstep
    cases hstep with
    | tryRegister htry =>
      rcases tryRegister_cases htry with ⟨q, hanswer, -, -⟩ | ⟨hanswer, -, -⟩ | ⟨-, hoffer, -⟩
      · cases hanswer
      · cases hanswer
      · simp [Queue.offer_eq_closed_iff.mp hoffer] at hopen

/-- What can be relied on in any run of a pipeline with any workers, whenever it is started,
    stopped and dropped, as long as no credit overflows. -/
theorem conveys (crew : Crew) {book : σ} {capacity : ℕ} {ls : List Label}
    (hrun : Runs store crew (new book capacity) ls s) (hcalm : ∀ i, Label.overflow i ∉ ls) :
    s.Conveys store crew capacity where
  room := ⟨hrun.sound.fits.intake.2, hrun.sound.fits.processing.2⟩
  full := hrun.sound.full
  tracked := hrun.sound.tracked
  once := hrun.sound.tickets_perm
  endings := by
    rintro ⟨n, ending⟩ hn
    cases ending with
    | finished => exact .inl rfl
    | applied => exact .inr (.inl rfl)
    | abandoned => exact .inr (.inr rfl)
    | overflowed => exact absurd hn ((hrun.quiet hcalm).overflowed n)
  lasting := Runs.grows
  inTurn := hrun.sound.inTurn
  abandoned := (hrun.quiet hcalm).abandoned
  routers_leave hs _ _ hw hwaits hseen _ _ h := h.router_leaves hs hw (.inr ⟨hwaits, hseen⟩)
  settlers_leave hs _ _ hw hphase hseen _ _ h := h.settler_leaves hs hw (.inr ⟨hphase, hseen⟩)
  open_of_owned howned := hrun.attended.open_of_owned howned

/-- There is room for one order. The signal comes when the oracle has been asked about the first
    order and the second one has taken its room. -/
def signalWhileAsking : List Label :=
  let first := Order.submitted (Stamp.number 0).recordId "ann" "79927398713" (Stamp.number 0).now
  let second := Order.submitted (Stamp.number 1).recordId "bob" "12345678903" (Stamp.number 1).now
  [.register first (.ok ()), .tryRegister second (.ok false), .start, .lookRouter 0, .takeOrder 0,
    .tryRegister second (.ok true), .signal,
    .answer 0 (.ok ⟨"79927398713", .processed, none⟩),
    .lookRouter 0, .abandon 0]

/-- The credit is abandoned, and the second order stays in the intake. -/
theorem conveys_of_signal_while_asking :
    ∃ s, Runs LedgerState.store ⟨0, 0⟩ (new {} 0) signalWhileAsking s ∧
      (∀ i, Label.overflow i ∉ signalWhileAsking) ∧ s.trail.intake = [1] ∧
      s.trail.ended = [(0, .abandoned)] ∧ s.Conveys LedgerState.store ⟨0, 0⟩ 0 := by
  have hrun : ∃ s, Runs LedgerState.store ⟨0, 0⟩ (new {} 0) signalWhileAsking s ∧
      s.trail.intake = [1] ∧ s.trail.ended = [(0, .abandoned)] :=
    ⟨_, .cons (.register rfl) <| .cons (.tryRegister rfl) <| .cons (.start rfl) <|
      .cons (.lookRouter rfl (.inl rfl) rfl) <| .cons (.takeOrder rfl rfl rfl rfl) <|
      .cons (.tryRegister rfl) <| .cons .signal <| .cons (.grant rfl rfl rfl) <|
      .cons (.lookRouter rfl (.inr ⟨_, rfl⟩) rfl) <| .cons (.abandon rfl rfl rfl rfl) .nil,
      rfl, rfl⟩
  have hcalm : ∀ i, Label.overflow i ∉ signalWhileAsking := by simp [signalWhileAsking]
  obtain ⟨s, hruns, hintake, hended⟩ := hrun
  exact ⟨s, hruns, hcalm, hintake, hended, conveys ⟨0, 0⟩ hruns hcalm⟩

end Pipeline

end LoyaltyPoints
