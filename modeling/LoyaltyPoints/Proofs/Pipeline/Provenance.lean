import LoyaltyPoints.Proofs.Pipeline.History

/-! # Pipeline: every decision goes back to the oracle

    Copies of one order can be in the intake and with several workers at once, and the oracle may
    say something else each time it is asked. Whatever is decided about an order was said at some
    time in answer to a question for its number: credits are granted by a `PROCESSED` answer, and
    marks repeat what was answered.

    The invariant (`Sound`) ties three things to the history: the orders under way are stored ones,
    the credits under way or applied are justified, and the status of each stored order is
    explained. Marks go by ids, so the ids of the ledger have to be different; whatever has gone
    wrong with them would show in the end, since ids stay. -/

namespace LoyaltyPoints

namespace System

variable {supply : ℕ → Stamp} {s t u : System} {l : Label} {past : List (System × Label)}

/-! ## Reasons -/

/-- Whether a credit names the owner and the number of a stored order, and has the amount, rounded
    to the places of the ledger, that a `PROCESSED` answer for the number granted. -/
def Justified (past : List (System × Label)) (ledger : Ledger) (c : Credit) : Prop :=
  (∃ o ∈ ledger.orders, o.user = c.user ∧ o.number = c.number) ∧
    ∃ a, Answered past c.number (.ok a) ∧ a.status = .processed ∧
      c.amount = (a.accrual.getD .zero).roundTo moneyScale

/-- Why an order is as it is. -/
inductive Explained (past : List (System × Label)) (o : Order) : Prop where
  | new (hstatus : o.status = .new) (haccrual : o.accrual = .zero)
  | processing {a : Oracle.Answer} (hstatus : o.status = .processing) (haccrual : o.accrual = .zero)
      (hanswered : Answered past o.number (.ok a)) (hverdict : a.status = .processing)
  | invalid {a : Oracle.Answer} (hstatus : o.status = .invalid) (haccrual : o.accrual = .zero)
      (hanswered : Answered past o.number (.ok a)) (hverdict : a.status = .invalid)
  | processed {c : Credit} (hsettled : SettledBy past c o)

/-- Whether an answer decides nothing: a failure, or a status that is no verdict. -/
def IsOpen : Except Error Oracle.Answer → Prop
  | .error _ => True
  | .ok a => a.status = .registered ∨ a.status = .unknown

theorem Justified.mono {ledger ledger' : Ledger} {c : Credit} (h : Justified past ledger c)
    (hledger : ledger.Persists ledger') (rest : List (System × Label)) :
    Justified (past ++ rest) ledger' c := by
  obtain ⟨⟨o, ho, huser, hnumber⟩, a, hanswered, hverdict, hamount⟩ := h
  obtain ⟨o', ho', hevolves⟩ := hledger.mem ho
  exact ⟨⟨o', ho', hevolves.user_eq.trans huser, hevolves.number_eq.trans hnumber⟩,
    a, hanswered.mono rest, hverdict, hamount⟩

theorem Explained.mono {o : Order} (h : Explained past o) (rest : List (System × Label)) :
    Explained (past ++ rest) o := by
  cases h with
  | new hstatus haccrual => exact .new hstatus haccrual
  | processing hstatus haccrual hanswered hverdict =>
    exact .processing hstatus haccrual (hanswered.mono rest) hverdict
  | invalid hstatus haccrual hanswered hverdict =>
    exact .invalid hstatus haccrual (hanswered.mono rest) hverdict
  | processed hsettled => exact .processed (hsettled.mono rest)

theorem Explained.accrual_eq_zero {o : Order} (h : Explained past o)
    (hstatus : o.status ≠ .processed) : o.accrual = .zero := by
  cases h with
  | new _ haccrual => exact haccrual
  | processing _ haccrual => exact haccrual
  | invalid _ haccrual => exact haccrual
  | processed hsettled => exact absurd hsettled.order_eq.1 hstatus

theorem Explained.settledBy {o : Order} (h : Explained past o) (hstatus : o.status = .processed) :
    ∃ c, SettledBy past c o := by
  cases h with
  | processed hsettled => exact ⟨_, hsettled⟩
  | new hother => cases hother.symm.trans hstatus
  | processing hother => cases hother.symm.trans hstatus
  | invalid hother => cases hother.symm.trans hstatus

theorem Explained.answered_invalid {o : Order} (h : Explained past o)
    (hstatus : o.status = .invalid) :
    ∃ a, Answered past o.number (.ok a) ∧ a.status = .invalid := by
  cases h with
  | invalid _ _ hanswered hverdict => exact ⟨_, hanswered, hverdict⟩
  | new hother => cases hother.symm.trans hstatus
  | processing hother => cases hother.symm.trans hstatus
  | processed hsettled => cases hsettled.order_eq.1.symm.trans hstatus

theorem Explained.answered_processing {o : Order} (h : Explained past o)
    (hstatus : o.status = .processing) :
    ∃ a, Answered past o.number (.ok a) ∧ a.status = .processing := by
  cases h with
  | processing _ _ hanswered hverdict => exact ⟨_, hanswered, hverdict⟩
  | new hother => cases hother.symm.trans hstatus
  | invalid hother => cases hother.symm.trans hstatus
  | processed hsettled => cases hsettled.order_eq.1.symm.trans hstatus

/-! ## The invariant -/

/-- What holds at any time of a run, with what has happened so far. -/
structure Sound (past : List (System × Label)) (s : System) : Prop where
  held : ∀ o, s.Holds o → ∃ o' ∈ s.book.ledger.orders, o.Evolves o'
  credits : ∀ c, s.Carries c ∨ Applied past c → Justified past s.book.ledger c
  orders : ∀ o ∈ s.book.ledger.orders, Explained past o

theorem sound_start (capacity routers settlers : ℕ) :
    Sound [] (start capacity routers settlers) where
  held := by
    rintro o (⟨c, hc, -⟩ | ho | ho | ho)
    · cases hc
    · cases ho
    · cases ho
    · cases List.eq_of_mem_replicate ho
  credits := by
    rintro c ((hc | hc | hc) | ⟨s, i, hmem, -⟩)
    · cases List.eq_of_mem_replicate hc
    · cases hc
    · cases List.eq_of_mem_replicate hc
    · cases hmem
  orders := by
    intro o ho
    cases ho

/-- The order that a worker asks about has the number of the order that a mark of its id reaches. -/
theorem Sound.number_eq (h : Sound past s) (hids : (s.book.ledger.orders.map (·.id)).Nodup)
    {i : ℕ} {asked o : Order} (hrouter : s.routers[i]? = some (.asking asked))
    (ho : o ∈ s.book.ledger.orders) (hid : o.id = asked.id) : asked.number = o.number := by
  obtain ⟨o', ho', hevolves⟩ := h.held asked (.inr (.inr (.inr (List.mem_of_getElem? hrouter))))
  have hsame : o' = o := List.inj_on_of_nodup_map hids ho' ho (hevolves.id_eq.trans hid.symm)
  rw [← hsame, hevolves.number_eq]

/-- What a call in a step leaves of an order is explained. -/
theorem Sound.explained (h : Sound past s) (hids : (s.book.ledger.orders.map (·.id)).Nodup)
    {op : Operation} {o : Order} (hcalls : Calls s l op)
    (horigin : Ledger.Origin s.book.ledger op o) : Explained (past ++ [(s, l)]) o := by
  have hlast : (s, l) ∈ past ++ [(s, l)] := List.mem_append_right _ List.mem_cons_self
  cases horigin with
  | kept ho => exact (h.orders o ho).mono _
  | fresh => exact .new rfl rfl
  | settled ho hs =>
    cases hcalls with
    | credit hsettler => exact .processed ⟨s, _, _, hlast, hsettler, ho, hs, rfl⟩
  | marked ho hm =>
    -- Only a pending order is marked, so it had no points.
    have haccrual := (h.orders _ ho).accrual_eq_zero (Ledger.status_ne_of_isMarked hm)
    cases hcalls with
    | markProcessing hrouter hstatus =>
      have hid := (Bool.and_eq_true_iff.mp hm).1
      have hnumber := h.number_eq hids hrouter ho (by simpa using hid)
      exact .processing rfl haccrual ⟨s, _, _, hlast, hrouter, hnumber⟩ hstatus
    | markInvalid hrouter hstatus =>
      have hid := (Bool.and_eq_true_iff.mp hm).1
      have hnumber := h.number_eq hids hrouter ho (by simpa using hid)
      exact .invalid rfl haccrual ⟨s, _, _, hlast, hrouter, hnumber⟩ hstatus

/-- A step keeps all of it, while ids are different. -/
theorem Sound.step (h : Sound past s) (hstep : Step supply s l t)
    (hids : (s.book.ledger.orders.map (·.id)).Nodup) : Sound (past ++ [(s, l)]) t where
  held := by
    intro o ho
    rcases hstep.holds ho with ho | ho
    · obtain ⟨o', ho', hevolves⟩ := h.held o ho
      obtain ⟨o'', ho'', hevolves'⟩ := hstep.persists.mem ho'
      exact ⟨o'', ho'', hevolves.trans hevolves'⟩
    · exact ⟨o, ho, .refl o⟩
  credits := by
    intro c hc
    have hbefore : (s.Carries c ∨ Applied past c) ∨ s.Grants l c := by
      rcases hc with hc | hc
      · rcases hstep.carries hc with hc | hc
        · exact .inl (.inl hc)
        · exact .inr hc
      · rcases applied_concat hc with hc | ⟨i, rfl, hsettler⟩
        · exact .inl (.inr hc)
        · exact .inl (.inl (.inr (.inr (List.mem_of_getElem? hsettler))))
    rcases hbefore with hc | ⟨i, o, a, rfl, hrouter, hverdict, rfl⟩
    · exact (h.credits c hc).mono hstep.persists _
    · -- The oracle has just granted it, for an order that a worker holds.
      obtain ⟨o', ho', hevolves⟩ := h.held o (.inr (.inr (.inr (List.mem_of_getElem? hrouter))))
      obtain ⟨o'', ho'', hevolves'⟩ := hstep.persists.mem ho'
      have hsame := hevolves.trans hevolves'
      exact ⟨⟨o'', ho'', hsame.user_eq, hsame.number_eq⟩, a,
        ⟨s, i, o, List.mem_append_right _ List.mem_cons_self, hrouter, rfl⟩, hverdict, rfl⟩
  orders := by
    intro o ho
    rcases hstep.origin ho with ho | ⟨op, hcalls, horigin⟩
    · exact (h.orders o ho).mono _
    · exact h.explained hids hcalls horigin

/-- A run keeps all of it, if its last ledger has different ids. -/
theorem Trace.sound (h : Trace supply s past t) (hs : Sound [] s)
    (hids : (t.book.ledger.orders.map (·.id)).Nodup) : Sound past t := by
  induction h with
  | nil => exact hs
  | snoc htrace hstep ih =>
    have hbefore := hstep.persists.ids_extend.sublist.nodup hids
    exact (ih hbefore).step hstep hbefore

/-! ## The decisions -/

/-- What stands behind the decisions at any time of a run. -/
structure Decided (supply : ℕ → Stamp) (past : List (System × Label)) (s : System) : Prop where
  /-- All credits that are held, queued or applied were granted for an order that is stored. -/
  credits : ∀ c, s.Carries c ∨ Applied past c → Justified past s.book.ledger c
  /-- An order is processed by a credit that was applied, and it has its amount. -/
  processed : ∀ o ∈ s.book.ledger.orders, o.status = .processed →
    ∃ c, SettledBy past c o ∧ Justified past s.book.ledger c ∧ o.user = c.user ∧
      o.number = c.number ∧ o.accrual = c.amount
  /-- An order is invalid if the oracle said so. -/
  invalid : ∀ o ∈ s.book.ledger.orders, o.status = .invalid →
    ∃ a, Answered past o.number (.ok a) ∧ a.status = .invalid
  /-- An order is in work if the oracle said so. -/
  processing : ∀ o ∈ s.book.ledger.orders, o.status = .processing →
    ∃ a, Answered past o.number (.ok a) ∧ a.status = .processing
  /-- An order that no answer decided is as it was submitted. -/
  undecided : ∀ o ∈ s.book.ledger.orders,
    (∀ answer, Answered past o.number answer → IsOpen answer) →
      o.status = .new ∧ o.accrual = .zero
  /-- The next step changes no points, but those of the user whose credit is applied or who
      withdraws. -/
  points : ∀ l t user, Step supply s l t →
    (t.book.ledger.current user = s.book.ledger.current user ∧
      t.book.ledger.withdrawn user = s.book.ledger.withdrawn user) ∨
    (∃ i c, l = .settle i ∧ s.settlers[i]? = some (.applying c) ∧ c.user = user ∧
      (s.book.ledger.current user).add c.amount = .ok (t.book.ledger.current user) ∧
      t.book.ledger.withdrawn user = s.book.ledger.withdrawn user) ∨
    (∃ number amount, l = .withdraw user number amount ∧
      (s.book.ledger.current user).sub amount = .ok (t.book.ledger.current user))

theorem Step.points (h : Step supply s l t) (user : String) :
    (t.book.ledger.current user = s.book.ledger.current user ∧
      t.book.ledger.withdrawn user = s.book.ledger.withdrawn user) ∨
    (∃ i c, l = .settle i ∧ s.settlers[i]? = some (.applying c) ∧ c.user = user ∧
      (s.book.ledger.current user).add c.amount = .ok (t.book.ledger.current user) ∧
      t.book.ledger.withdrawn user = s.book.ledger.withdrawn user) ∨
    (∃ number amount, l = .withdraw user number amount ∧
      (s.book.ledger.current user).sub amount = .ok (t.book.ledger.current user)) := by
  rcases h.book_eq with hbook | ⟨op, hcalls, hbook⟩
  · exact .inl ⟨by rw [hbook], by rw [hbook]⟩
  · have heffect := Ledger.perform_effect supply op s.book
    rw [← hbook] at heffect
    rcases heffect.points user with h | ⟨c, rfl, hc, hadd, hwithdrawn⟩ | ⟨number, amount, hop, hsub⟩
    · exact .inl h
    · cases hcalls with
      | credit hsettler => exact .inr (.inl ⟨_, c, rfl, hsettler, hc, hadd, hwithdrawn⟩)
    · rcases hop with rfl | ⟨rfl, -⟩
      · cases hcalls
      · cases hcalls with
        | withdraw => exact .inr (.inr ⟨number, amount, rfl, hsub⟩)

/-- An order that no answer decided has neither been marked nor settled. -/
theorem Sound.undecided (h : Sound past s) {o : Order} (ho : o ∈ s.book.ledger.orders)
    (hopen : ∀ answer, Answered past o.number answer → IsOpen answer) :
    o.status = .new ∧ o.accrual = .zero := by
  cases h.orders o ho with
  | new hstatus haccrual => exact ⟨hstatus, haccrual⟩
  | processing _ _ hanswered hverdict =>
    rcases hopen _ hanswered with h | h <;> rw [hverdict] at h <;> cases h
  | invalid _ _ hanswered hverdict =>
    rcases hopen _ hanswered with h | h <;> rw [hverdict] at h <;> cases h
  | processed hsettled =>
    obtain ⟨-, a, hanswered, hverdict, -⟩ := h.credits _ (.inr hsettled.applied)
    rw [← hsettled.order_eq.2.2.1] at hanswered
    rcases hopen _ hanswered with h | h <;> rw [hverdict] at h <;> cases h

/-- However the parties take turns and whatever the oracle says: each credit, each status that is
    not the first one and each change of points is justified by an answer for the number of the
    order, or is a withdrawal. -/
theorem decisions_justified {capacity routers settlers : ℕ}
    (htrace : Trace supply (start capacity routers settlers) past s)
    (hids : (s.book.ledger.orders.map (·.id)).Nodup) : Decided supply past s := by
  have h := htrace.sound (sound_start capacity routers settlers) hids
  exact {
    credits := h.credits
    processed := by
      intro o ho hstatus
      obtain ⟨c, hsettled⟩ := (h.orders o ho).settledBy hstatus
      exact ⟨c, hsettled, h.credits c (.inr hsettled.applied), hsettled.order_eq.2⟩
    invalid := fun o ho => (h.orders o ho).answered_invalid
    processing := fun o ho => (h.orders o ho).answered_processing
    undecided := fun o ho => h.undecided ho
    points := fun l t user hstep => hstep.points user }

/-- An order is handed over and swept up as well. The oracle tells one worker that it is at work on
    it, and grants another one half a cent more than a point. -/
def changingItsMind : List Label :=
  [.submit "ann" "79927398713", .submission 0, .submission 0, .list none 10, .register 0,
    .offer (Order.submitted (Stamp.number 0).recordId "ann" "79927398713" (Stamp.number 0).now),
    .receiveOrder 0, .receiveOrder 1, .answer 0 (.ok ⟨"79927398713", .processing, none⟩),
    .answer 1 (.ok ⟨"79927398713", .processed, some ⟨1005, 3, by decide, by decide⟩⟩), .forward 1,
    .receiveCredit 0, .settle 0, .stop]

/-- The order is processed by the credit that the second worker was granted. -/
theorem decisions_justified_of_two_answers :
    ∃ past s, Trace .number (start 2 2 1) past s ∧ past.map (·.2) = changingItsMind ∧
      (∃ o ∈ s.book.ledger.orders, o.status = .processed ∧
        o.accrual = ⟨101, 2, by decide, by decide⟩) ∧ Decided .number past s := by
  have hlisted : ∀ (l : Ledger) {o : Order}, l.orders = [o] → o.isPending = true →
      o ∈ l.pendingOrders none 10 := by
    intro l o ho hpending
    rw [Ledger.pendingOrders_of_length_le (by simp [ho]), Ledger.mem_pendingBehind, ho]
    exact ⟨List.mem_cons_self, hpending, rfl⟩
  have hrun : ∃ s, Runs .number (start 2 2 1) changingItsMind s ∧
      s.book.ledger.orders.map (·.id) = [(Stamp.number 0).recordId] ∧
      ∃ o ∈ s.book.ledger.orders, o.status = .processed ∧
        o.accrual = ⟨101, 2, by decide, by decide⟩ :=
    ⟨_, .cons (.submit _ _) <| .cons (.submission rfl rfl) <| .cons (.submission rfl rfl) <|
      .cons (.list _ _) <| .cons (.register rfl rfl rfl) <|
      .cons (.offer (hlisted _ rfl rfl) rfl) <| .cons (.receiveOrder rfl rfl) <|
      .cons (.receiveOrder rfl rfl) <| .cons (.answer rfl rfl) <| .cons (.answer rfl rfl) <|
      .cons (.forward rfl rfl) <| .cons (.receiveCredit rfl rfl) <|
      .cons (.settle rfl rfl) <| .cons .stop .nil, rfl, _, List.mem_cons_self, rfl, rfl⟩
  obtain ⟨s, hruns, hids, ho⟩ := hrun
  obtain ⟨past, htrace, hlabels⟩ := hruns.trace
  refine ⟨past, s, htrace, hlabels, ho, decisions_justified htrace ?_⟩
  rw [hids]
  exact List.nodup_singleton _

end System

end LoyaltyPoints
