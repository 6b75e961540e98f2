import LoyaltyPoints.Proofs.Pipeline.Sweeping

/-! # Pipeline: passes of the sweeper

    A pass begins with a page from the start and goes on until a page comes to the end, over as many
    sweeps as the intake makes necessary. It is fair: it registers orders by increasing positions,
    and leaves none out that is pending all the time.

    A pass is a walk, in which each page goes on where the one before it has stopped. Whatever is
    left out of a page lies behind the place that the page has reached, and the last page leaves
    nothing out. -/

namespace LoyaltyPoints

namespace Sweep

/-! ## Walks -/

/-- Pages of which each goes on where the one before it has stopped. -/
inductive Walk (batch : ℤ) : Option Position → List Page → Prop where
  | last {after : Option Position} {p : Page} (hafter : p.after = after) : Walk batch after [p]
  | step {after : Option Position} {p : Page} {ps : List Page} {x : Position}
      (hafter : p.after = after) (hends : ¬ p.Ends batch) (hreached : p.reached = some x)
      (hrest : Walk batch (some x) ps) : Walk batch after (p :: ps)

namespace Page

variable {batch : ℤ} {p : Page}

theorem Genuine.mem_pendingBehind (h : p.Genuine batch) {o : Order} (ho : o ∈ p.registered) :
    o ∈ p.ledger.pendingBehind p.after := by
  obtain ⟨hlisted, htaken⟩ := h
  rw [hlisted] at htaken
  exact List.mem_of_mem_take (htaken.subset ho)

/-- The orders registered of a page are the first ones behind its cursor. -/
theorem Genuine.prefix_pendingBehind (h : p.Genuine batch) :
    p.registered <+: p.ledger.pendingBehind p.after := by
  obtain ⟨hlisted, htaken⟩ := h
  rw [hlisted] at htaken
  exact htaken.trans (List.take_prefix _ _)

theorem Genuine.increasing (h : p.Genuine batch) (hids : (p.ledger.orders.map (·.id)).Nodup) :
    p.registered.Pairwise fun a b => a.position.before b.position = true :=
  (Ledger.pendingBehind_pairwise hids p.after).sublist h.prefix_pendingBehind.sublist

/-- Whatever is behind the place that a page has reached is behind its orders and its cursor. -/
theorem Genuine.before_of_isBehind (h : p.Genuine batch)
    (hids : (p.ledger.orders.map (·.id)).Nodup) {x : Position} (hx : p.reached = some x)
    {o : Order} (ho : Ledger.isBehind (some x) o = true) :
    Ledger.isBehind p.after o = true ∧ ∀ a ∈ p.registered, a.position.before o.position = true := by
  cases hlast : p.registered.getLast? with
  | none =>
    have hnil : p.registered = [] := List.getLast?_eq_none_iff.mp hlast
    have hafter : p.after = some x := by simpa [reached, hlast] using hx
    rw [hafter, hnil]
    exact ⟨ho, by simp⟩
  | some y =>
    obtain rfl : y.position = x := by simpa [reached, hlast] using hx
    have hy : y ∈ p.registered := List.mem_of_getLast? hlast
    have hbehind := (Ledger.mem_pendingBehind.mp (h.mem_pendingBehind hy)).2.2
    refine ⟨Ledger.isBehind_trans hbehind ho, ?_⟩
    obtain ⟨before, hbefore⟩ := List.getLast?_eq_some_iff.mp hlast
    have hsorted := h.increasing hids
    intro a ha
    rw [hbefore] at ha hsorted
    rcases List.mem_append.mp ha with ha | ha
    · exact Position.before_trans
        ((List.pairwise_append.mp hsorted).2.2 a ha y List.mem_cons_self) ho
    · rw [List.mem_singleton.mp ha]
      exact ho

/-- A pending order behind the cursor is registered, or the page does not come to the end and has
    not reached the order. -/
theorem Genuine.registered_or (h : p.Genuine batch) (hids : (p.ledger.orders.map (·.id)).Nodup)
    {o : Order} (ho : o ∈ p.ledger.pendingBehind p.after) :
    o ∈ p.registered ∨
      (¬ p.Ends batch ∧ ∀ x, p.reached = some x → Ledger.isBehind (some x) o = true) := by
  rcases Ledger.mem_or_before_of_prefix hids h.prefix_pendingBehind ho with hmem | hbefore
  · exact .inl hmem
  by_cases hends : p.Ends batch
  · -- All that is behind the cursor was listed, and all that was listed is registered.
    have hlisted : p.listed = p.ledger.pendingBehind p.after := by
      have hlt := hends.2
      rw [h.1, Ledger.pendingOrders, List.length_take] at hlt
      rw [h.1]
      exact List.take_of_length_le (by omega)
    have hregistered : p.registered = p.listed := h.2.eq_of_length hends.1
    rw [hregistered, hlisted]
    exact .inl ho
  · refine .inr ⟨hends, ?_⟩
    intro x hx
    cases hlast : p.registered.getLast? with
    | none =>
      have hafter : p.after = some x := by simpa [reached, hlast] using hx
      rw [← hafter]
      exact (Ledger.mem_pendingBehind.mp ho).2.2
    | some y =>
      obtain rfl : y.position = x := by simpa [reached, hlast] using hx
      exact hbefore y (List.mem_of_getLast? hlast)

end Page

section walk

variable {batch : ℤ} {after : Option Position} {pages : List Page}

/-- Pages that lead to each other are a walk, if the first one has reached a place and none but the
    last comes to the end. -/
theorem walk_of_isChain {p : Page}
    (hchain : (p :: pages).IsChain fun p q => p.LeadsTo batch q.after)
    (hends : ∀ q ∈ (p :: pages).dropLast, ¬ q.Ends batch) (hreached : p.reached ≠ none) :
    Walk batch p.after (p :: pages) := by
  induction pages generalizing p with
  | nil => exact .last rfl
  | cons q pages ih =>
    rw [List.isChain_cons_cons] at hchain
    rw [List.dropLast_cons_cons, List.forall_mem_cons] at hends
    obtain ⟨x, hx⟩ := Option.ne_none_iff_exists'.mp hreached
    have hafter : q.after = some x := hchain.1 hends.1 x hx
    have hq : q.reached ≠ none := by
      rw [Page.reached, hafter]
      cases q.registered.getLast? <;> simp
    exact .step rfl hends.1 hx (hafter ▸ ih hchain.2 hends.2 hq)

/-- A walk that begins with a cursor goes on with cursors. -/
theorem Walk.after_ne_none (h : Walk batch after pages) (hafter : after ≠ none) :
    ∀ p ∈ pages, p.after ≠ none := by
  induction h with
  | last heq =>
    rw [List.forall_mem_singleton, heq]
    exact hafter
  | step heq _ _ _ ih =>
    rw [List.forall_mem_cons, heq]
    exact ⟨hafter, ih (by simp)⟩

/-- What is registered in a walk is behind its cursor, by increasing positions. -/
theorem Walk.increasing (h : Walk batch after pages) (hgenuine : ∀ p ∈ pages, p.Genuine batch)
    (hids : ∀ p ∈ pages, (p.ledger.orders.map (·.id)).Nodup) :
    (registered pages).Pairwise (fun a b => a.position.before b.position = true) ∧
      ∀ o ∈ registered pages, Ledger.isBehind after o = true := by
  have hbehind : ∀ {p : Page}, p.Genuine batch → ∀ o ∈ p.registered,
      Ledger.isBehind p.after o = true := by
    intro p hp o ho
    exact (Ledger.mem_pendingBehind.mp (hp.mem_pendingBehind ho)).2.2
  induction h with
  | @last _ p heq =>
    rw [List.forall_mem_singleton] at hgenuine hids
    have hpages : registered [p] = p.registered := by simp [registered]
    rw [hpages, ← heq]
    exact ⟨hgenuine.increasing hids, hbehind hgenuine⟩
  | @step _ p ps x heq hends hreached hrest ih =>
    rw [List.forall_mem_cons] at hgenuine hids
    obtain ⟨hsorted, hrest⟩ := ih hgenuine.2 hids.2
    have hpages : registered (p :: ps) = p.registered ++ registered ps := rfl
    rw [hpages, ← heq, List.pairwise_append]
    refine ⟨⟨hgenuine.1.increasing hids.1, hsorted, ?_⟩, ?_⟩
    · intro a ha b hb
      exact (hgenuine.1.before_of_isBehind hids.1 hreached (hrest b hb)).2 a ha
    · intro o ho
      rcases List.mem_append.mp ho with ho | ho
      · exact hbehind hgenuine.1 o ho
      · exact (hgenuine.1.before_of_isBehind hids.1 hreached (hrest o ho)).1

/-- What stays pending at a position behind the cursor is registered, if the walk comes to the
    end. -/
theorem Walk.complete (h : Walk batch after pages) (hgenuine : ∀ p ∈ pages, p.Genuine batch)
    (hids : ∀ p ∈ pages, (p.ledger.orders.map (·.id)).Nodup)
    (hends : ∀ p ∈ pages.getLast?, p.Ends batch) {o : Order}
    (hbehind : Ledger.isBehind after o = true)
    (hpending : ∀ p ∈ pages, ∃ o' ∈ p.ledger.orders,
      o'.position = o.position ∧ o'.isPending = true) :
    ∃ o' ∈ registered pages, o'.position = o.position := by
  -- In each page the order is registered, or it is behind the place that the page has reached.
  have hpage : ∀ {p : Page}, p.Genuine batch → (p.ledger.orders.map (·.id)).Nodup →
      Ledger.isBehind p.after o = true →
      (∃ o' ∈ p.ledger.orders, o'.position = o.position ∧ o'.isPending = true) →
      (∃ o' ∈ p.registered, o'.position = o.position) ∨
        (¬ p.Ends batch ∧ ∀ x, p.reached = some x → Ledger.isBehind (some x) o = true) := by
    rintro p hp hids hbehind ⟨o', ho', hposition, hpending⟩
    have hmem : o' ∈ p.ledger.pendingBehind p.after :=
      Ledger.mem_pendingBehind.mpr ⟨ho', hpending, (Ledger.isBehind_congr hposition).trans hbehind⟩
    rcases hp.registered_or hids hmem with hmem | ⟨hends, hreached⟩
    · exact .inl ⟨o', hmem, hposition⟩
    · refine .inr ⟨hends, ?_⟩
      intro x hx
      exact (Ledger.isBehind_congr hposition).symm.trans (hreached x hx)
  induction h with
  | @last _ p heq =>
    rw [List.forall_mem_singleton] at hgenuine hids hpending
    rw [← heq] at hbehind
    have hlast : p.Ends batch := hends p rfl
    rcases hpage hgenuine hids hbehind hpending with ⟨o', ho', hposition⟩ | ⟨hnot, -⟩
    · exact ⟨o', by simpa [registered] using ho', hposition⟩
    · exact absurd hlast hnot
  | @step _ p ps x heq _ hreached hrest ih =>
    rw [List.forall_mem_cons] at hgenuine hids hpending
    rw [← heq] at hbehind
    have hlast : ∀ q ∈ ps.getLast?, q.Ends batch := by
      intro q hq
      refine hends q ?_
      rw [Option.mem_def] at hq ⊢
      rw [List.getLast?_cons, hq]
      rfl
    have hpages : registered (p :: ps) = p.registered ++ registered ps := rfl
    rw [hpages]
    rcases hpage hgenuine.1 hids.1 hbehind hpending.1 with ⟨o', ho', hposition⟩ | ⟨-, hnext⟩
    · exact ⟨o', List.mem_append_left _ ho', hposition⟩
    · obtain ⟨o', ho', hposition⟩ :=
        ih hgenuine.2 hids.2 hlast (hnext x hreached) hpending.2
      exact ⟨o', List.mem_append_right _ ho', hposition⟩

end walk

/-! ## Passes -/

/-- Whether these pages are a pass, or the beginning of one: the first page is listed without a
    cursor and orders of it are registered, and only the last page may come to the end. -/
def IsPass (batch : ℤ) (pages : List Page) : Prop :=
  (∃ p ps, pages = p :: ps ∧ p.after = none ∧ p.registered ≠ []) ∧
    ∀ p ∈ pages.dropLast, ¬ p.Ends batch

/-- What is due in a pass. -/
structure Fair (batch : ℤ) (pass : List Page) : Prop where
  /-- The positions of the orders registered increase. -/
  increasing : (registered pass).Pairwise fun a b => a.position.before b.position = true
  /-- No order is registered twice. -/
  nodup : ((registered pass).map (·.id)).Nodup
  /-- No page but the first is listed without a cursor. -/
  cursor : ∀ p ∈ pass.tail, p.after ≠ none
  /-- When the pass has ended, all orders are registered that were there when it began and were
      pending all the time. -/
  complete : (∀ p ∈ pass.getLast?, p.Ends batch) → ∀ o : Order,
    (∀ p ∈ pass.head?, o ∈ p.ledger.orders) →
    (∀ p ∈ pass, ∃ o' ∈ p.ledger.orders, o'.id = o.id ∧ o'.isPending = true) →
    ∃ o' ∈ registered pass, o'.id = o.id

namespace Scene

variable {supply : ℕ → Stamp} {batch : ℤ} {s : Scene}

theorem Sound.ids_nodup (h : s.Sound batch) (hids : (s.book.ledger.orders.map (·.id)).Nodup)
    {p : Page} (hp : p ∈ s.pages) : (p.ledger.orders.map (·.id)).Nodup :=
  (h.stored p hp).ids_extend.sublist.nodup hids

/-- Orders of the log that have one id have one position. -/
theorem Sound.position_eq (h : s.Sound batch) (hids : (s.book.ledger.orders.map (·.id)).Nodup)
    {p q : Page} (hp : p ∈ s.pages) (hq : q ∈ s.pages) {o o' : Order} (ho : o ∈ p.ledger.orders)
    (ho' : o' ∈ q.ledger.orders) (hid : o'.id = o.id) : o'.position = o.position := by
  obtain ⟨x, hx, hevolves⟩ := (h.stored p hp).mem ho
  obtain ⟨y, hy, hevolves'⟩ := (h.stored q hq).mem ho'
  have hsame : y.id = x.id := hevolves'.id_eq.trans (hid.trans hevolves.id_eq.symm)
  obtain rfl : y = x := List.inj_on_of_nodup_map hids hy hx hsame
  exact hevolves'.position_eq.symm.trans hevolves.position_eq

/-- A pass in the log is fair. -/
theorem Sound.fair (h : s.Sound batch) (hids : (s.book.ledger.orders.map (·.id)).Nodup)
    {pass : List Page} (hsub : pass <:+: s.history) (hpass : IsPass batch pass) :
    Fair batch pass := by
  have hmem : ∀ p ∈ pass, p ∈ s.pages := fun p hp => List.mem_reverse.mp (hsub.subset hp)
  have hgenuine : ∀ p ∈ pass, p.Genuine batch := fun p hp => h.genuine p (hmem p hp)
  have hnodup : ∀ p ∈ pass, (p.ledger.orders.map (·.id)).Nodup :=
    fun p hp => h.ids_nodup hids (hmem p hp)
  have hchain : pass.IsChain fun p q => p.LeadsTo batch q.after := by
    have hhistory := List.isChain_reverse.mpr h.linked
    obtain ⟨before, after, heq⟩ := hsub
    rw [← history, ← heq] at hhistory
    exact hhistory.left_of_append.right_of_append
  obtain ⟨⟨p, ps, rfl, hafter, hregistered⟩, hends⟩ := hpass
  have hreached : p.reached ≠ none := by
    obtain ⟨o, ho⟩ := Option.ne_none_iff_exists'.mp
      (fun hnone => hregistered (List.getLast?_eq_none_iff.mp hnone))
    simp [Page.reached, ho]
  have hwalk : Walk batch none (p :: ps) := hafter ▸ walk_of_isChain hchain hends hreached
  have hincreasing := (hwalk.increasing hgenuine hnodup).1
  exact {
    increasing := hincreasing
    nodup := by
      rw [List.Nodup, List.pairwise_map]
      refine hincreasing.imp_of_mem ?_
      intro a b ha hb hbefore hid
      obtain ⟨q, hq, ha⟩ := List.mem_flatMap.mp ha
      obtain ⟨r, hr, hb⟩ := List.mem_flatMap.mp hb
      have ha := (Ledger.mem_pendingBehind.mp ((hgenuine q hq).mem_pendingBehind ha)).1
      have hb := (Ledger.mem_pendingBehind.mp ((hgenuine r hr).mem_pendingBehind hb)).1
      rw [h.position_eq hids (hmem r hr) (hmem q hq) hb ha hid, Position.before_irrefl] at hbefore
      cases hbefore
    cursor := by
      cases hwalk with
      | last => simp
      | step _ _ _ hrest => exact hrest.after_ne_none (by simp)
    complete := by
      intro hlast o ho hpending
      have ho : o ∈ p.ledger.orders := ho p rfl
      obtain ⟨o', ho', hposition⟩ := hwalk.complete hgenuine hnodup hlast (o := o) rfl (by
        intro q hq
        obtain ⟨o', ho', hid, hpending⟩ := hpending q hq
        exact ⟨o', ho', h.position_eq hids (hmem p List.mem_cons_self) (hmem q hq) ho ho' hid,
          hpending⟩)
      exact ⟨o', ho', congrArg Position.id hposition⟩ }

end Scene

/-- Whatever the others do between the calls of the sweeper: each pass is fair, and a sweep that
    fails does nothing but list. -/
theorem passes_fair {supply : ℕ → Stamp} {batch : ℤ} (hbatch : 1 ≤ batch) (book : LedgerState)
    (capacity : ℕ) (turns : List Turn) (n : ℕ)
    (hids : (((Scene.start book capacity turns).sweeps supply batch n).book.ledger.orders.map
      (·.id)).Nodup) :
    (∀ pass, pass <:+: ((Scene.start book capacity turns).sweeps supply batch n).history →
      IsPass batch pass → Fair batch pass) ∧
    ∀ f, (((Scene.start book capacity turns).sweeps supply batch n).sweep supply batch).1 =
        .error f →
      Scene.Idle supply ((Scene.start book capacity turns).sweeps supply batch n)
        (((Scene.start book capacity turns).sweeps supply batch n).sweep supply batch).2 := by
  have hstart : (Scene.start book capacity turns).Resumes batch := by
    rintro p ⟨⟩
  obtain ⟨hsound, hresumes⟩ :=
    (Scene.sound_start book capacity turns).sweeps supply hstart hbatch n
  exact ⟨fun pass hsub hpass => hsound.fair hids hsub hpass,
    (hsound.sweep supply hresumes hbatch).2.2⟩

/-- An order of ann's. -/
def earlier : Order :=
  .submitted (Stamp.number 0).recordId "ann" "79927398713" (Stamp.number 0).now

/-- Another one, which was submitted later. -/
def later : Order :=
  .submitted (Stamp.number 1).recordId "ann" "4561261212345467" (Stamp.number 1).now

/-- A sweeper of a ledger with both. There is room for one order in the intake, and somebody takes
    it out before the fourth call. -/
def shortOfRoom : Scene :=
  .start ⟨{ orders := [earlier, later] }, 2⟩ 1 [{}, {}, {}, { moves := [.take] }]

/-- The full intake cuts the first page short, and the second sweep goes on with the other order. -/
theorem passes_fair_of_full_intake :
    let s := shortOfRoom.sweeps .number 2 2
    (s.book.ledger.orders.map (·.id)).Nodup ∧ IsPass 2 s.history ∧
      (∀ p ∈ s.history.getLast?, p.Ends 2) ∧ registered s.history = [earlier, later] ∧
      Fair 2 s.history := by
  intro s
  let l : Ledger := { orders := [earlier, later] }
  have hpage : ∀ after os,
      (l.orders.filter fun o => o.isPending && Ledger.isBehind after o) = os →
      os.Pairwise (fun a b => (a.position.compare b.position != .gt) = true) →
      Page.ofLedger after 2 l = ⟨after, l, os.take 2, []⟩ := by
    intro after os hos hsorted
    rw [Page.ofLedger, Ledger.pendingOrders, Ledger.pendingBehind, hos,
      List.mergeSort_of_pairwise hsorted]
    rfl
  have hfirst : Page.ofLedger none 2 l = ⟨none, l, [earlier, later], []⟩ :=
    hpage none [earlier, later] (by decide +kernel) (by decide +kernel)
  have hsecond : Page.ofLedger (some earlier.position) 2 l =
      ⟨some earlier.position, l, [later], []⟩ :=
    hpage _ [later] (by decide +kernel) (by decide +kernel)
  -- Listings are rewritten before the calls are run, for the sort does not run by itself.
  let middle : Scene := ⟨⟨l, 2⟩, ⟨1, [earlier], false⟩, some earlier.position,
    [{ moves := [.take] }], [⟨none, l, [earlier, later], [earlier]⟩]⟩
  have hone : ∃ r, shortOfRoom.sweep .number 2 = (.ok r, middle) := by
    have hlist := Scene.list_perform .number (s := shortOfRoom) rfl none 2
    rw [show (shortOfRoom.next .number).book.ledger = l from rfl, hfirst] at hlist
    simp only [Scene.sweep, once, page, Action.perform_bind, Scene.store_pendingOrders]
    rw [show shortOfRoom.cursor = none from rfl, hlist]
    exact ⟨_, rfl⟩
  have htwo : ∃ r t, middle.sweep .number 2 = (.ok r, t) ∧ t.book.ledger = l ∧
      t.history = [⟨none, l, [earlier, later], [earlier]⟩,
        ⟨some earlier.position, l, [later], [later]⟩] := by
    have hlist := Scene.list_perform .number (s := middle) rfl (some earlier.position) 2
    rw [show (middle.next .number).book.ledger = l from rfl, hsecond] at hlist
    simp only [Scene.sweep, once, page, Action.perform_bind, Scene.store_pendingOrders]
    rw [show middle.cursor = some earlier.position from rfl, hlist]
    exact ⟨_, _, rfl, rfl, rfl⟩
  obtain ⟨r, hone⟩ := hone
  obtain ⟨r', t, htwo, hledger, hhistory⟩ := htwo
  have hs : s = t := by
    show ((shortOfRoom.sweep .number 2).2.sweep .number 2).2 = t
    rw [hone, htwo]
  have hids : (s.book.ledger.orders.map (·.id)).Nodup := by
    rw [hs, hledger]
    decide +kernel
  have hpass : IsPass 2 s.history := by
    rw [hs, hhistory]
    refine ⟨⟨_, _, rfl, rfl, by simp⟩, ?_⟩
    simp [Page.Ends]
  refine ⟨hids, hpass, ?_, ?_, ?_⟩
  · rw [hs, hhistory]
    rintro p ⟨⟩
    exact ⟨rfl, by decide⟩
  · rw [hs, hhistory]
    rfl
  · exact (passes_fair (by decide) ⟨l, 2⟩ 1 [{}, {}, {}, { moves := [.take] }] 2 hids).1
      s.history (List.infix_refl _) hpass

end Sweep

end LoyaltyPoints
