import LoyaltyPoints.Proofs.Ledger.Isolation

/-! # Ledger: users do not interfere

    A user misses none of the other users' withdrawals, balance reads and credits, no credit that
    names someone who does not own the order, and none of the own balance reads and refused
    withdrawals. A run is compared with a shorter one in which some of these calls are not made: at
    every point the two ledgers are alike for the user. So every answer that the user gets in the
    shorter run is the one of the whole run, ids and times aside, and in the end the user has the
    same points, orders and withdrawals. -/

namespace LoyaltyPoints

/-! ## Calls that are left out -/

/-- The calls that a user does not miss: withdrawals and credits of others, credits that name
    someone who does not own the order, balance reads, and withdrawals of the user's own that were
    refused. -/
inductive Operation.Deletable (user : String) (l : Ledger) (s : Stamp) : Operation → Prop where
  | balance (u : String) : Deletable user l s (.balance u)
  | withdraw {u number : String} {amount : Decimal} (h : u ≠ user) :
    Deletable user l s (.withdraw u number amount)
  | debit {u number : String} {amount : Decimal} (h : u ≠ user) :
    Deletable user l s (.debit u number amount)
  | withdrawRefused {number : String} {amount : Decimal} {e : Error}
    (h : ((Operation.withdraw user number amount).on s l).1 = .error (.error e)) :
    Deletable user l s (.withdraw user number amount)
  | debitRefused {number : String} {amount : Decimal} {e : Error}
    (h : ((Operation.debit user number amount).on s l).1 = .error (.error e)) :
    Deletable user l s (.debit user number amount)
  | accrue {c : Credit} (h : c.user ≠ user) : Deletable user l s (.accrue c)
  | accrueForeign {c : Credit} (h : ∀ o, l.orderByNumber c.number = some o → o.user ≠ c.user) :
    Deletable user l s (.accrue c)

namespace Ledger

/-- A call that may be left out changes nothing for the user. -/
theorem sameFor_of_deletable {user : String} {l : Ledger} {s : Stamp} {op : Operation}
    (h : op.Deletable user l s) : SameFor user l (op.on s l).2 := by
  have hdebit {u number : String} {amount : Decimal}
      (hu : u ≠ user ∨ ∃ e, ((Operation.debit u number amount).on s l).1 = .error (.error e)) :
      SameFor user l ((Operation.debit u number amount).on s l).2 := by
    refine sameFor_debit (hu.imp_right ?_)
    rintro ⟨e, he⟩
    change (l.debit s u number amount).1.map _ = _ at he
    generalize (l.debit s u number amount).1 = r at he
    cases r with
    | error f => exact ⟨e, by simpa [Except.map] using he⟩
    | ok w => cases he
  -- A withdrawal is a debit once its number and its amount are in order.
  have hwithdraw {u number : String} {amount : Decimal}
      (hu : u ≠ user ∨ ∃ e, ((Operation.withdraw u number amount).on s l).1 = .error (.error e)) :
      SameFor user l ((Operation.withdraw u number amount).on s l).2 := by
    rw [Operation.withdraw_on] at hu ⊢
    split_ifs at hu ⊢
    · exact hdebit hu
    · exact .refl user l
    · exact .refl user l
  cases h with
  | balance u => exact sameFor_openBalance s user u l
  | withdraw hu => exact hwithdraw (.inl hu)
  | debit hu => exact hdebit (.inl hu)
  | withdrawRefused hrefused => exact hwithdraw (.inr ⟨_, hrefused⟩)
  | debitRefused hrefused => exact hdebit (.inr ⟨_, hrefused⟩)
  | accrue hc => exact sameFor_accrue hc
  | @accrueForeign c hforeign =>
    show SameFor user l (l.accrue s c).2
    rcases l.accrue_cases s c with ⟨-, hl⟩ | ⟨o, ho, hs, -⟩
    · rw [hl]
      exact .refl user l
    · exact absurd (settles_iff.mp hs).1 (hforeign o ho)

end Ledger

/-! ## Two runs -/

/-- A call of a run, with what it draws, and with what it draws in the shorter run unless it is left
    out of that one. -/
structure Turn where
  operation : Operation
  stamp : Stamp
  kept : Option Stamp

namespace Turn

/-- The calls of the whole run. -/
def whole (ts : List Turn) : List (Operation × Stamp) := ts.map fun t => (t.operation, t.stamp)

/-- The calls of the shorter run. Marks name the orders by the ids that they have there. -/
def rest (rename : Uuid → Uuid) (ts : List Turn) : List (Operation × Stamp) :=
  ts.filterMap fun t => t.kept.map fun s => (t.operation.renamed rename, s)

/-- What the calls that stay draw in either run. -/
def stamps (ts : List Turn) : List (Stamp × Stamp) :=
  ts.filterMap fun t => t.kept.map fun s => (t.stamp, s)

/-- The times that the calls that stay read in either run. -/
def times (ts : List Turn) : List (Instant × Instant) :=
  (stamps ts).map fun s => (s.1.now, s.2.now)

end Turn

/-- The ledger behind calls on an empty one. -/
def Ledger.behind (calls : List (Operation × Stamp)) : Ledger :=
  calls.foldl (fun l c => (c.1.on c.2 l).2) {}

/-- A run and a shorter one without some calls that a user does not miss. The calls that stay draw
    other ids, different ones where they were different, and read another clock, which goes back
    between two calls where the first one did. -/
structure Thinning (user : String) (rename : Uuid → Uuid) (ts : List Turn) : Prop where
  injective : Function.Injective rename
  ids : ∀ s ∈ Turn.stamps ts, s.2.recordId = rename s.1.recordId
  clocks : (Turn.times ts).Pairwise Ledger.Agree
  deletable : ∀ i (t : Turn), ts[i]? = some t → t.kept = none →
    t.operation.Deletable user (.behind (Turn.whole (ts.take i))) t.stamp

section runs

variable {user : String} {rename : Uuid → Uuid} {ts : List Turn}

/-- The beginnings of two runs. -/
theorem Thinning.of_append {us : List Turn} (h : Thinning user rename (ts ++ us)) :
    Thinning user rename ts where
  injective := h.injective
  ids s hs := h.ids s (by
    rw [Turn.stamps, List.filterMap_append]
    exact List.mem_append_left _ hs)
  clocks := by
    have hclocks := h.clocks
    rw [Turn.times, Turn.stamps, List.filterMap_append, List.map_append] at hclocks
    exact hclocks.sublist (List.sublist_append_left _ _)
  deletable i t hi hkept := by
    obtain ⟨hlt, -⟩ := List.getElem?_eq_some_iff.mp hi
    have hlast := h.deletable i t (by rw [List.getElem?_append_left hlt, hi]) hkept
    rwa [List.take_append_of_le_length hlt.le] at hlast

/-- The ids of a call that stays are those of the whole run under other names. -/
theorem Thinning.recordId_eq (h : Thinning user rename ts) {t : Turn} {s : Stamp} (ht : t ∈ ts)
    (hkept : t.kept = some s) : s.recordId = rename t.stamp.recordId :=
  h.ids (t.stamp, s) (List.mem_filterMap.mpr ⟨t, ht, by rw [hkept, Option.map_some]⟩)

namespace Ledger

theorem behind_concat (calls : List (Operation × Stamp)) (c : Operation × Stamp) :
    behind (calls ++ [c]) = (c.1.on c.2 (behind calls)).2 := by
  simp [behind, List.foldl_append]

/-- A run that takes its stamps from a supply is one whose calls draw them one by one. -/
theorem exists_behind_eq_run (supply : ℕ → Stamp) (ops : List Operation) :
    ∃ calls : List (Operation × Stamp), calls.map (·.1) = ops ∧
      behind calls = (run supply ops).state.ledger := by
  induction ops using List.reverseRecOn with
  | nil => exact ⟨[], rfl, rfl⟩
  | append_singleton ops op ih =>
    obtain ⟨calls, hops, hledger⟩ := ih
    refine ⟨calls ++ [(op, supply (run supply ops).state.stamps)], by simp [hops], ?_⟩
    have hrun : run supply (ops ++ [op]) =
        (run supply ops).next (LedgerState.storeOf supply) op := Run.ofCalls_concat _ _ ops op
    rw [behind_concat, hledger, Operation.on_eq_perform, hrun]
    rfl

/-- The ledgers of the two runs are alike for the user at every point. -/
theorem alike_behind (h : Thinning user rename ts) :
    Alike user rename (Turn.times ts) (behind (Turn.whole ts)) (behind (Turn.rest rename ts)) := by
  induction ts using List.reverseRecOn with
  | nil => exact ⟨.nil, .nil, rfl, rfl⟩
  | append_singleton ts t ih =>
    have halike := ih h.of_append
    have hwhole : Turn.whole (ts ++ [t]) = Turn.whole ts ++ [(t.operation, t.stamp)] :=
      List.map_append
    rw [hwhole, behind_concat]
    -- The last call is made in the whole run only, or in both.
    cases hkept : t.kept with
    | none =>
      have hlast := h.deletable ts.length t List.getElem?_concat_length hkept
      rw [List.take_left] at hlast
      have htimes : Turn.times (ts ++ [t]) = Turn.times ts := by
        simp [Turn.times, Turn.stamps, hkept]
      have hrest : Turn.rest rename (ts ++ [t]) = Turn.rest rename ts := by
        simp [Turn.rest, hkept]
      rw [htimes, hrest]
      exact halike.left (sameFor_of_deletable hlast)
    | some s =>
      have htimes : Turn.times (ts ++ [t]) = Turn.times ts ++ [(t.stamp.now, s.now)] := by
        simp [Turn.times, Turn.stamps, hkept]
      have hrest : Turn.rest rename (ts ++ [t]) =
          Turn.rest rename ts ++ [(t.operation.renamed rename, s)] := by
        simp [Turn.rest, hkept]
      have hid := h.recordId_eq (List.mem_append_right ts List.mem_cons_self) hkept
      rw [htimes, hrest, behind_concat]
      exact (halike.on h.of_append.clocks h.injective hid t.operation).alike

/-- Leaving out calls that a user does not miss changes none of the answers that the user gets, nor
    the user's points, orders and withdrawals, ids and times aside. -/
theorem users_do_not_interfere (h : Thinning user rename ts) :
    (∀ i (t : Turn) s, ts[i]? = some t → t.kept = some s →
      t.operation.Concerns user (behind (Turn.whole (ts.take i))) →
      (t.operation.on t.stamp (behind (Turn.whole (ts.take i)))).1.map Reply.bare =
        ((t.operation.renamed rename).on s (behind (Turn.rest rename (ts.take i)))).1.map
          Reply.bare) ∧
    (behind (Turn.whole ts)).current user = (behind (Turn.rest rename ts)).current user ∧
    (behind (Turn.whole ts)).withdrawn user = (behind (Turn.rest rename ts)).withdrawn user ∧
    ((behind (Turn.whole ts)).userOrders user).map Order.bare =
      ((behind (Turn.rest rename ts)).userOrders user).map Order.bare ∧
    ((behind (Turn.whole ts)).userWithdrawals user).map Withdrawal.bare =
      ((behind (Turn.rest rename ts)).userWithdrawals user).map Withdrawal.bare := by
  have halike := alike_behind h
  refine ⟨fun i t s hi hkept hconcerns => ?_, halike.current.symm, halike.withdrawn.symm,
    halike.userOrders h.clocks, halike.userWithdrawals h.clocks⟩
  -- What the call finds in either run is what the calls before it left.
  have hfirst : Thinning user rename (ts.take i) := by
    rw [← List.take_append_drop i ts] at h
    exact h.of_append
  have hid := h.recordId_eq (List.mem_of_getElem? hi) hkept
  exact ((alike_behind hfirst).on hfirst.clocks h.injective hid t.operation).answer hconcerns

/-- A run in which bob misses none of the calls that are left out. The others are made again by a
    clock that stands still, and bob's order has another id. -/
def market : List Turn :=
  let points (n : ℕ) : Decimal := (Decimal.ofMagnitude? false n 0).getD .zero
  let again (n : ℕ) : Option Stamp :=
    some ⟨Equiv.swap (.ofNat 3) (.ofNat 99) (.ofNat (2 * n + 1)), .ofNat 0, .ofMicros 0⟩
  [⟨.submit "ann" "79927398713", .number 0, again 0⟩,
    ⟨.submit "bob" "4561261212345467", .number 1, again 1⟩,
    ⟨.accrue ⟨"ann", "79927398713", points 500⟩, .number 2, none⟩,
    ⟨.withdraw "ann" "2377225624" (points 200), .number 3, none⟩,
    ⟨.withdraw "bob" "2377225624" (points 1), .number 4, none⟩,
    ⟨.accrue ⟨"bob", "79927398713", points 5⟩, .number 5, none⟩,
    ⟨.balance "bob", .number 6, none⟩,
    ⟨.markOrders [.ofNat 3] .processing, .number 7, again 7⟩,
    ⟨.accrue ⟨"bob", "4561261212345467", points 7⟩, .number 8, again 8⟩,
    ⟨.withdraw "bob" "2377225624" (points 3), .number 9, again 9⟩]

theorem thinning_market : Thinning "bob" (Equiv.swap (.ofNat 3) (.ofNat 99)) market where
  injective := Equiv.injective _
  ids := by decide +kernel
  clocks := by
    unfold Agree
    decide +kernel
  deletable i t ht hkept := by
    obtain ⟨hi, rfl⟩ := List.getElem?_eq_some_iff.mp ht
    have hlt : i < 10 := hi
    -- Of the ten calls, those from the third to the seventh are left out.
    interval_cases i
    case «2» => exact .accrue (by decide)
    case «3» => exact .withdraw (by decide)
    case «4» => exact .withdrawRefused rfl
    case «5» =>
      refine .accrueForeign fun o ho => ?_
      have hother : ((behind (Turn.whole (market.take 5))).orderByNumber "79927398713").all
          (·.user != "bob") = true := by decide +kernel
      rw [ho] at hother
      simpa using hother
    case «6» => exact .balance "bob"
    all_goals cases hkept

/-- Bob withdraws as much in the shorter run, and has as much left. -/
theorem users_do_not_interfere_of_market :
    Thinning "bob" (Equiv.swap (.ofNat 3) (.ofNat 99)) market ∧
      (∃ t s, market[9]? = some t ∧ t.kept = some s ∧
        t.operation.Concerns "bob" (behind (Turn.whole (market.take 9))) ∧
        (t.operation.on t.stamp (behind (Turn.whole (market.take 9)))).1.map Reply.bare =
          ((t.operation.renamed (Equiv.swap (.ofNat 3) (.ofNat 99))).on s
            (behind (Turn.rest (Equiv.swap (.ofNat 3) (.ofNat 99)) (market.take 9)))).1.map
              Reply.bare) ∧
      (behind (Turn.whole market)).current "bob" =
        (behind (Turn.rest (Equiv.swap (.ofNat 3) (.ofNat 99)) market)).current "bob" ∧
      ((behind (Turn.whole market)).current "bob").coefficient = 4 := by
  obtain ⟨hanswers, hcurrent, -⟩ := users_do_not_interfere thinning_market
  exact ⟨thinning_market, ⟨_, _, rfl, rfl, rfl, hanswers 9 _ _ rfl rfl rfl⟩, hcurrent,
    by decide +kernel⟩

end Ledger

end runs

end LoyaltyPoints
