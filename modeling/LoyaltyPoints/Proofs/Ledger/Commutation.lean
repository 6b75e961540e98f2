import LoyaltyPoints.Proofs.Ledger.Conservation
import Mathlib.Algebra.BigOperators.Group.List.Basic

/-! # Ledger: credits commute

    Workers take orders from a queue, and which of them credits its order first is a matter of
    chance. Credits of different orders do not look at each other's orders, but those of one user
    are added to one balance, and how a sum is written depends on the way it was reached.

    What a run of credits leaves is written down in a closed form here: which of them are accepted
    is decided by the ledger at the start, each of those settles its order, and the points of a user
    are the sum of what was there and what was accepted. As long as no sum can leave the range,
    nothing in this form depends on the order of the credits. -/

namespace LoyaltyPoints

/-! ## Credits of a user -/

/-- The event of a credit that is made, and answered in this way. -/
def Credit.answered (c : Credit) (answer : Bool) : Event := ⟨.accrue c, .ok (.flag answer)⟩

/-- The points that credits bring a user. -/
def broughtTo (user : String) (cs : List Credit) : ℚ :=
  ((cs.filter (·.user == user)).map (·.amount.value)).sum

/-- The points that credits move for a user, whatever their signs are. -/
def movedFor (user : String) (cs : List Credit) : ℚ :=
  ((cs.filter (·.user == user)).map fun c => |c.amount.value|).sum

theorem broughtTo_append (user : String) (cs ds : List Credit) :
    broughtTo user (cs ++ ds) = broughtTo user cs + broughtTo user ds := by
  simp [broughtTo]

theorem movedFor_append (user : String) (cs ds : List Credit) :
    movedFor user (cs ++ ds) = movedFor user cs + movedFor user ds := by
  simp [movedFor]

/-- What credits bring and move does not depend on their order. -/
theorem broughtTo_perm {cs ds : List Credit} (h : cs.Perm ds) (user : String) :
    broughtTo user cs = broughtTo user ds := by
  unfold broughtTo
  exact ((h.filter _).map _).sum_eq

theorem movedFor_perm {cs ds : List Credit} (h : cs.Perm ds) (user : String) :
    movedFor user cs = movedFor user ds := by
  unfold movedFor
  exact ((h.filter _).map _).sum_eq

theorem broughtTo_singleton (user : String) (c : Credit) :
    broughtTo user [c] = if c.user = user then c.amount.value else 0 := by
  by_cases h : c.user = user <;> simp [broughtTo, h]

theorem movedFor_singleton (user : String) (c : Credit) :
    movedFor user [c] = if c.user = user then |c.amount.value| else 0 := by
  by_cases h : c.user = user <;> simp [movedFor, h]

theorem movedFor_nonneg (user : String) (cs : List Credit) : 0 ≤ movedFor user cs := by
  refine List.sum_nonneg ?_
  intro q hq
  obtain ⟨c, -, rfl⟩ := List.mem_map.mp hq
  exact abs_nonneg _

/-- Some of the credits bring no more than all of them move. -/
theorem abs_broughtTo_filter_le (user : String) (p : Credit → Bool) (cs : List Credit) :
    |broughtTo user (cs.filter p)| ≤ movedFor user cs := by
  induction cs with
  | nil => simp [broughtTo, movedFor]
  | cons c cs ih =>
    have hmoved : movedFor user (c :: cs) = movedFor user [c] + movedFor user cs :=
      movedFor_append user [c] cs
    have hnonneg := movedFor_nonneg user [c]
    by_cases hp : p c = true
    · have hbrought : broughtTo user (c :: cs.filter p) =
          broughtTo user [c] + broughtTo user (cs.filter p) :=
        broughtTo_append user [c] (cs.filter p)
      have hsingle : |broughtTo user [c]| = movedFor user [c] := by
        rw [broughtTo_singleton, movedFor_singleton]
        split <;> simp
      rw [List.filter_cons_of_pos hp, hbrought, hmoved, ← hsingle]
      exact (abs_add_le _ _).trans (by linarith)
    · rw [List.filter_cons_of_neg hp, hmoved]
      linarith

namespace Ledger

/-! ## Orders -/

section updateOrder

variable {number number' : String} {f g : Order → Order}

/-- Updates of different orders commute. -/
theorem updateOrder_comm (hne : number ≠ number') (hf : ∀ o, (f o).number = o.number)
    (hg : ∀ o, (g o).number = o.number) (os : List Order) :
    updateOrder number f (updateOrder number' g os) =
      updateOrder number' g (updateOrder number f os) := by
  induction os with
  | nil => rfl
  | cons o os ih =>
    by_cases ho : o.number = number
    · have hother : ¬ o.number = number' := fun heq => hne (ho.symm.trans heq)
      simp [updateOrder, ho, hf, hne]
    · by_cases ho' : o.number = number'
      · simp [updateOrder, ho', hg, hne.symm]
      · simp [updateOrder, ho, ho', ih]

end updateOrder

/-- The orders, those of the credits being settled one after another. -/
def settleAll (cs : List Credit) (os : List Order) : List Order :=
  cs.foldl (fun os c => updateOrder c.number (settledBy c) os) os

theorem settleAll_concat (cs : List Credit) (c : Credit) (os : List Order) :
    settleAll (cs ++ [c]) os = updateOrder c.number (settledBy c) (settleAll cs os) := by
  simp [settleAll]

/-- Different orders may be settled in any order. -/
theorem settleAll_perm {cs ds : List Credit} (hperm : cs.Perm ds)
    (hnumbers : (cs.map (·.number)).Nodup) (os : List Order) :
    settleAll cs os = settleAll ds os := by
  refine hperm.foldl_eq' ?_ os
  intro c hc d hd os
  by_cases heq : c.number = d.number
  · rw [List.inj_on_of_nodup_map hnumbers hc hd heq]
  · exact updateOrder_comm (f := settledBy d) (g := settledBy c) (Ne.symm heq) (fun _ => rfl)
      (fun _ => rfl) os

/-! ## Runs of credits -/

/-- The run of credits on a ledger. -/
def crediting (supply : ℕ → Stamp) (cs : List Credit) (l : Ledger) : Run LedgerState :=
  Run.ofCalls (LedgerState.storeOf supply) { ledger := l } (cs.map .accrue)

/-- What a run of credits of different orders leaves, in terms of the ledger at its start. -/
structure Applied (l : Ledger) (cs : List Credit) (events : List Event) (m : Ledger) : Prop where
  events : events = cs.map fun c => c.answered (l.accepts c)
  orders : m.orders = settleAll (cs.filter l.accepts) l.orders
  others : ∀ number ∉ cs.map (·.number), m.orderByNumber number = l.orderByNumber number
  current : ∀ user, (m.current user).value =
    (l.current user).value + broughtTo user (cs.filter l.accepts)
  cents : ∀ user, IsCents (m.current user).value
  withdrawn : ∀ user, m.withdrawn user = l.withdrawn user
  opened : ∀ user, (m.balance? user).isSome =
    ((l.balance? user).isSome || (cs.filter l.accepts).any (·.user == user))
  withdrawals : m.withdrawals = l.withdrawals

/-- The credits move so few points that no sum of them can leave the range. -/
def WithinLimit (l : Ledger) (cs : List Credit) : Prop :=
  ∀ user, |(l.current user).value| + movedFor user cs ≤ creditLimit

section step

variable {l m : Ledger} {cs : List Credit} {events : List Event} {c : Credit}

theorem Applied.nil (hcents : ∀ user, IsCents (l.current user).value) : Applied l [] [] l where
  events := rfl
  orders := rfl
  others _ _ := rfl
  current _ := (add_zero _).symm
  cents := hcents
  withdrawn _ := rfl
  opened _ := (Bool.or_false _).symm
  withdrawals := rfl

/-- Whether the order of a credit waits for it is not changed by the credits of other orders. -/
theorem Applied.accepts_eq (h : Applied l cs events m) (hnew : c.number ∉ cs.map (·.number)) :
    m.accepts c = l.accepts c := by
  rw [accepts, accepts, h.others c.number hnew]

/-- The points of the next credit are added exactly. -/
theorem Applied.add_exact (h : Applied l cs events m) (hcents : IsCents c.amount.value)
    (hlimit : WithinLimit l (cs ++ [c])) :
    ∃ sum, (m.current c.user).add c.amount = .ok sum ∧
      sum.value = (m.current c.user).value + c.amount.value := by
  refine add_of_limit (h.cents c.user) hcents ?_
  have hle := hlimit c.user
  rw [movedFor_append, movedFor_singleton, if_pos rfl] at hle
  have hbrought := abs_broughtTo_filter_le c.user l.accepts cs
  rw [h.current]
  calc |(l.current c.user).value + broughtTo c.user (cs.filter l.accepts) + c.amount.value|
      ≤ |(l.current c.user).value| + |broughtTo c.user (cs.filter l.accepts)|
          + |c.amount.value| := abs_add_three _ _ _
    _ ≤ creditLimit := by linarith

/-- A credit that is not accepted leaves everything as it is. -/
theorem Applied.refused (h : Applied l cs events m) (hc : l.accepts c = false) :
    Applied l (cs ++ [c]) (events ++ [c.answered false]) m := by
  have hfilter : (cs ++ [c]).filter l.accepts = cs.filter l.accepts := by simp [hc]
  constructor
  case events =>
    rw [h.events, List.map_append, List.map_singleton, hc]
  case others =>
    intro number hnumber
    rw [List.map_append, List.mem_append, not_or] at hnumber
    exact h.others number hnumber.1
  case cents => exact h.cents
  case withdrawn => exact h.withdrawn
  case withdrawals => exact h.withdrawals
  all_goals rw [hfilter]
  case orders => exact h.orders
  case current => exact h.current
  case opened => exact h.opened

/-- A credit that is accepted settles its order, and its points are added. -/
theorem Applied.accepted (h : Applied l cs events m) (hc : l.accepts c = true)
    (hcents : IsCents c.amount.value) (s : Stamp) {sum : Decimal}
    (hsum : sum.value = (m.current c.user).value + c.amount.value) :
    Applied l (cs ++ [c]) (events ++ [c.answered true]) (m.credited s c sum) := by
  have hfilter : (cs ++ [c]).filter l.accepts = cs.filter l.accepts ++ [c] := by simp [hc]
  constructor
  case events =>
    rw [h.events, List.map_append, List.map_singleton, hc]
  case orders =>
    rw [hfilter, settleAll_concat, ← h.orders, credited_orders]
    rfl
  case others =>
    intro number hnumber
    rw [List.map_append, List.mem_append, not_or] at hnumber
    have hne : number ≠ c.number := fun heq => hnumber.2 (List.mem_singleton.mpr heq)
    rw [orderByNumber_credited, if_neg hne]
    exact h.others number hnumber.1
  case current =>
    intro user
    rw [hfilter, broughtTo_append, broughtTo_singleton, ← add_assoc, ← h.current, current_credited]
    by_cases huser : user = c.user
    · rw [if_pos huser, if_pos huser.symm, huser, hsum]
    · rw [if_neg huser, if_neg (Ne.symm huser), add_zero]
  case cents =>
    intro user
    rw [current_credited]
    split
    · rw [hsum]
      exact (h.cents c.user).add hcents
    · exact h.cents user
  case withdrawn =>
    intro user
    rw [withdrawn_credited]
    exact h.withdrawn user
  case opened =>
    intro user
    rw [hfilter, List.any_append, ← Bool.or_assoc, ← h.opened]
    by_cases huser : user = c.user
    · subst huser
      simp [credited, balance?_withBalance]
    · rw [balance?_credited_of_ne s c sum m huser]
      simp [Ne.symm huser]
  case withdrawals =>
    rw [credited_withdrawals]
    exact h.withdrawals

/-- One more credit of another order. -/
theorem Applied.accrue (h : Applied l cs events m) (hnew : c.number ∉ cs.map (·.number))
    (hcents : IsCents c.amount.value) (hlimit : WithinLimit l (cs ++ [c])) (s : Stamp) :
    Applied l (cs ++ [c]) (events ++ [⟨.accrue c, (m.accrue s c).1.map .flag⟩])
      (m.accrue s c).2 := by
  have hsame := h.accepts_eq hnew
  cases hc : l.accepts c with
  | false =>
    rw [accrue_of_not_accepts s (hsame.trans hc)]
    exact h.refused hc
  | true =>
    obtain ⟨sum, hadd, hsum⟩ := h.add_exact hcents hlimit
    rw [(accrue_of_accepts s (hsame.trans hc)).1 sum hadd]
    exact h.accepted hc hcents s hsum

/-- A run of credits leaves what the closed form says. -/
theorem applied_crediting (supply : ℕ → Stamp) (hnumbers : (cs.map (·.number)).Nodup)
    (hcurrent : ∀ user, IsCents (l.current user).value)
    (hamounts : ∀ c ∈ cs, IsCents c.amount.value) (hlimit : WithinLimit l cs) :
    Applied l cs (l.crediting supply cs).events (l.crediting supply cs).state.ledger := by
  induction cs using List.reverseRecOn with
  | nil => exact .nil hcurrent
  | append_singleton cs c ih =>
    rw [List.map_append, List.nodup_append] at hnumbers
    obtain ⟨hbefore, -, hdisjoint⟩ := hnumbers
    have hnew : c.number ∉ cs.map (·.number) := fun hmem =>
      hdisjoint c.number hmem c.number List.mem_cons_self rfl
    have hamounts' : ∀ d ∈ cs, IsCents d.amount.value := fun d hd =>
      hamounts d (List.mem_append_left _ hd)
    have hlimit' : WithinLimit l cs := by
      intro user
      have hle := hlimit user
      rw [movedFor_append] at hle
      linarith [movedFor_nonneg user [c]]
    have hcents : IsCents c.amount.value := hamounts c (List.mem_append_right _ List.mem_cons_self)
    have hrun : l.crediting supply (cs ++ [c]) =
        (l.crediting supply cs).next (LedgerState.storeOf supply) (.accrue c) := by
      unfold crediting
      rw [List.map_append]
      exact Run.ofCalls_concat _ _ _ _
    rw [hrun]
    exact (ih hbefore hamounts' hlimit').accrue hnew hcents hlimit _

end step

/-- Credits of different orders commute: in whatever order they are made, each of them is answered
    by the ledger at the start, and they leave the same orders and the same points. -/
theorem credits_commute (supply supply' : ℕ → Stamp) (l : Ledger) (cs ds : List Credit)
    (hperm : cs.Perm ds) (hnumbers : (cs.map (·.number)).Nodup)
    (hcurrent : ∀ user, IsCents (l.current user).value)
    (hamounts : ∀ c ∈ cs, IsCents c.amount.value) (hlimit : WithinLimit l cs) :
    ((l.crediting supply cs).events = cs.map (fun c => c.answered (l.accepts c)) ∧
      (l.crediting supply' ds).events = ds.map fun c => c.answered (l.accepts c)) ∧
    let m := (l.crediting supply cs).state.ledger
    let m' := (l.crediting supply' ds).state.ledger
    m.orders = m'.orders ∧ m.withdrawals = m'.withdrawals ∧
    ∀ user, (m.current user).value = (m'.current user).value ∧
      (m.withdrawn user).value = (m'.withdrawn user).value ∧
      (m.balance? user).isSome = (m'.balance? user).isSome := by
  have hlimit' : WithinLimit l ds := by
    intro user
    rw [← movedFor_perm hperm]
    exact hlimit user
  have h := applied_crediting supply hnumbers hcurrent hamounts hlimit
  have h' := applied_crediting supply' ((hperm.map _).nodup_iff.mp hnumbers) hcurrent
    (fun c hc => hamounts c (hperm.mem_iff.mpr hc)) hlimit'
  have haccepted := hperm.filter l.accepts
  refine ⟨⟨h.events, h'.events⟩, ?_, ?_, ?_⟩
  · rw [h.orders, h'.orders]
    refine settleAll_perm haccepted ?_ l.orders
    exact hnumbers.sublist (List.filter_sublist.map _)
  · rw [h.withdrawals, h'.withdrawals]
  · intro user
    have hopened : (cs.filter l.accepts).any (·.user == user) =
        (ds.filter l.accepts).any (·.user == user) := by
      rw [Bool.eq_iff_iff, List.any_eq_true, List.any_eq_true]
      simp only [haccepted.mem_iff]
    refine ⟨?_, ?_, ?_⟩
    · rw [h.current, h'.current, broughtTo_perm haccepted]
    · rw [h.withdrawn, h'.withdrawn]
    · rw [h.opened, h'.opened, hopened]

/-- Three credits of one user leave the same points in either order, and these are written with two
    places in one of them and with none in the other. -/
theorem credits_commute_of_opposite_amounts :
    let l := (run .number [.submit "ann" "79927398713", .submit "ann" "4561261212345467",
      .submit "ann" "2377225624"]).state.ledger
    let cs : List Credit := [⟨"ann", "79927398713", ⟨5, 0, by decide, by decide⟩⟩,
      ⟨"ann", "4561261212345467", ⟨10, 2, by decide, by decide⟩⟩,
      ⟨"ann", "2377225624", ⟨-10, 2, by decide, by decide⟩⟩]
    let m := (l.crediting .number cs).state.ledger
    let m' := (l.crediting .number cs.reverse).state.ledger
    WithinLimit l cs ∧ (m.current "ann").scale = 2 ∧ (m'.current "ann").scale = 0 ∧
      m.orders = m'.orders ∧ (m.current "ann").value = (m'.current "ann").value := by
  intro l cs m m'
  have hempty (user : String) : (l.current user).value = 0 := Decimal.value_zero
  have hcurrent : ∀ user, IsCents (l.current user).value := by
    intro user
    rw [hempty]
    exact IsCents.zero
  have hamounts : ∀ c ∈ cs, IsCents c.amount.value := by
    intro c hc
    simp only [cs, List.mem_cons, List.not_mem_nil, or_false] at hc
    obtain rfl | rfl | rfl := hc
    · exact ⟨500, by norm_num [Decimal.value]⟩
    · exact ⟨10, by norm_num [Decimal.value]⟩
    · exact ⟨-10, by norm_num [Decimal.value]⟩
  have hlimit : WithinLimit l cs := by
    intro user
    rw [hempty]
    by_cases huser : "ann" = user
    · subst huser
      norm_num [movedFor, cs, creditLimit, Decimal.value]
    · norm_num [movedFor, cs, huser, creditLimit]
  obtain ⟨-, horders, -, hsame⟩ := credits_commute .number .number l cs cs.reverse
    (List.reverse_perm cs).symm (by decide) hcurrent hamounts hlimit
  exact ⟨hlimit, by decide +kernel, by decide +kernel, horders, (hsame "ann").1⟩

end Ledger

end LoyaltyPoints
