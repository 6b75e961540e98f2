import LoyaltyPoints.Proofs.Ledger.Settlement
import Mathlib.Data.Prod.Lex

/-! # Ledger: the order of lists

    Instants and positions are compared field by field. A key with the same order, in which the
    usual facts about orders hold, stands for them here. Pending orders are listed by strictly
    increasing positions if their ids are different, so a part of the list from its beginning
    leaves out only what comes behind it. There is one such list of all of them (`InOrder`), and
    what is listed behind a position is the rest of it. -/

namespace LoyaltyPoints

/-! ## Keys -/

/-- The seconds, then the nanoseconds. -/
def Instant.key (t : Instant) : ℤ ×ₗ ℕ := toLex (t.seconds, t.nanos)

theorem Instant.compare_eq (a b : Instant) : a.compare b = Ord.compare a.key b.key := by
  rw [Prod.Lex.compare_def]
  rfl

theorem Instant.key_injective : Function.Injective Instant.key := by
  rintro ⟨s, n⟩ ⟨s', n'⟩ h
  obtain ⟨rfl, rfl⟩ : s = s' ∧ n = n' := by simpa [Instant.key] using h
  rfl

namespace Position

/-- The time, then the id. -/
def key (p : Position) : (ℤ ×ₗ ℕ) ×ₗ ℕ := toLex (p.uploadedAt.key, p.id.value)

theorem compare_eq (a b : Position) : a.compare b = Ord.compare a.key b.key := by
  rw [Prod.Lex.compare_def, Position.compare, Instant.compare_eq]
  rfl

theorem key_injective : Function.Injective key := by
  rintro ⟨t, ⟨v, hv⟩⟩ ⟨t', ⟨v', hv'⟩⟩ h
  obtain ⟨ht, rfl⟩ : t.key = t'.key ∧ v = v' := by simpa [key] using h
  rw [Instant.key_injective ht]

theorem before_iff {a b : Position} : a.before b = true ↔ a.key < b.key := by
  rw [before, compare_eq, beq_iff_eq, compare_lt_iff_lt]

theorem compare_ne_gt_iff {a b : Position} : (a.compare b != .gt) = true ↔ a.key ≤ b.key := by
  rw [compare_eq, bne_iff_ne, ne_eq, compare_gt_iff_gt, not_lt]

theorem before_trans {a b c : Position} (hab : a.before b = true) (hbc : b.before c = true) :
    a.before c = true :=
  before_iff.mpr ((before_iff.mp hab).trans (before_iff.mp hbc))

theorem before_irrefl (a : Position) : a.before a = false := by
  rw [Bool.eq_false_iff]
  exact fun h => lt_irrefl _ (before_iff.mp h)

end Position

/-! ## Pending orders -/

namespace Ledger

theorem mem_pendingBehind {o : Order} {after : Option Position} {l : Ledger} :
    o ∈ l.pendingBehind after ↔ o ∈ l.orders ∧ o.isPending = true ∧ isBehind after o = true := by
  rw [pendingBehind, List.mem_mergeSort, List.mem_filter, Bool.and_eq_true]

theorem mem_of_mem_pendingOrders {o : Order} {after : Option Position} {limit : ℤ} {l : Ledger}
    (h : o ∈ l.pendingOrders after limit) : o ∈ l.orders :=
  (mem_pendingBehind.mp (List.mem_of_mem_take h)).1

/-- All pending orders behind a position are listed if the ledger does not have too many. -/
theorem pendingOrders_of_length_le {after : Option Position} {limit : ℤ} {l : Ledger}
    (h : l.orders.length ≤ limit.toNat) : l.pendingOrders after limit = l.pendingBehind after := by
  refine List.take_of_length_le (le_trans ?_ h)
  rw [pendingBehind, List.length_mergeSort]
  exact List.length_filter_le _ _

/-- Whether an order is behind a position is a matter of its own position. -/
theorem isBehind_congr {after : Option Position} {o o' : Order} (h : o'.position = o.position) :
    isBehind after o' = isBehind after o := by
  cases after with
  | none => rfl
  | some p => rw [isBehind, isBehind, h]

/-- Whatever is behind a position is behind those before it. -/
theorem isBehind_trans {after : Option Position} {x o : Order} (hx : isBehind after x = true)
    (ho : x.position.before o.position = true) : isBehind after o = true := by
  cases after with
  | none => rfl
  | some p => exact Position.before_trans hx ho

theorem pendingBehind_sorted (l : Ledger) (after : Option Position) :
    (l.pendingBehind after).Pairwise fun a b => a.position.key ≤ b.position.key := by
  refine (List.pairwise_mergeSort ?_ ?_ _).imp Position.compare_ne_gt_iff.mp
  · intro a b c hab hbc
    rw [Position.compare_ne_gt_iff] at hab hbc ⊢
    exact hab.trans hbc
  · intro a b
    rw [Bool.or_eq_true, Position.compare_ne_gt_iff, Position.compare_ne_gt_iff]
    exact le_total _ _

/-- Orders with different ids are listed by strictly increasing positions. -/
theorem pendingBehind_pairwise {l : Ledger} (hids : (l.orders.map (·.id)).Nodup)
    (after : Option Position) :
    (l.pendingBehind after).Pairwise fun a b => a.position.before b.position = true := by
  have hdistinct : (l.pendingBehind after).Pairwise fun a b => a.id ≠ b.id := by
    refine (List.Perm.pairwise_iff Ne.symm (List.mergeSort_perm _ _)).mpr ?_
    exact (List.pairwise_map.mp hids).sublist List.filter_sublist
  refine List.Pairwise.imp₂ ?_ (l.pendingBehind_sorted after) hdistinct
  intro a b hle hne
  refine Position.before_iff.mpr (lt_of_le_of_ne hle ?_)
  intro hkey
  exact hne (congrArg Position.id (Position.key_injective hkey))

/-- A part of the list from its beginning has an order, or the order comes behind all of it. -/
theorem mem_or_before_of_prefix {l : Ledger} (hids : (l.orders.map (·.id)).Nodup)
    {after : Option Position} {os : List Order} (hos : os <+: l.pendingBehind after) {o : Order}
    (ho : o ∈ l.pendingBehind after) :
    o ∈ os ∨ ∀ x ∈ os, x.position.before o.position = true := by
  obtain ⟨rest, hrest⟩ := hos
  have hsorted := pendingBehind_pairwise hids after
  rw [← hrest] at ho hsorted
  rcases List.mem_append.mp ho with ho | ho
  · exact .inl ho
  · exact .inr fun x hx => (List.pairwise_append.mp hsorted).2.2 x hx o ho

end Ledger

/-! ## The pending orders as one list -/

/-- Where a property does not end once it has begun, those with it are the rest of the list. -/
theorem filter_eq_drop_countP {α : Type} {p : α → Bool} {xs : List α}
    (h : xs.Pairwise fun a b => p a = true → p b = true) :
    xs.filter p = xs.drop (xs.countP (!p ·)) := by
  induction xs with
  | nil => rfl
  | cons x xs ih =>
    obtain ⟨hx, hxs⟩ := List.pairwise_cons.mp h
    cases hp : p x with
    | false => simp [hp, ih hxs]
    | true =>
      have hall : ∀ y ∈ xs, p y = true := fun y hy => hx y hy hp
      have hnone : (x :: xs).countP (!p ·) = 0 := by
        rw [List.countP_eq_zero]
        simpa [hp] using hall
      rw [hnone, List.drop_zero, List.filter_eq_self]
      simpa [hp] using hall

/-- A property of the first `n` members, and of no others, is counted `n` times. -/
theorem countP_eq_of_getElem {α : Type} {p : α → Bool} {xs : List α} {n : ℕ}
    (hn : n ≤ xs.length) (h : ∀ j (hj : j < xs.length), p xs[j] = decide (j < n)) :
    xs.countP p = n := by
  have hfirst : (xs.take n).countP p = (xs.take n).length := by
    rw [List.countP_eq_length]
    intro x hx
    obtain ⟨j, hj, rfl⟩ := List.getElem_of_mem hx
    rw [List.length_take_of_le hn] at hj
    rw [List.getElem_take, h j (hj.trans_le hn), decide_eq_true_iff]
    exact hj
  have hrest : (xs.drop n).countP p = 0 := by
    rw [List.countP_eq_zero]
    intro x hx
    obtain ⟨j, hj, rfl⟩ := List.getElem_of_mem hx
    rw [List.length_drop] at hj
    rw [List.getElem_drop, h (n + j) (by omega), decide_eq_true_iff]
    omega
  rw [← List.take_append_drop n xs, List.countP_append, hfirst, hrest, List.length_take_of_le hn]
  rfl

namespace Ledger

/-- A list of the pending orders by increasing positions. -/
structure InOrder (l : Ledger) (pending : List Order) : Prop where
  perm : pending.Perm (l.orders.filter (·.isPending))
  increasing : pending.Pairwise fun a b => a.position.before b.position = true

/-- Orders with different ids have one. -/
theorem inOrder_pendingBehind {l : Ledger} (hids : (l.orders.map (·.id)).Nodup) :
    l.InOrder (l.pendingBehind none) where
  perm := by
    refine (List.mergeSort_perm _ _).trans (List.Perm.of_eq ?_)
    simp only [isBehind, Bool.and_true]
  increasing := pendingBehind_pairwise hids none

section order

variable {l : Ledger} {pending : List Order} (h : l.InOrder pending)

include h

/-- There is one such list of those behind a cursor, and it is what is listed. -/
theorem InOrder.pendingBehind_eq (cursor : Option Position) :
    l.pendingBehind cursor = pending.filter (isBehind cursor) := by
  have hperm : (l.pendingBehind cursor).Perm (pending.filter (isBehind cursor)) := by
    refine (List.mergeSort_perm _ _).trans ?_
    have hfilter := h.perm.symm.filter (isBehind cursor)
    rw [List.filter_filter] at hfilter
    simpa only [Bool.and_comm] using hfilter
  have hincreasing := h.increasing.filter (isBehind cursor)
  refine hperm.eq_of_pairwise ?_ (l.pendingBehind_sorted cursor)
    (hincreasing.imp fun hbefore => (Position.before_iff.mp hbefore).le)
  have hdistinct : ((pending.filter (isBehind cursor)).map (·.position)).Nodup :=
    List.pairwise_map.mpr <| hincreasing.imp fun hbefore heq => by
      rw [heq, Position.before_irrefl] at hbefore
      cases hbefore
  intro a b ha hb hab hba
  exact List.inj_on_of_nodup_map hdistinct (hperm.subset ha) hb
    (Position.key_injective (le_antisymm hab hba))

theorem InOrder.pendingBehind_none : l.pendingBehind none = pending :=
  (h.pendingBehind_eq none).trans (List.filter_eq_self.mpr fun _ _ => rfl)

/-- The orders behind a cursor are the last ones of the list. -/
theorem InOrder.pendingBehind_eq_drop (cursor : Option Position) :
    l.pendingBehind cursor = pending.drop (pending.countP fun o => !isBehind cursor o) := by
  rw [h.pendingBehind_eq]
  exact filter_eq_drop_countP (h.increasing.imp fun hbefore hx => isBehind_trans hx hbefore)

/-- An order is behind another one in the list if it is behind its position. -/
theorem InOrder.isBehind_getElem {i j : ℕ} (hi : i < pending.length) (hj : j < pending.length) :
    isBehind (some pending[i].position) pending[j] = decide (i < j) := by
  have hpairwise := List.pairwise_iff_getElem.mp h.increasing
  rw [isBehind, Bool.eq_iff_iff, decide_eq_true_iff]
  refine ⟨fun hbefore => ?_, hpairwise i j hi hj⟩
  by_contra hle
  rw [Position.before_iff] at hbefore
  rcases Nat.lt_or_eq_of_le (not_lt.mp hle) with hlt | rfl
  · exact lt_asymm hbefore (Position.before_iff.mp (hpairwise j i hj hi hlt))
  · exact lt_irrefl _ hbefore

/-- The position of an order leaves behind it what comes later in the list. -/
theorem InOrder.countP_isBehind {i : ℕ} (hi : i < pending.length) :
    pending.countP (fun o => !isBehind (some pending[i].position) o) = i + 1 := by
  apply countP_eq_of_getElem hi
  intro j hj
  rw [h.isBehind_getElem hi hj, ← decide_not, decide_eq_decide, not_lt, Nat.lt_succ_iff]

theorem InOrder.pendingBehind_position {i : ℕ} (hi : i < pending.length) :
    l.pendingBehind (some pending[i].position) = pending.drop (i + 1) := by
  rw [h.pendingBehind_eq_drop, h.countP_isBehind hi]

end order

end Ledger

end LoyaltyPoints
