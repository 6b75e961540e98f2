import LoyaltyPoints.Proofs.Ledger.Listing

/-! # Ledger: lists that two runs write in step

    Two runs that do the same append the same records to their lists, each with its own ids and by
    its own clock. The records are kept in pairs here: what finds, filters, changes or sorts them
    treats both of a pair alike. Sorting does so if the clocks agree on when they went back: then a
    record is moved in front of an earlier one in both lists or in neither. -/

namespace LoyaltyPoints

open scoped List

namespace Ledger

/-- The times that two runs read at one call, and at a later one: the clocks of both went back
    between them, or neither did. -/
def Agree (a b : Instant × Instant) : Prop :=
  b.1.compare a.1 = .lt ↔ b.2.compare a.2 = .lt

/-- Lists of two runs with related records at the same places, and the times of both at some of the
    calls that were made. -/
def InStep {α : Type} (time : α → Instant) (R : α → α → Prop) (calls : List (Instant × Instant))
    (xs ys : List α) : Prop :=
  ∃ ps : List (α × α), xs = ps.map (·.1) ∧ ys = ps.map (·.2) ∧ (∀ p ∈ ps, R p.1 p.2) ∧
    (ps.map fun p => (time p.1, time p.2)) <+ calls

namespace InStep

variable {α : Type} {time : α → Instant} {R : α → α → Prop} {calls : List (Instant × Instant)}
  {xs ys : List α}

theorem nil : InStep time R calls [] [] :=
  ⟨[], rfl, rfl, nofun, List.nil_sublist _⟩

/-- A call that appends nothing. -/
theorem later (h : InStep time R calls xs ys) (t : Instant × Instant) :
    InStep time R (calls ++ [t]) xs ys := by
  obtain ⟨ps, hxs, hys, hR, hcalls⟩ := h
  exact ⟨ps, hxs, hys, hR, hcalls.trans (List.sublist_append_left _ _)⟩

/-- A call that appends a record in both runs. -/
theorem concat (h : InStep time R calls xs ys) {a b : α} (hab : R a b) :
    InStep time R (calls ++ [(time a, time b)]) (xs ++ [a]) (ys ++ [b]) := by
  obtain ⟨ps, rfl, rfl, hR, hcalls⟩ := h
  refine ⟨ps ++ [(a, b)], by simp, by simp, ?_, ?_⟩
  · simp only [List.forall_mem_append, List.forall_mem_singleton]
    exact ⟨hR, hab⟩
  · rw [List.map_append]
    exact hcalls.append (List.Sublist.refl _)

/-- What is looked for is found in both lists, and at the same place. -/
theorem find? (h : InStep time R calls xs ys) {p q : α → Bool}
    (hpq : ∀ a b, R a b → p a = q b) : Option.Rel R (xs.find? p) (ys.find? q) := by
  obtain ⟨ps, rfl, rfl, hR, -⟩ := h
  have hsame : ps.find? (q ∘ fun x => x.2) = ps.find? (p ∘ fun x => x.1) :=
    List.find?_congr fun x hx => (hpq x.1 x.2 (hR x hx)).symm
  rw [List.find?_map, List.find?_map, hsame]
  cases hx : ps.find? (p ∘ fun x => x.1) with
  | none => exact .none
  | some x => exact .some (hR x (List.mem_of_find?_eq_some hx))

/-- The records of a kind stay in step. -/
theorem filter (h : InStep time R calls xs ys) {p q : α → Bool}
    (hpq : ∀ a b, R a b → p a = q b) :
    InStep time (fun a b => R a b ∧ p a = true) calls (xs.filter p) (ys.filter q) := by
  obtain ⟨ps, rfl, rfl, hR, hcalls⟩ := h
  refine ⟨ps.filter (p ∘ fun x => x.1), ?_, ?_, ?_, ?_⟩
  · rw [List.filter_map]
  · rw [List.filter_map]
    congr 1
    exact List.filter_congr fun x hx => (hpq x.1 x.2 (hR x hx)).symm
  · intro x hx
    exact ⟨hR x (List.mem_of_mem_filter hx), (List.mem_filter.mp hx).2⟩
  · exact (List.filter_sublist.map _).trans hcalls

theorem countP_eq (h : InStep time R calls xs ys) {p q : α → Bool}
    (hpq : ∀ a ∈ xs, ∀ b, R a b → p a = q b) : xs.countP p = ys.countP q := by
  obtain ⟨ps, rfl, rfl, hR, -⟩ := h
  rw [List.countP_map, List.countP_map]
  refine List.countP_congr fun x hx => ?_
  have hsame := hpq x.1 (List.mem_map_of_mem hx) x.2 (hR x hx)
  simp only [Function.comp_apply, hsame]

/-- Whatever keeps the times may change the records of both lists. -/
theorem map (h : InStep time R calls xs ys) {f g : α → α} (hf : ∀ a, time (f a) = time a)
    (hg : ∀ b, time (g b) = time b) (hfg : ∀ a b, R a b → R (f a) (g b)) :
    InStep time R calls (xs.map f) (ys.map g) := by
  obtain ⟨ps, rfl, rfl, hR, hcalls⟩ := h
  refine ⟨ps.map (Prod.map f g), by simp, by simp, ?_, ?_⟩
  · simp only [List.forall_mem_map]
    exact fun p hp => hfg p.1 p.2 (hR p hp)
  · simpa [Function.comp_def, hf, hg] using hcalls

/-! ## Sorting -/

/-- A clock that goes back puts a record in front of the earlier ones. -/
def inTime (time : α → Instant) (a b : α) : Bool := (time a).compare (time b) != .gt

theorem inTime_iff {a b : α} : inTime time a b = true ↔ (time a).key ≤ (time b).key := by
  rw [inTime, Instant.compare_eq, bne_iff_ne, ne_eq, compare_gt_iff_gt, not_lt]

/-- Among numbered records only whether the later one comes first matters. -/
theorem zipIdxLE_inTime (a b : α × ℕ) : List.zipIdxLE (inTime time) a b =
    if a.2 ≤ b.2 then inTime time a.1 b.1 else !inTime time b.1 a.1 := by
  have htotal : inTime time a.1 b.1 = true ∨ inTime time b.1 a.1 = true := by
    rw [inTime_iff, inTime_iff]
    exact le_total _ _
  rw [List.zipIdxLE]
  cases hab : inTime time a.1 b.1 <;> cases hba : inTime time b.1 a.1 <;> simp_all

/-- Numbered pairs are in the same order by either of their records. -/
theorem zipIdxLE_congr {ps : List (α × α)}
    (h : ps.Pairwise fun p q => inTime time p.1 q.1 = inTime time p.2 q.2) {x y : (α × α) × ℕ}
    (hx : x ∈ ps.zipIdx) (hy : y ∈ ps.zipIdx) :
    List.zipIdxLE (inTime time) (Prod.map (·.1) id x) (Prod.map (·.1) id y) =
      List.zipIdxLE (inTime time) (Prod.map (·.2) id x) (Prod.map (·.2) id y) := by
  obtain ⟨p, i⟩ := x
  obtain ⟨q, j⟩ := y
  have hfound : ps[i]? = some p := List.mem_zipIdx_iff_getElem?.mp hx
  have hother : ps[j]? = some q := List.mem_zipIdx_iff_getElem?.mp hy
  obtain ⟨hi, rfl⟩ := List.getElem?_eq_some_iff.mp hfound
  obtain ⟨hj, rfl⟩ := List.getElem?_eq_some_iff.mp hother
  rw [List.pairwise_iff_getElem] at h
  rw [zipIdxLE_inTime, zipIdxLE_inTime]
  simp only [Prod.map_fst, Prod.map_snd, id]
  rcases lt_trichotomy i j with hlt | rfl | hgt
  · rw [if_pos hlt.le, if_pos hlt.le]
    exact h i j hi hj hlt
  · rw [if_pos le_rfl, if_pos le_rfl, inTime_iff.mpr le_rfl, inTime_iff.mpr le_rfl]
  · rw [if_neg (by omega), if_neg (by omega), h j i hj hi hgt]

/-- Records that are in step are sorted in step, whatever of them is the same in both runs. -/
theorem sort {β : Type} {f : α → β} (h : InStep time R calls xs ys)
    (hcalls : calls.Pairwise Agree) (hf : ∀ a b, R a b → f a = f b) :
    (xs.mergeSort (inTime time)).map f = (ys.mergeSort (inTime time)).map f := by
  obtain ⟨ps, rfl, rfl, hR, hsub⟩ := h
  have hagree : ps.Pairwise fun p q => inTime time p.1 q.1 = inTime time p.2 q.2 := by
    refine (List.pairwise_map.mp (hcalls.sublist hsub)).imp fun {p q} hpq => ?_
    rw [Agree, Instant.compare_eq, Instant.compare_eq, compare_lt_iff_lt, compare_lt_iff_lt] at hpq
    rw [Bool.eq_iff_iff, inTime_iff, inTime_iff, ← not_lt, ← not_lt]
    exact not_congr hpq
  -- The pairs are numbered and sorted by their first records, which sorts the second ones too.
  have hfirst := List.map_mergeSort (f := Prod.map (fun p : α × α => p.1) id) (l := ps.zipIdx)
    (s := List.zipIdxLE (inTime time)) fun _ _ _ _ => rfl
  have hsecond := List.map_mergeSort (f := Prod.map (fun p : α × α => p.2) id) (l := ps.zipIdx)
    (s := List.zipIdxLE (inTime time)) fun _ hx _ hy => zipIdxLE_congr hagree hx hy
  rw [← List.mergeSort_zipIdx (l := ps.map fun p => p.1),
    ← List.mergeSort_zipIdx (l := ps.map fun p => p.2), List.zipIdx_map, List.zipIdx_map, ← hfirst,
    ← hsecond]
  simp only [List.map_map]
  refine List.map_congr_left fun x hx => ?_
  have hp : x.1 ∈ ps :=
    List.mem_of_getElem? (List.mem_zipIdx_iff_getElem?.mp (List.mem_mergeSort.mp hx))
  exact hf _ _ (hR _ hp)

end InStep

end Ledger

end LoyaltyPoints
