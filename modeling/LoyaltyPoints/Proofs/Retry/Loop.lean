import LoyaltyPoints.Proofs.Oracle.Attempts
import Mathlib.Data.ENat.Lattice

/-! # Retries: the loop, call by call

    A call is made, and unless it decides or the retries are used up, the loop waits and counts on.
    The calls are counted here with a number of any size, beside the counter of 32 bits that the
    loop has, so that the counter could be seen to fall behind. It never does (`Loop.Sound`), since
    it is raised only while it is below the number of retries.

    So for any policy the number of calls is the index of the first outcome that decides, or the
    number of retries if that is less, and one more (`run_lawful`). -/

namespace LoyaltyPoints

/-- No wait is longer than the longest one, also where the multiplier is no number. -/
theorem RetryPolicy.backoff_le (p : RetryPolicy) (retry : UInt32) :
    (p.backoff retry).nanos ≤ p.maxDelay.nanos := by
  unfold backoff
  dsimp only
  split
  · rw [Duration.min]
    split
    · exact le_rfl
    · next h => exact not_lt.mp h
  · exact le_rfl

namespace Retry

variable {ε α : Type}

/-! ## The loop -/

/-- The loop before a call. -/
structure Loop (ε : Type) where
  /-- The calls that were made. -/
  calls : ℕ := 0
  /-- The retries, as the loop counts them. -/
  counter : UInt32 := 0
  /-- The failures so far, and the waits behind them. -/
  retried : List (ε × Duration) := []

/-- What a call leads to. -/
inductive Turn (ε α : Type) where
  | ends (result : Except ε α)
  | goesOn (next : Loop ε)
  /-- The counter cannot be raised any more. -/
  | overflows

section loop

variable (policy : RetryPolicy) (retryable : ε → Bool) (outcome : ℕ → Except ε α)

/-- One call, and what the loop makes of its outcome. -/
def Loop.turn (s : Loop ε) : Turn ε α :=
  match outcome s.calls with
  | .ok x => .ends (.ok x)
  | .error e =>
    if retryable e = false ∨ policy.maxRetries ≤ s.counter then .ends (.error e)
    else if s.counter.toNat + 1 < 2 ^ 32 then
      .goesOn ⟨s.calls + 1, s.counter + 1, s.retried ++ [(e, policy.backoff s.counter)]⟩
    else .overflows

/-- Where the loop comes to, from its start on. -/
inductive Loop.Reached : Loop ε → Prop where
  | start : Loop.Reached {}
  | next {s t : Loop ε} (hs : Loop.Reached s)
      (hturn : s.turn policy retryable outcome = .goesOn t) : Loop.Reached t

/-- What holds before each call: the counter has not fallen behind, every outcome so far was
    passing, and behind each the loop has waited as the policy says. -/
structure Loop.Sound (s : Loop ε) : Prop where
  counter_eq : s.counter.toNat = s.calls
  bounded : s.calls ≤ policy.maxRetries.toNat
  passing : ∀ k < s.calls, Passing retryable (outcome k)
  waits_eq : s.retried.map (·.2) = (List.range s.calls).map fun k => policy.backoff (.ofNat k)

variable {policy retryable outcome} {s t : Loop ε}

/-- The loop goes on behind a passing outcome while there are retries left. -/
theorem Loop.turn_goesOn {e : ε} (houtcome : outcome s.calls = .error e)
    (hretryable : retryable e = true) (hleft : s.counter < policy.maxRetries) :
    s.turn policy retryable outcome =
      .goesOn ⟨s.calls + 1, s.counter + 1, s.retried ++ [(e, policy.backoff s.counter)]⟩ := by
  have hlt := UInt32.lt_iff_toNat_lt.mp hleft
  have hmax := policy.maxRetries.toNat_lt
  have hstops : ¬ (retryable e = false ∨ policy.maxRetries ≤ s.counter) := by
    simp [hretryable, hleft]
  simp only [turn, houtcome]
  rw [if_neg hstops, if_pos (by omega)]

/-- The loop ends with any other outcome. -/
theorem Loop.turn_ends {e : ε} (houtcome : outcome s.calls = .error e)
    (hstops : ¬ (retryable e = true ∧ s.counter < policy.maxRetries)) :
    s.turn policy retryable outcome = .ends (.error e) := by
  simp only [turn, houtcome]
  rw [if_pos]
  rwa [not_and_or, Bool.not_eq_true, UInt32.not_lt] at hstops

/-- The counter can always be raised when it has to be. -/
theorem Loop.turn_ne_overflows (s : Loop ε) :
    s.turn policy retryable outcome ≠ .overflows := by
  cases houtcome : outcome s.calls with
  | ok x => simp [turn, houtcome]
  | error e =>
    by_cases hagain : retryable e = true ∧ s.counter < policy.maxRetries
    · rw [turn_goesOn houtcome hagain.1 hagain.2]
      nofun
    · rw [turn_ends houtcome hagain]
      nofun

theorem Loop.sound_start : ({} : Loop ε).Sound policy retryable outcome where
  counter_eq := rfl
  bounded := Nat.zero_le _
  passing := nofun
  waits_eq := rfl

/-- A turn keeps all of it. -/
theorem Loop.Sound.turn (h : s.Sound policy retryable outcome)
    (hturn : s.turn policy retryable outcome = .goesOn t) : t.Sound policy retryable outcome := by
  cases houtcome : outcome s.calls with
  | ok x => simp [Loop.turn, houtcome] at hturn
  | error e =>
    by_cases hagain : retryable e = true ∧ s.counter < policy.maxRetries
    · rw [turn_goesOn houtcome hagain.1 hagain.2] at hturn
      obtain rfl := Turn.goesOn.inj hturn
      have hcounter := h.counter_eq
      have hlt := UInt32.lt_iff_toNat_lt.mp hagain.2
      have hmax := policy.maxRetries.toNat_lt
      refine ⟨?_, ?_, ?_, ?_⟩
      · rw [UInt32.toNat_add]
        simp only [UInt32.reduceToNat]
        omega
      · show s.calls + 1 ≤ _
        omega
      · intro k hk
        rcases Nat.lt_succ_iff_lt_or_eq.mp hk with hk | rfl
        · exact h.passing k hk
        · exact ⟨e, houtcome, hagain.1⟩
      · have hnumber : UInt32.ofNat s.calls = s.counter := by
          rw [← hcounter, UInt32.ofNat_toNat]
        rw [List.map_append, h.waits_eq, List.range_succ, List.map_append]
        simp [hnumber]
    · rw [turn_ends houtcome hagain] at hturn
      cases hturn

/-- All of it holds wherever the loop comes to. -/
theorem Loop.Reached.sound (h : s.Reached policy retryable outcome) :
    s.Sound policy retryable outcome := by
  induction h with
  | start => exact sound_start
  | next _ hturn ih => exact ih.turn hturn

/-- From where the loop stands it comes to its end in finitely many turns, with what the attempts
    from there on give. -/
theorem Loop.Reached.ends (retry : UInt32) (h : s.Reached policy retryable outcome)
    (hretry : s.counter = retry) :
    ∃ t : Loop ε, t.Reached policy retryable outcome ∧
      t.turn policy retryable outcome = .ends (runFrom policy retryable outcome retry).result ∧
      t.retried = s.retried ++ (runFrom policy retryable outcome retry).retried := by
  fun_induction runFrom policy retryable outcome retry generalizing s with
  | case1 retry x hok =>
    rw [← hretry, h.sound.counter_eq] at hok
    exact ⟨s, h, by simp [turn, hok], (List.append_nil _).symm⟩
  | case2 retry e herror hagain rest =>
    rename_i ih
    subst hretry
    rw [h.sound.counter_eq] at herror
    obtain ⟨t, ht, hends, hretried⟩ := ih (h.next (turn_goesOn herror hagain.1 hagain.2)) rfl
    refine ⟨t, ht, hends, ?_⟩
    rw [hretried, List.append_assoc]
    rfl
  | case3 retry e herror hstop =>
    subst hretry
    rw [h.sound.counter_eq] at herror
    exact ⟨s, h, turn_ends herror hstop, (List.append_nil _).symm⟩

end loop

/-! ## The number of calls -/

/-- An outcome that ends the calls: a success, or an error that is not passing. -/
def Decides (retryable : ε → Bool) (r : Except ε α) : Prop :=
  (∃ x, r = .ok x) ∨ ∃ e, r = .error e ∧ retryable e = false

theorem decides_iff {retryable : ε → Bool} {r : Except ε α} :
    Decides retryable r ↔ ¬ Passing retryable r := by
  cases r <;> simp [Decides, Passing]

/-- The index of the first outcome that decides, infinite if there is none. -/
noncomputable def firstDecisive (retryable : ε → Bool) (outcome : ℕ → Except ε α) : ℕ∞ :=
  ⨅ (k : ℕ) (_ : Decides retryable (outcome k)), (k : ℕ∞)

section decisive

variable {retryable : ε → Bool} {outcome : ℕ → Except ε α} {n : ℕ}

theorem le_firstDecisive (h : ∀ k < n, Passing retryable (outcome k)) :
    (n : ℕ∞) ≤ firstDecisive retryable outcome := by
  refine le_iInf₂ fun k hk => Nat.cast_le.mpr ?_
  by_contra hlt
  exact decides_iff.mp hk (h k (not_le.mp hlt))

theorem firstDecisive_eq (hpassing : ∀ k < n, Passing retryable (outcome k))
    (hn : Decides retryable (outcome n)) : firstDecisive retryable outcome = n :=
  le_antisymm (iInf₂_le n hn) (le_firstDecisive hpassing)

/-- Attempts end at the first outcome that decides, or with the last retry. -/
theorem Stops.length_eq {retries : ℕ} {r : Run ε α} (h : Stops retries retryable outcome 0 r) :
    (r.retried.length : ℕ∞) = min (firstDecisive retryable outcome) retries := by
  obtain ⟨hpassing, -, hbounded, hstops⟩ := h
  simp only [Nat.zero_add] at hpassing hbounded hstops
  rcases hstops with hused | hdecides
  · rw [← hused, min_eq_right (le_firstDecisive hpassing)]
  · rw [firstDecisive_eq hpassing (decides_iff.mpr hdecides), min_eq_left]
    exact Nat.cast_le.mpr hbounded

end decisive

/-! ## The law -/

/-- What a run of attempts owes to its policy and to the outcomes. -/
structure Lawful (policy : RetryPolicy) (retryable : ε → Bool) (outcome : ℕ → Except ε α)
    (r : Run ε α) : Prop where
  /-- The first decision ends the calls, or the last retry does. -/
  calls_eq : (r.calls : ℕ∞) = min (firstDecisive retryable outcome) policy.maxRetries.toNat + 1
  /-- The outcome of the last call is handed on. -/
  result_eq : r.result = outcome (r.calls - 1)
  /-- All others were errors that are passing. -/
  passing : ∀ k, k + 1 < r.calls → ∃ e, outcome k = .error e ∧ retryable e = true
  /-- Between one call and the next there is the wait of the policy. -/
  waits_eq : r.waits = (List.range (r.calls - 1)).map fun k => policy.backoff (.ofNat k)
  waits_le : ∀ wait ∈ r.waits, wait.nanos ≤ policy.maxDelay.nanos
  /-- The loop comes to its end, and in the same way. -/
  ends : ∃ s : Loop ε, s.Reached policy retryable outcome ∧
    s.turn policy retryable outcome = .ends r.result ∧ s.calls + 1 = r.calls ∧
    s.retried = r.retried
  /-- Before each call the counter tells how many there were, and it can be raised. -/
  counts : ∀ s : Loop ε, s.Reached policy retryable outcome →
    s.counter.toNat = s.calls ∧ s.turn policy retryable outcome ≠ .overflows

theorem run_lawful (policy : RetryPolicy) (retryable : ε → Bool) (outcome : ℕ → Except ε α) :
    Lawful policy retryable outcome (run policy retryable outcome) := by
  have hstops := run_stops policy retryable outcome
  obtain ⟨s, hs, hends, hretried⟩ :=
    Loop.Reached.ends 0 (@Loop.Reached.start ε α policy retryable outcome) rfl
  rw [List.nil_append] at hretried
  have hcalls : (run policy retryable outcome).calls = s.calls + 1 := by
    have hlength := congrArg List.length hs.sound.waits_eq
    rw [List.length_map, List.length_map, List.length_range, hretried] at hlength
    rw [Run.calls, run, hlength]
  have hlength : (run policy retryable outcome).retried.length = s.calls := by
    rw [Run.calls] at hcalls
    omega
  refine ⟨?_, ?_, ?_, ?_, ?_, ⟨s, hs, hends, hcalls.symm, hretried⟩, ?_⟩
  · rw [Run.calls, Nat.cast_add, Nat.cast_one, hstops.length_eq]
  · have hresult := hstops.result
    rw [hlength, Nat.zero_add] at hresult
    rw [hcalls, Nat.add_sub_cancel]
    exact hresult
  · intro k hk
    exact hs.sound.passing k (by omega)
  · rw [hcalls, Nat.add_sub_cancel, ← hs.sound.waits_eq, hretried]
    rfl
  · intro wait hwait
    have hwaits := hs.sound.waits_eq
    rw [hretried] at hwaits
    rw [Run.waits, run, hwaits] at hwait
    obtain ⟨k, -, rfl⟩ := List.mem_map.mp hwait
    exact policy.backoff_le _
  · exact fun s hs => ⟨hs.sound.counter_eq, s.turn_ne_overflows⟩

end Retry

end LoyaltyPoints
