import Mathlib
import LoyaltyPoints.Time.Instant

/-! # Time: the calendar

    Days are counted in eras of 400 years that begin in March, so that a leap day is the last day of
    its year. A day of an era lies in one of four centuries, in one of 25 cycles of four years, in
    one of four years; only the last year of a cycle may have 366 days, and in the last cycle of a
    century only where that is the last century. From these parts the day of the calendar is
    computed, and it leads back to the count of days. -/

namespace LoyaltyPoints

namespace Instant

/-! ## Days of an era -/

/-- A day of an era: century, cycle, year of the cycle, day of the year. -/
structure IsEraDay (century cycle year day : ℤ) : Prop where
  century_nonneg : 0 ≤ century
  century_le : century ≤ 3
  cycle_nonneg : 0 ≤ cycle
  cycle_le : cycle ≤ 24
  year_nonneg : 0 ≤ year
  year_le : year ≤ 3
  day_nonneg : 0 ≤ day
  day_le : day ≤ 365
  leap : day = 365 → year = 3 ∧ (cycle ≠ 24 ∨ century = 3)

/-- Every day of an era has its parts. -/
theorem exists_isEraDay {n : ℤ} (h0 : 0 ≤ n) (h : n < 146097) :
    ∃ c q y d, IsEraDay c q y d ∧ n = 36524 * c + 1461 * q + 365 * y + d := by
  -- The last day of the era would begin a fifth century, and that of a cycle a fifth year.
  obtain ⟨c, hc⟩ : ∃ c, c = min (n / 36524) 3 := ⟨_, rfl⟩
  obtain ⟨q, hq⟩ : ∃ q, q = (n - 36524 * c) / 1461 := ⟨_, rfl⟩
  obtain ⟨y, hy⟩ : ∃ y, y = min ((n - 36524 * c - 1461 * q) / 365) 3 := ⟨_, rfl⟩
  refine ⟨c, q, y, n - 36524 * c - 1461 * q - 365 * y, ⟨?_, ?_, ?_, ?_, ?_, ?_, ?_, ?_, ?_⟩, ?_⟩
  all_goals omega

section era

variable {c q y d n : ℤ}

/-- The year of an era is found from the day. -/
theorem IsEraDay.year_eq (h : IsEraDay c q y d) (hn : n = 36524 * c + 1461 * q + 365 * y + d) :
    (n - n / 1460 + n / 36524 - n / 146096) / 365 = 100 * c + 4 * q + y := by
  obtain ⟨hc0, hc, hq0, hq, hy0, hy, hd0, hd, hleap⟩ := h
  -- The quotients take the leap days off: one for a cycle, none for a century, one for the era.
  have hera : n / 146096 = if n = 146096 then 1 else 0 := by omega
  have hcentury : n / 36524 = if n = 146096 then 4 else c := by omega
  have hcycle : n / 1460 =
      25 * c + q + if 1460 ≤ 24 * c + q + 365 * y + d then 1 else 0 := by omega
  rw [hera, hcentury, hcycle]
  omega

/-- The days before a year of an era are those of its centuries, cycles and years. -/
theorem IsEraDay.days_before (h : IsEraDay c q y d) :
    365 * (100 * c + 4 * q + y) + (100 * c + 4 * q + y) / 4 - (100 * c + 4 * q + y) / 100 =
      36524 * c + 1461 * q + 365 * y := by
  obtain ⟨hc0, hc, hq0, hq, hy0, hy, -⟩ := h
  omega

/-- A year of 366 days ends in a leap day. -/
theorem IsEraDay.isLeapYear (h : IsEraDay c q y 365) (era : ℤ) :
    isLeapYear (400 * era + (100 * c + 4 * q + y) + 1) = true := by
  obtain ⟨hc0, hc, hq0, hq, hy0, hy, -, -, hleap⟩ := h
  obtain ⟨rfl, hlast⟩ := hleap rfl
  simp only [Instant.isLeapYear, Bool.and_eq_true, Bool.or_eq_true, beq_iff_eq, bne_iff_ne]
  omega

end era

/-! ## Days of the calendar -/

/-- The parts of a count of days: the era and the parts in it, and the month counted from March. -/
structure IsCivil (days era century cycle year day month : ℤ) : Prop where
  inEra : IsEraDay century cycle year day
  days_eq : days + 719468 = 146097 * era + (36524 * century + 1461 * cycle + 365 * year + day)
  month_eq : month = (5 * day + 2) / 153

/-- The day of the calendar is computed from the parts. -/
theorem exists_isCivil (days : ℤ) : ∃ era c q y d m, IsCivil days era c q y d m ∧
    civilFromDays days = (100 * c + 4 * q + y + era * 400 +
        (if (if m < 10 then m + 3 else m - 9) ≤ 2 then 1 else 0),
      (if m < 10 then m + 3 else m - 9).toNat, (d - (153 * m + 2) / 5 + 1).toNat) := by
  have hdiv : (days + 719468).fdiv 146097 = (days + 719468) / 146097 :=
    Int.fdiv_eq_ediv_of_nonneg _ (by norm_num)
  obtain ⟨era, hera⟩ : ∃ era, era = (days + 719468) / 146097 := ⟨_, rfl⟩
  obtain ⟨c, q, y, d, hday, hn⟩ := exists_isEraDay (n := days + 719468 - era * 146097)
    (by omega) (by omega)
  refine ⟨era, c, q, y, d, _, ⟨hday, by omega, rfl⟩, ?_⟩
  have hyear := hday.year_eq hn
  have hbefore := hday.days_before
  have hdayOfYear : days + 719468 - era * 146097 -
      (365 * (100 * c + 4 * q + y) + (100 * c + 4 * q + y) / 4 - (100 * c + 4 * q + y) / 100) =
        d := by omega
  simp only [civilFromDays, hdiv, ← hera, hyear, hdayOfYear]

section civil

variable {days era c q y d m : ℤ}

theorem IsCivil.month_mem (h : IsCivil days era c q y d m) : 0 ≤ m ∧ m ≤ 11 := by
  have hday := h.inEra.day_le
  have hday0 := h.inEra.day_nonneg
  have hmonth := h.month_eq
  omega

/-- A month counted from March is as long as the calendar says. -/
theorem IsCivil.day_le (h : IsCivil days era c q y d m) :
    d - (153 * m + 2) / 5 + 1 ≤ daysInMonth (100 * c + 4 * q + y + era * 400 +
        (if (if m < 10 then m + 3 else m - 9) ≤ 2 then 1 else 0))
      (if m < 10 then m + 3 else m - 9).toNat := by
  obtain ⟨hm0, hm⟩ := h.month_mem
  have hmonth := h.month_eq
  -- Only the last month depends on the year, and only if that has a leap day.
  have hleap : d = 365 → isLeapYear (100 * c + 4 * q + y + era * 400 + 1) = true := by
    rintro rfl
    have hyear := h.inEra.isLeapYear era
    rwa [show 400 * era + (100 * c + 4 * q + y) + 1 = 100 * c + 4 * q + y + era * 400 + 1 by ring]
      at hyear
  have hday := h.inEra.day_le
  interval_cases m
  all_goals simp [daysInMonth]
  case «11» =>
    split
    · omega
    · next hcommon =>
      have : d ≠ 365 := fun hd => hcommon (hleap hd)
      omega
  all_goals omega

/-- The parts lead back to the count of days. -/
theorem IsCivil.daysFromCivil_eq (h : IsCivil days era c q y d m) :
    daysFromCivil (100 * c + 4 * q + y + era * 400 +
        (if (if m < 10 then m + 3 else m - 9) ≤ 2 then 1 else 0))
      (if m < 10 then m + 3 else m - 9).toNat (d - (153 * m + 2) / 5 + 1).toNat = days := by
  obtain ⟨hm0, hm⟩ := h.month_mem
  have hmonth := h.month_eq
  have hdays := h.days_eq
  have hbefore := h.inEra.days_before
  have hday0 := h.inEra.day_nonneg
  -- In every month the year that begins in March is the same one.
  have hera : (100 * c + 4 * q + y + era * 400).fdiv 400 = era := by
    obtain ⟨hc0, hc, hq0, hq, hy0, hy, -⟩ := h.inEra
    rw [Int.fdiv_eq_ediv_of_nonneg _ (by norm_num)]
    omega
  generalize 100 * c + 4 * q + y = n at hera hbefore
  have hrest : n + era * 400 - era * 400 = n := by omega
  interval_cases m
  all_goals simp [daysFromCivil, hera, hrest]
  all_goals omega

end civil

/-- The day of the calendar leads back to the count of days. -/
theorem daysFromCivil_civilFromDays (days : ℤ) :
    daysFromCivil (civilFromDays days).1 (civilFromDays days).2.1 (civilFromDays days).2.2 =
      days := by
  obtain ⟨era, c, q, y, d, m, h, heq⟩ := exists_isCivil days
  rw [heq]
  exact h.daysFromCivil_eq

/-- A day that the calendar knows. -/
structure IsDate (year : ℤ) (month day : ℕ) : Prop where
  month_pos : 1 ≤ month
  month_le : month ≤ 12
  day_pos : 1 ≤ day
  day_le : day ≤ daysInMonth year month

theorem isDate_civilFromDays (days : ℤ) :
    IsDate (civilFromDays days).1 (civilFromDays days).2.1 (civilFromDays days).2.2 := by
  obtain ⟨era, c, q, y, d, m, h, heq⟩ := exists_isCivil days
  have hlong := h.day_le
  have hmonth := h.month_eq
  obtain ⟨hm0, hm⟩ := h.month_mem
  rw [heq]
  dsimp only
  refine ⟨?_, ?_, by omega, Int.toNat_le.mpr hlong⟩
  all_goals
    split
    all_goals omega

theorem IsDate.day_le_31 {year : ℤ} {month day : ℕ} (h : IsDate year month day) : day ≤ 31 := by
  refine h.day_le.trans ?_
  unfold daysInMonth
  split_ifs <;> omega

/-- A count of days within the calendar gives a year within it. -/
theorem year_mem {days : ℤ} (hfirst : daysFromCivil (-262143) 1 1 ≤ days)
    (hlast : days ≤ daysFromCivil 262142 12 31) :
    -262143 ≤ (civilFromDays days).1 ∧ (civilFromDays days).1 ≤ 262142 := by
  obtain ⟨era, c, q, y, d, m, h, heq⟩ := exists_isCivil days
  have hfirst' : daysFromCivil (-262143) 1 1 = -96465292 := by decide
  have hlast' : daysFromCivil 262142 12 31 = 95026236 := by decide
  have hdays := h.days_eq
  have hmonth := h.month_eq
  obtain ⟨hc0, hc, hq0, hq, hy0, hy, hd0, hd, -⟩ := h.inEra
  rw [heq]
  -- A year beyond the ends would lie in the outermost era, century and cycle.
  constructor
  · by_contra hyear
    have hera : era = -656 := by omega
    have hcentury : c = 2 := by omega
    have hcycle : q = 14 := by omega
    omega
  · by_contra hyear
    have hera : era = 655 := by omega
    have hcentury : c = 1 := by omega
    have hcycle : q = 10 := by omega
    omega

end Instant

end LoyaltyPoints
