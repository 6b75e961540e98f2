import LoyaltyPoints.Proofs.Text.Digits
import LoyaltyPoints.Proofs.Time.Calendar

/-! # Time: instants are read as they were written

    An instant is written as a day of the calendar and a time of that day in UTC. Each number is
    written with all its places, and the character behind it is no digit, so the reader takes the
    numbers off one by one. The day leads back to the count of days, and second 60 to a leap second.
    Years at the ends of the calendar have a sign and more than four digits, and are read too. -/

namespace LoyaltyPoints

namespace Instant

open Text (digitsValue paddedDigits isBlank trimStart)

/-! ## Numbers and separators -/

theorem isBlank_of_isDigit {c : Char} (h : c.isDigit = true) : isBlank c = false := by
  have hlow : 48 ≤ c.toNat ∧ c.toNat ≤ 57 := by
    simpa [Char.isDigit, UInt32.le_iff_toNat_le] using h
  simp [isBlank]
  omega

theorem trimStart_of_not_blank {c : Char} (h : isBlank c = false) (cs : List Char) :
    trimStart (c :: cs) = c :: cs := by
  simp [trimStart, h]

theorem separator?_self {c : Char} (h : isBlank c = false) (cs : List Char) :
    separator? c (c :: cs) = some cs := by
  rw [separator?, trimStart_of_not_blank h]
  simp

/-- Digits that are few enough are taken off as one number. -/
theorem number?_append {width : ℕ} {ds rest : List Char} (hds : ∀ c ∈ ds, c.isDigit = true)
    (hrest : ∀ c ∈ rest.head?, c.isDigit = false) (hsome : ds ≠ []) (hwidth : ds.length ≤ width) :
    number? width (ds ++ rest) = some (digitsValue ds, rest) := by
  have htake := (Text.takeWhile_isDigit hds hrest).1
  rw [number?, htake, List.take_of_length_le hwidth]
  simp [hsome]

/-- A number of two places is taken off, if it is within bounds. -/
theorem field?_paddedDigits {low high n : ℕ} {rest : List Char} (hn : n < 100) (hlow : low ≤ n)
    (hhigh : n ≤ high) (hrest : ∀ c ∈ rest.head?, c.isDigit = false) :
    field? low high (paddedDigits 2 n ++ rest) = some (n, rest) := by
  have hdigits : ∀ c ∈ paddedDigits 2 n, c.isDigit = true :=
    fun _ => Text.isDigit_of_mem_paddedDigits
  have hnumber := number?_append hdigits hrest (Text.paddedDigits_ne_nil 2 n)
    (Text.length_paddedDigits (by norm_num) (by simpa using hn)).le
  have htrim : trimStart (paddedDigits 2 n ++ rest) = paddedDigits 2 n ++ rest := by
    obtain ⟨c, cs, hcs⟩ := List.exists_cons_of_ne_nil (Text.paddedDigits_ne_nil 2 n)
    rw [hcs] at hdigits ⊢
    exact trimStart_of_not_blank (isBlank_of_isDigit (hdigits c List.mem_cons_self)) _
  rw [field?, htrim, hnumber, Option.bind_some, Text.digitsValue_paddedDigits]
  exact if_pos ⟨hlow, hhigh⟩

/-- A year without a sign has four digits. -/
theorem year?_of_isDigit {c : Char} (h : c.isDigit = true) (cs : List Char) :
    year? (c :: cs) = (number? 4 (c :: cs)).map fun (n, r) => ((n : ℤ), r) := by
  rw [year?, trimStart_of_not_blank (isBlank_of_isDigit h)]
  split
  · next heq =>
    obtain rfl := (List.cons.inj heq).1
    cases h
  · next heq =>
    obtain rfl := (List.cons.inj heq).1
    cases h
  · rfl

/-- A year is taken off, with its sign if it has one. -/
theorem year?_yearChars (year : ℤ) (rest : List Char) :
    year? (yearChars year ++ '-' :: rest) = some (year, '-' :: rest) := by
  have hdigits (n : ℕ) : ∀ c ∈ paddedDigits 4 n, c.isDigit = true :=
    fun _ => Text.isDigit_of_mem_paddedDigits
  have hnumber (n width : ℕ) (hwidth : (paddedDigits 4 n).length ≤ width) :
      number? width (paddedDigits 4 n ++ '-' :: rest) = some (n, '-' :: rest) := by
    rw [number?_append (hdigits n) (by simp) (Text.paddedDigits_ne_nil 4 n) hwidth,
      Text.digitsValue_paddedDigits]
  -- Behind a sign the width is no limit, so the longer years at the ends are taken off whole.
  have hsigned (n : ℕ) :
      number? (paddedDigits 4 n ++ '-' :: rest).length (paddedDigits 4 n ++ '-' :: rest) =
        some (n, '-' :: rest) :=
    hnumber n _ (by simp)
  unfold yearChars
  split
  · next hfour =>
    have hlength : (paddedDigits 4 year.toNat).length = 4 :=
      Text.length_paddedDigits (by norm_num) (by omega)
    have hplain := hnumber year.toNat 4 hlength.le
    obtain ⟨c, cs, hcs⟩ := List.exists_cons_of_ne_nil (Text.paddedDigits_ne_nil 4 year.toNat)
    have hdigit := hdigits year.toNat c (hcs ▸ List.mem_cons_self)
    rw [hcs, List.cons_append] at hplain ⊢
    rw [year?_of_isDigit hdigit, hplain, Option.map_some]
    dsimp only
    rw [Int.toNat_of_nonneg hfour.1]
  · next hmore =>
    split
    · next hneg =>
      have hread : year? ('-' :: (paddedDigits 4 year.natAbs ++ '-' :: rest)) =
          some (-(year.natAbs : ℤ), '-' :: rest) :=
        congrArg (Option.map fun (x : ℕ × List Char) => (-(x.1 : ℤ), x.2)) (hsigned year.natAbs)
      rw [List.cons_append, hread, Int.ofNat_natAbs_of_nonpos hneg.le, neg_neg]
    · next hpos =>
      have hread : year? ('+' :: (paddedDigits 4 year.natAbs ++ '-' :: rest)) =
          some ((year.natAbs : ℤ), '-' :: rest) :=
        congrArg (Option.map fun (x : ℕ × List Char) => ((x.1 : ℤ), x.2)) (hsigned year.natAbs)
      rw [List.cons_append, hread, Int.natAbs_of_nonneg (not_lt.mp hpos)]

/-- Places that are read, up to nine of them. -/
theorem places?_append {ds rest : List Char} (hds : ∀ c ∈ ds, c.isDigit = true) (hsome : ds ≠ [])
    (hlength : ds.length ≤ 9) (hrest : ∀ c ∈ rest.head?, c.isDigit = false) :
    places? ('.' :: (ds ++ rest)) = some (digitsValue ds * 10 ^ (9 - ds.length), rest) := by
  obtain ⟨htake, hdrop⟩ := Text.takeWhile_isDigit hds hrest
  rw [places?, htake, hdrop, List.take_of_length_le hlength]
  simp [hsome]

/-- The places are the fewest that are exact, and they are read as they were. -/
theorem places?_placesChars {nanos : ℕ} (h : nanos < 1000000000) (rest : List Char) :
    places? (placesChars nanos ++ 'Z' :: rest) = some (nanos, 'Z' :: rest) := by
  -- Three, six or nine places are shown, and the reader fills up what is missing to nine.
  have hplaces (width n : ℕ) (hwidth : 0 < width) (hle : width ≤ 9) (hn : n < 10 ^ width) :
      places? ('.' :: (paddedDigits width n ++ 'Z' :: rest)) =
        some (n * 10 ^ (9 - width), 'Z' :: rest) := by
    have hlength := Text.length_paddedDigits hwidth hn
    rw [places?_append (fun _ => Text.isDigit_of_mem_paddedDigits) (Text.paddedDigits_ne_nil _ _)
      (hlength.trans_le hle) (by simp), Text.digitsValue_paddedDigits, hlength]
  unfold placesChars
  split
  · next hzero =>
    rw [hzero]
    rfl
  split
  · rw [List.cons_append, hplaces 3 _ (by norm_num) (by norm_num) (by omega)]
    norm_num
    omega
  split
  · rw [List.cons_append, hplaces 6 _ (by norm_num) (by norm_num) (by omega)]
    norm_num
    omega
  · rw [List.cons_append, hplaces 9 _ (by norm_num) (by norm_num) (by omega)]
    norm_num

/-! ## Instants -/

/-- The text of a day and a time of day in UTC. -/
def civilChars (year : ℤ) (month day hour minute second nanos : ℕ) : List Char :=
  yearChars year ++ '-' :: (paddedDigits 2 month ++ '-' :: (paddedDigits 2 day ++
    'T' :: (paddedDigits 2 hour ++ ':' :: (paddedDigits 2 minute ++
      ':' :: (paddedDigits 2 second ++ (placesChars nanos ++ ['Z']))))))

/-- The places, or the letter behind the seconds, begin with no digit. -/
theorem head?_placesChars (nanos : ℕ) :
    ∀ c ∈ (placesChars nanos ++ ['Z']).head?, c.isDigit = false := by
  unfold placesChars
  split_ifs <;> simp

/-- A part that is read is handed on to what reads the rest. -/
theorem bind_eq_of_eq_some {α β : Type} {x : Option α} {a : α} {f : α → Option β} {b : Option β}
    (hx : x = some a) (hf : f a = b) : x >>= f = b := by
  rw [hx]
  exact hf

/-- The text of a day and a time of day is read part by part. -/
theorem ofChars?_civilChars {year : ℤ} {month day hour minute second nanos : ℕ}
    (hdate : IsDate year month day) (hhour : hour ≤ 23) (hminute : minute ≤ 59)
    (hsecond : second ≤ 60) (hnanos : nanos < 1000000000) :
    ofChars? (civilChars year month day hour minute second nanos) =
      ofCivil? year month day hour minute second nanos 0 := by
  have hmonth := hdate.month_le
  have hday := hdate.day_le_31
  have hpart (low high n : ℕ) (c : Char) (rest : List Char) (hlow : low ≤ n) (hhigh : n ≤ high)
      (hn : n < 100) (hc : c.isDigit = false) :
      field? low high (paddedDigits 2 n ++ c :: rest) = some (n, c :: rest) :=
    field?_paddedDigits hn hlow hhigh (by simpa using hc)
  have hhyphen (rest : List Char) : separator? '-' ('-' :: rest) = some rest :=
    separator?_self rfl rest
  have hcolon (rest : List Char) : separator? ':' (':' :: rest) = some rest :=
    separator?_self rfl rest
  have hoffset : offset? ['Z'] = some (0, []) := by decide
  rw [ofChars?, civilChars]
  refine bind_eq_of_eq_some (year?_yearChars year _) ?_
  refine bind_eq_of_eq_some (hhyphen _) ?_
  refine bind_eq_of_eq_some (hpart 1 12 month '-' _ hdate.month_pos hmonth (by omega) rfl) ?_
  refine bind_eq_of_eq_some (hhyphen _) ?_
  refine bind_eq_of_eq_some (hpart 1 31 day 'T' _ hdate.day_pos hday (by omega) rfl) ?_
  refine bind_eq_of_eq_some rfl ?_
  refine bind_eq_of_eq_some (hpart 0 23 hour ':' _ hour.zero_le hhour (by omega) rfl) ?_
  refine bind_eq_of_eq_some (hcolon _) ?_
  refine bind_eq_of_eq_some (hpart 0 59 minute ':' _ minute.zero_le hminute (by omega) rfl) ?_
  refine bind_eq_of_eq_some (hcolon _) ?_
  refine bind_eq_of_eq_some (field?_paddedDigits (by omega) second.zero_le hsecond
    (head?_placesChars nanos)) ?_
  refine bind_eq_of_eq_some (places?_placesChars hnanos []) ?_
  exact bind_eq_of_eq_some hoffset (if_pos rfl)

/-- An instant that the calendar reaches. -/
structure InCalendar (t : Instant) : Prop where
  first_le : firstSecond ≤ t.seconds
  le_last : t.seconds ≤ lastSecond
  nanos : t.nanos < 1000000000 ∨ t.nanos < 2000000000 ∧ t.seconds % 60 = 59

theorem ofParts?_eq_some {seconds : ℤ} {nanos : ℕ} {t : Instant} :
    ofParts? seconds nanos = some t ↔ InCalendar ⟨seconds, nanos⟩ ∧ t = ⟨seconds, nanos⟩ := by
  rw [ofParts?]
  constructor
  · intro h
    split at h
    · next hin => exact ⟨⟨hin.1, hin.2.1, hin.2.2⟩, (Option.some.inj h).symm⟩
    · cases h
  · rintro ⟨⟨hfirst, hlast, hnanos⟩, rfl⟩
    exact if_pos ⟨hfirst, hlast, hnanos⟩

theorem InCalendar.of_ofCivil? {year offset : ℤ} {month day hour minute second nanos : ℕ}
    {t : Instant} (h : ofCivil? year month day hour minute second nanos offset = some t) :
    InCalendar t := by
  rw [ofCivil?] at h
  split at h
  · obtain ⟨hin, rfl⟩ := ofParts?_eq_some.mp h
    exact hin
  · cases h

/-- An instant that is read lies in the calendar. -/
theorem InCalendar.of_ofChars? {cs : List Char} {t : Instant} (h : ofChars? cs = some t) :
    InCalendar t := by
  rw [ofChars?] at h
  -- Whatever the parts are, the last of them decides whether there is such an instant.
  obtain ⟨⟨year, cs⟩, -, h⟩ := Option.bind_eq_some_iff.mp h
  obtain ⟨cs, -, h⟩ := Option.bind_eq_some_iff.mp h
  obtain ⟨⟨month, cs⟩, -, h⟩ := Option.bind_eq_some_iff.mp h
  obtain ⟨cs, -, h⟩ := Option.bind_eq_some_iff.mp h
  obtain ⟨⟨day, cs⟩, -, h⟩ := Option.bind_eq_some_iff.mp h
  rcases cs with _ | ⟨c, cs⟩
  · cases h
  dsimp only at h
  split at h
  swap
  · cases h
  obtain ⟨cs, -, h⟩ := Option.bind_eq_some_iff.mp h
  obtain ⟨⟨hour, cs⟩, -, h⟩ := Option.bind_eq_some_iff.mp h
  obtain ⟨cs, -, h⟩ := Option.bind_eq_some_iff.mp h
  obtain ⟨⟨minute, cs⟩, -, h⟩ := Option.bind_eq_some_iff.mp h
  obtain ⟨cs, -, h⟩ := Option.bind_eq_some_iff.mp h
  obtain ⟨⟨second, cs⟩, -, h⟩ := Option.bind_eq_some_iff.mp h
  obtain ⟨⟨nanos, cs⟩, -, h⟩ := Option.bind_eq_some_iff.mp h
  obtain ⟨⟨offset, cs⟩, -, h⟩ := Option.bind_eq_some_iff.mp h
  dsimp only at h
  split at h
  · exact .of_ofCivil? h
  · cases h

/-- The day of an instant of the calendar lies in it. -/
theorem InCalendar.year_mem {t : Instant} (h : InCalendar t) :
    -262143 ≤ (civilFromDays (t.seconds.fdiv secondsPerDay)).1 ∧
      (civilFromDays (t.seconds.fdiv secondsPerDay)).1 ≤ 262142 := by
  have hfirst := h.first_le
  have hlast := h.le_last
  rw [firstSecond] at hfirst
  rw [lastSecond] at hlast
  apply Instant.year_mem
  all_goals
    rw [Int.fdiv_eq_ediv_of_nonneg _ (by decide)]
    rw [secondsPerDay] at *
    omega

/-- The second is shown as 60 in a leap second, and read so. -/
theorem InCalendar.ofCivil?_parts {t : Instant} (h : InCalendar t) {inDay second nanos : ℕ}
    (hinDay : inDay = (t.seconds.fmod secondsPerDay).toNat)
    (hsecond : second = inDay % 60 + if 1000000000 ≤ t.nanos then 1 else 0)
    (hnanos : nanos = if 1000000000 ≤ t.nanos then t.nanos - 1000000000 else t.nanos) :
    ofCivil? (civilFromDays (t.seconds.fdiv secondsPerDay)).1
      (civilFromDays (t.seconds.fdiv secondsPerDay)).2.1
      (civilFromDays (t.seconds.fdiv secondsPerDay)).2.2
      (inDay / 3600) (inDay / 60 % 60) second nanos 0 = some t := by
  obtain ⟨hfirst, hlast⟩ := h.year_mem
  have hdate := isDate_civilFromDays (t.seconds.fdiv secondsPerDay)
  have hdays := daysFromCivil_civilFromDays (t.seconds.fdiv secondsPerDay)
  have hsplit : t.seconds = t.seconds.fdiv secondsPerDay * secondsPerDay + inDay := by
    rw [hinDay, Int.toNat_of_nonneg (Int.fmod_nonneg_of_pos _ (by decide)), mul_comm,
      Int.mul_fdiv_add_fmod]
  have hbounds : -86400 < (0 : ℤ) ∧ (0 : ℤ) < 86400 := by decide
  rw [ofCivil?, if_pos ⟨hfirst, hlast, hdate.day_pos, hdate.day_le, hbounds⟩, hdays]
  -- Only the last second of a minute has a leap second behind it.
  have hshown : (if second = 60 then (59, nanos + 1000000000) else (second, nanos)) =
      (inDay % 60, t.nanos) := by
    by_cases hleap : 1000000000 ≤ t.nanos
    · rw [if_pos hleap] at hsecond hnanos
      have hlast := h.nanos
      have hminute : inDay % 60 = 59 := by
        rw [secondsPerDay] at hsplit
        omega
      rw [if_pos (by omega), hminute, hnanos, Nat.sub_add_cancel hleap]
    · rw [if_neg hleap] at hsecond hnanos
      rw [if_neg (by omega), hsecond, hnanos, add_zero]
  rw [hshown]
  refine ofParts?_eq_some.mpr ?_
  have hseconds : t.seconds.fdiv secondsPerDay * secondsPerDay + ↑(inDay / 3600) * 3600 +
      ↑(inDay / 60 % 60) * 60 + ↑(inDay % 60) - 0 = t.seconds := by
    omega
  rw [hseconds]
  exact ⟨h, rfl⟩

theorem InCalendar.ofChars?_toChars {t : Instant} (h : InCalendar t) :
    ofChars? t.toChars = some t := by
  have hmod : 0 ≤ t.seconds.fmod secondsPerDay ∧ t.seconds.fmod secondsPerDay < 86400 :=
    ⟨Int.fmod_nonneg_of_pos _ (by decide), Int.fmod_lt_of_pos _ (by decide)⟩
  have hnanos := h.nanos
  refine (ofChars?_civilChars (isDate_civilFromDays _) ?_ ?_ ?_ ?_).trans
    (h.ofCivil?_parts rfl rfl rfl)
  · omega
  · omega
  · split_ifs <;> omega
  · split_ifs <;> omega

end Instant

end LoyaltyPoints
