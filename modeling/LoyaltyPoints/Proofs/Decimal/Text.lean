import LoyaltyPoints.Decimal.Text
import LoyaltyPoints.Proofs.Text.Digits

/-! # Decimals: the written form is read back

    A decimal is written with all its digits, and the digits of a decimal fit 96 bits and 28 places.
    So the reader never comes to the point where it would round: it gathers the coefficient digit by
    digit and counts the places, and both come out as they were. -/

namespace LoyaltyPoints

namespace Decimal

open Text (digitValue digitsValue digits paddedDigits)

/-! ## The reader on digits -/

section reader

variable (negative point started : Bool) (magnitude scale : ℕ)

/-- A text ends behind a digit. -/
theorem readPlain_nil :
    readPlain negative point true magnitude scale [] = ofMagnitude? negative magnitude scale := rfl

theorem readPlain_point (cs : List Char) :
    readPlain negative false started magnitude scale ('.' :: cs) =
      readPlain negative true started magnitude scale cs := by
  delta readPlain
  rfl

/-- A digit that fits is gathered, whether another character follows or not. -/
theorem readPlain_digit {c : Char} {cs : List Char} (hdigit : c.isDigit = true)
    (hfits : 10 * magnitude + digitValue c < bound)
    (hplaces : point = true → scale + 1 < maxScale ∨ cs = []) :
    readPlain negative point started magnitude scale (c :: cs) =
      readPlain negative point true (10 * magnitude + digitValue c)
        (if point then scale + 1 else scale) cs := by
  -- The reader looks one character ahead, so its recursion is opened by hand.
  delta readPlain
  show (if c.isDigit = true then if bound ≤ 10 * magnitude + digitValue c then _ else _ else _) = _
  rw [if_pos hdigit, if_neg (Nat.not_le.mpr hfits)]
  cases cs with
  | nil => rfl
  | cons d ds =>
    have hmore : (point && decide (maxScale ≤ if point then scale + 1 else scale)) = false := by
      cases point with
      | false => rfl
      | true => simpa using hplaces rfl
    dsimp only
    rw [hmore, if_neg Bool.false_ne_true]

/-- Digits that fit are gathered one by one. -/
theorem readPlain_digits (rest : List Char) {ds : List Char} (hds : ∀ c ∈ ds, c.isDigit = true)
    (hfits : Nat.ofDigitChars 10 ds magnitude < bound)
    (hplaces : point = true → scale + ds.length ≤ maxScale ∧ rest = []) :
    readPlain negative point started magnitude scale (ds ++ rest) =
      readPlain negative point (started || !ds.isEmpty) (Nat.ofDigitChars 10 ds magnitude)
        (if point then scale + ds.length else scale) rest := by
  induction ds generalizing started magnitude scale with
  | nil => simp
  | cons c ds ih =>
    rw [List.forall_mem_cons] at hds
    rw [Text.ofDigitChars_cons] at hfits ⊢
    -- What is gathered so far is not more than all of it.
    have hsofar : 10 * magnitude + digitValue c < bound :=
      (Text.le_ofDigitChars ds _).trans_lt hfits
    have hnext : point = true → scale + 1 + ds.length ≤ maxScale ∧ rest = [] := by
      rwa [List.length_cons, Nat.add_comm ds.length, ← Nat.add_assoc] at hplaces
    have hlast : point = true → scale + 1 < maxScale ∨ ds ++ rest = [] := by
      intro hpoint
      obtain ⟨hlength, hrest⟩ := hnext hpoint
      cases ds with
      | nil => exact .inr (by rw [hrest]; rfl)
      | cons d ds =>
        rw [List.length_cons] at hlength
        exact .inl (by omega)
    rw [List.cons_append, readPlain_digit _ _ _ _ _ hds.1 hsofar hlast]
    cases point with
    | false =>
      rw [ih _ _ _ hds.2 hfits nofun]
      simp
    | true =>
      rw [if_pos rfl, ih _ _ _ hds.2 hfits fun _ => hnext rfl]
      simp [Nat.add_assoc, Nat.add_comm 1]

end reader

/-! ## The written form -/

/-- What is written without its sign is read with any sign. -/
theorem readPlain_body (negative : Bool) {n scale : ℕ} (hn : n < bound) (hscale : scale ≤ 28) :
    readPlain negative false false 0 0
        (if scale = 0 then digits (n / 10 ^ scale)
          else digits (n / 10 ^ scale) ++ '.' :: paddedDigits scale (n % 10 ^ scale)) =
      ofMagnitude? negative n scale := by
  have hwhole : Nat.ofDigitChars 10 (digits (n / 10 ^ scale)) 0 = n / 10 ^ scale :=
    Text.digitsValue_digits _
  have hle : n / 10 ^ scale ≤ n := Nat.div_le_self _ _
  -- The digits of the whole part are gathered, whatever stands behind them.
  have hfirst (rest : List Char) :
      readPlain negative false false 0 0 (digits (n / 10 ^ scale) ++ rest) =
        readPlain negative false true (n / 10 ^ scale) 0 rest := by
    have hdigits := readPlain_digits negative false false 0 0 rest
      (fun _ => Text.isDigit_of_mem_digits) (hwhole ▸ hle.trans_lt hn) nofun
    have hsome : (digits (n / 10 ^ scale)).isEmpty = false := by simp [Text.digits_ne_nil]
    rwa [hwhole, hsome] at hdigits
  by_cases hzero : scale = 0
  · have hlast := hfirst []
    rw [List.append_nil] at hlast
    rw [if_pos hzero, hlast, readPlain_nil, hzero, pow_zero, Nat.div_one]
  · have hlength : (paddedDigits scale (n % 10 ^ scale)).length = scale :=
      Text.length_paddedDigits (by omega) (Nat.mod_lt n (by positivity))
    have hall : Nat.ofDigitChars 10 (paddedDigits scale (n % 10 ^ scale)) (n / 10 ^ scale) = n := by
      rw [Nat.ofDigitChars_eq_ofDigitChars_zero, hlength]
      exact (congrArg _ (Text.digitsValue_paddedDigits scale _)).trans (Nat.div_add_mod n _)
    have hplaces := readPlain_digits negative true true (n / 10 ^ scale) 0 []
      (fun _ => Text.isDigit_of_mem_paddedDigits) (hall.symm ▸ hn)
      (fun _ => ⟨(Nat.zero_add _).trans_le (hlength.trans_le hscale), rfl⟩)
    rw [List.append_nil, hall, hlength, if_pos rfl, Nat.zero_add, Bool.true_or, readPlain_nil]
      at hplaces
    rw [if_neg hzero, hfirst, readPlain_point, hplaces]

theorem ofMagnitude?_natAbs (a : Decimal) :
    ofMagnitude? (decide (a.coefficient < 0)) a.coefficient.natAbs a.scale = some a := by
  have hsigned : (if decide (a.coefficient < 0) = true then -Int.ofNat a.coefficient.natAbs
      else Int.ofNat a.coefficient.natAbs) = a.coefficient := by
    split
    · next h =>
      have hle : a.coefficient ≤ 0 := (of_decide_eq_true h).le
      rw [Int.ofNat_eq_natCast, Int.ofNat_natAbs_of_nonpos hle, neg_neg]
    · next h => exact Int.natAbs_of_nonneg (not_lt.mp fun hlt => h (decide_eq_true hlt))
  rw [ofMagnitude?, hsigned, ofParts?, dif_pos ⟨a.coefficient_lt, a.scale_le⟩]

/-- A text that begins with a digit has no sign. -/
theorem ofPlain?_of_isDigit {c : Char} {cs : List Char} (h : c.isDigit = true) :
    ofPlain? (c :: cs) = readPlain false false false 0 0 (c :: cs) := by
  unfold ofPlain?
  split
  · next heq =>
    obtain rfl := (List.cons.inj heq).1
    cases h
  · next heq =>
    obtain rfl := (List.cons.inj heq).1
    cases h
  · rfl

/-- The written form is read back, with its places. -/
theorem ofPlain?_toChars (a : Decimal) : ofPlain? a.toChars = some a := by
  have hbody (negative : Bool) := readPlain_body negative a.coefficient_lt a.scale_le
  have hparts := ofMagnitude?_natAbs a
  unfold toChars
  dsimp only
  split
  · next hneg =>
    rw [decide_eq_true hneg] at hparts
    exact (hbody true).trans hparts
  · next hpos =>
    rw [decide_eq_false hpos] at hparts
    refine Eq.trans ?_ ((hbody false).trans hparts)
    -- The reader looks for a sign first, and a digit is none.
    obtain ⟨c, cs, hwhole⟩ :=
      List.exists_cons_of_ne_nil (Text.digits_ne_nil (a.coefficient.natAbs / 10 ^ a.scale))
    have hdigit : c.isDigit = true :=
      Text.isDigit_of_mem_digits (hwhole ▸ List.mem_cons_self)
    show ofPlain? (if a.scale = 0 then digits (a.coefficient.natAbs / 10 ^ a.scale) else
      digits (a.coefficient.natAbs / 10 ^ a.scale) ++ _) = _
    rw [hwhole]
    split
    · exact ofPlain?_of_isDigit hdigit
    · exact ofPlain?_of_isDigit hdigit

/-! ## Digits and a point -/

/-- Digits without a point are read as an integer. -/
theorem ofPlain?_digits {ds : List Char} (hds : ∀ c ∈ ds, c.isDigit = true) (hne : ds ≠ [])
    (hfits : digitsValue ds < bound) : ofPlain? ds = ofMagnitude? false (digitsValue ds) 0 := by
  have hread := readPlain_digits false false false 0 0 [] hds hfits nofun
  have hstarted : (false || !ds.isEmpty) = true := by simp [hne]
  rw [List.append_nil, hstarted, readPlain_nil] at hread
  obtain ⟨c, cs, rfl⟩ := List.exists_cons_of_ne_nil hne
  rw [ofPlain?_of_isDigit (hds c List.mem_cons_self), hread]
  rfl

/-- Digits around a point are read as what they spell without it, over a power of ten. -/
theorem ofPlain?_point {whole places : List Char} (hwhole : ∀ c ∈ whole, c.isDigit = true)
    (hne : whole ≠ []) (hplaces : ∀ c ∈ places, c.isDigit = true) (hlength : places.length ≤ 28)
    (hfits : digitsValue (whole ++ places) < bound) :
    ofPlain? (whole ++ '.' :: places) =
      ofMagnitude? false (digitsValue (whole ++ places)) places.length := by
  have hall : digitsValue (whole ++ places) =
      Nat.ofDigitChars 10 places (Nat.ofDigitChars 10 whole 0) := Nat.ofDigitChars_append 0
  rw [hall] at hfits ⊢
  have hfirst := readPlain_digits false false false 0 0 ('.' :: places) hwhole
    ((Text.le_ofDigitChars places _).trans_lt hfits) nofun
  have hstarted : (false || !whole.isEmpty) = true := by simp [hne]
  have hlast := readPlain_digits false true true (Nat.ofDigitChars 10 whole 0) 0 [] hplaces hfits
    (fun _ => ⟨by rw [Nat.zero_add]; exact hlength, rfl⟩)
  rw [hstarted, readPlain_point] at hfirst
  rw [List.append_nil, Bool.true_or, readPlain_nil, if_pos rfl, Nat.zero_add] at hlast
  obtain ⟨c, cs, rfl⟩ := List.exists_cons_of_ne_nil hne
  rw [List.cons_append, ofPlain?_of_isDigit (hwhole c List.mem_cons_self), ← List.cons_append,
    hfirst, if_neg Bool.false_ne_true, hlast]

/-! ## Any text -/

theorem ofAnyText?_toText (a : Decimal) : ofAnyText? a.toText = some a := by
  rw [ofAnyText?, toText, String.toList_ofList, ofPlain?_toChars]
  rfl

end Decimal

end LoyaltyPoints
