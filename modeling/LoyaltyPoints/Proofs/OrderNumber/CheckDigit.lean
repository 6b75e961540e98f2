import LoyaltyPoints.Proofs.OrderNumber.Checksum

/-! # Order numbers: what the check digit is good for

    Digits are completed to an order number by exactly one digit more. A number in which one digit
    is misread is none any more, because no two digits count the same, whether they are doubled or
    not. A number in which two neighbours have changed places is none either, unless they are 0 and
    9: these two count nine together in both orders.

    All of it rests on the sum around a place: what stands on the right of it decides which of its
    digits are doubled, and a stretch of digits may be exchanged for another one of its length if
    they count the same there, up to tens. -/

namespace LoyaltyPoints

namespace OrderNumber

open Text (digitValue)

/-! ## What a digit counts -/

/-- What a digit adds to the sum. -/
def weight (doubling : Bool) (d : ℕ) : ℕ := if doubling then doubledValue d else d

theorem luhnTotal_cons (doubling : Bool) (d : ℕ) (ds : List ℕ) :
    luhnTotal doubling (d :: ds) = weight doubling d + luhnTotal (!doubling) ds := rfl

/-- No two digits count the same, up to tens. -/
theorem eq_of_weight_modEq {doubling : Bool} {d e : ℕ} (hd : d ≤ 9) (he : e ≤ 9)
    (h : weight doubling d ≡ weight doubling e [MOD 10]) : d = e := by
  unfold Nat.ModEq weight doubledValue at h
  cases doubling
  · simp only [Bool.false_eq_true, if_false] at h
    omega
  · simp only [if_true] at h
    split at h <;> split at h <;> omega

/-- Only 0 and 9 count the same in both orders. -/
theorem weight_swap_modEq_iff (doubling : Bool) {d e : ℕ} (hd : d ≤ 9) (he : e ≤ 9) (hne : d ≠ e) :
    weight doubling d + weight (!doubling) e ≡ weight doubling e + weight (!doubling) d [MOD 10] ↔
      (d = 0 ∧ e = 9) ∨ (d = 9 ∧ e = 0) := by
  unfold Nat.ModEq weight doubledValue
  cases doubling
  · simp only [Bool.not_false, Bool.false_eq_true, if_false, if_true]
    split <;> split <;> omega
  · simp only [Bool.not_true, Bool.false_eq_true, if_false, if_true]
    split <;> split <;> omega

theorem digitValue_inj {c d : Char} (hc : c.isDigit = true) (hd : d.isDigit = true) :
    digitValue c = digitValue d ↔ c = d := by
  have hc := (Char.isDigit_iff_toNat.mp hc).1
  have hd := (Char.isDigit_iff_toNat.mp hd).1
  unfold digitValue
  rw [← Char.toNat_inj]
  omega

/-! ## The sum around a place -/

/-- The values of digits, from the right end on. -/
def valuesFromRight (cs : List Char) : List ℕ := cs.reverse.map digitValue

theorem valuesFromRight_append (cs ds : List Char) :
    valuesFromRight (cs ++ ds) = valuesFromRight ds ++ valuesFromRight cs := by
  simp [valuesFromRight]

@[simp] theorem length_valuesFromRight (cs : List Char) :
    (valuesFromRight cs).length = cs.length := by
  simp [valuesFromRight]

/-- Behind an odd count of digits the doubling is the other way round. -/
theorem luhnTotal_append (doubling : Bool) (ds es : List ℕ) :
    luhnTotal doubling (ds ++ es) =
      luhnTotal doubling ds + luhnTotal (doubling ^^ ds.length.bodd) es := by
  -- The doubling turns with every digit, so the induction runs over both ways of it.
  induction ds generalizing doubling with
  | nil => simp [luhnTotal]
  | cons d ds ih =>
    rw [List.cons_append, luhnTotal_cons, luhnTotal_cons, ih, List.length_cons, Nat.bodd_succ]
    simp [Nat.add_assoc]

/-- The parts of a text count one by one, each doubled as the length of what is behind it says. -/
theorem total_append (front middle back : List Char) :
    total (String.ofList (front ++ (middle ++ back))) =
      luhnTotal false (valuesFromRight back) +
        luhnTotal back.length.bodd (valuesFromRight middle) +
        luhnTotal (back.length.bodd ^^ middle.length.bodd) (valuesFromRight front) := by
  show luhnTotal false (valuesFromRight (String.ofList (front ++ (middle ++ back))).toList) = _
  rw [String.toList_ofList, valuesFromRight_append, valuesFromRight_append, luhnTotal_append,
    luhnTotal_append]
  simp

/-- Short texts are judged by the sum itself. -/
theorem isValid_ofList_iff {cs : List Char} (hshort : cs.length ≤ maxDigits) :
    isValid (String.ofList cs) = true ↔
      cs ≠ [] ∧ (∀ c ∈ cs, c.isDigit = true) ∧ 10 ∣ total (String.ofList cs) := by
  have hlength : (String.ofList cs).length ≤ maxDigits := by rwa [String.length_ofList]
  rw [isValid_iff, isGood_iff_of_length_le hlength, String.toList_ofList, ne_eq,
    String.ofList_eq_empty_iff]

/-- In an order number a stretch of digits may be exchanged for another one of its length exactly
    if they count the same at their place, up to tens. -/
theorem isValid_exchange_iff {front back : List Char} (middle other : List Char)
    (hvalid : isValid (String.ofList (front ++ (middle ++ back))) = true)
    (hshort : (front ++ (middle ++ back)).length ≤ maxDigits)
    (hlength : other.length = middle.length) (hdigits : ∀ c ∈ other, c.isDigit = true) :
    isValid (String.ofList (front ++ (other ++ back))) = true ↔
      luhnTotal back.length.bodd (valuesFromRight other) ≡
        luhnTotal back.length.bodd (valuesFromRight middle) [MOD 10] := by
  have hsame : (front ++ (other ++ back)).length = (front ++ (middle ++ back)).length := by
    simp [hlength]
  obtain ⟨hne, hall, hten⟩ := (isValid_ofList_iff hshort).mp hvalid
  have hne' : front ++ (other ++ back) ≠ [] := by
    intro hnil
    rw [hnil, List.length_nil] at hsame
    exact hne (List.length_eq_zero_iff.mp hsame.symm)
  have hall' : ∀ c ∈ front ++ (other ++ back), c.isDigit = true := by
    intro c hc
    simp only [List.mem_append] at hc hall
    rcases hc with hfront | hother | hback
    · exact hall c (.inl hfront)
    · exact hdigits c hother
    · exact hall c (.inr (.inr hback))
  rw [isValid_ofList_iff (hsame ▸ hshort), total_append, hlength]
  rw [total_append] at hten
  -- What stands around the stretch counts as before.
  generalize luhnTotal false (valuesFromRight back) = behind at *
  generalize (back.length.bodd ^^ middle.length.bodd) = doubling at *
  generalize luhnTotal doubling (valuesFromRight front) = before at *
  unfold Nat.ModEq
  constructor
  · intro haccepted
    have hten' := haccepted.2.2
    omega
  · intro hmod
    exact ⟨hne', hall', by omega⟩

/-! ## Slips that are noticed -/

section slips

variable {front back : List Char} {c d : Char}

theorem isDigit_of_isValid {cs : List Char} (hvalid : isValid (String.ofList cs) = true)
    (hc : c ∈ cs) : c.isDigit = true := by
  apply ((isValid_iff _).mp hvalid).isDigit
  rwa [String.toList_ofList]

/-- A misread digit is noticed, and so is anything else in its place. -/
theorem isValid_misread (hvalid : isValid (String.ofList (front ++ c :: back)) = true)
    (hshort : (front ++ c :: back).length ≤ maxDigits) (hne : d ≠ c) :
    isValid (String.ofList (front ++ d :: back)) = false := by
  rw [Bool.eq_false_iff]
  intro haccepted
  have hc : c.isDigit = true := isDigit_of_isValid hvalid (by simp)
  have hd : d.isDigit = true := isDigit_of_isValid haccepted (by simp)
  have hcounts := (isValid_exchange_iff [c] [d] hvalid hshort rfl (by simpa using hd)).mp haccepted
  have hvalues := eq_of_weight_modEq (digitValue_le hd) (digitValue_le hc) hcounts
  exact hne ((digitValue_inj hd hc).mp hvalues)

/-- Two neighbours in the wrong order are noticed, except for 0 and 9. -/
theorem isValid_swap_iff (hvalid : isValid (String.ofList (front ++ c :: d :: back)) = true)
    (hshort : (front ++ c :: d :: back).length ≤ maxDigits) (hne : c ≠ d) :
    isValid (String.ofList (front ++ d :: c :: back)) = true ↔
      (c = '0' ∧ d = '9') ∨ (c = '9' ∧ d = '0') := by
  have hc : c.isDigit = true := isDigit_of_isValid hvalid (by simp)
  have hd : d.isDigit = true := isDigit_of_isValid hvalid (by simp)
  have hvalues : digitValue c ≠ digitValue d := fun h => hne ((digitValue_inj hc hd).mp h)
  have hzero {x : Char} (hx : x.isDigit = true) : digitValue x = 0 ↔ x = '0' :=
    digitValue_inj (d := '0') hx rfl
  have hnine {x : Char} (hx : x.isDigit = true) : digitValue x = 9 ↔ x = '9' :=
    digitValue_inj (d := '9') hx rfl
  have hcounts := isValid_exchange_iff [c, d] [d, c] hvalid hshort rfl (by simpa using ⟨hd, hc⟩)
  have hswap := weight_swap_modEq_iff back.length.bodd (digitValue_le hc) (digitValue_le hd) hvalues
  rw [hzero hc, hzero hd, hnine hc, hnine hd] at hswap
  exact hcounts.trans hswap

end slips

/-- An order number is none any more with one wrong character in it. With two different neighbours
    in the wrong order it is one exactly if they are 0 and 9. -/
theorem slips_noticed {number : String} (hvalid : isValid number = true)
    (hlength : number.length ≤ maxDigits) :
    (∀ (front back : List Char) (c d : Char), number.toList = front ++ c :: back → d ≠ c →
      isValid (String.ofList (front ++ d :: back)) = false) ∧
    (∀ (front back : List Char) (c d : Char), number.toList = front ++ c :: d :: back → c ≠ d →
      (isValid (String.ofList (front ++ d :: c :: back)) = true ↔
        (c = '0' ∧ d = '9') ∨ (c = '9' ∧ d = '0'))) := by
  rw [← String.length_toList] at hlength
  have htexts : isValid (String.ofList number.toList) = true := by rwa [String.ofList_toList]
  constructor
  · intro front back c d htext hne
    rw [htext] at htexts hlength
    exact isValid_misread htexts hlength hne
  · intro front back c d htext hne
    rw [htext] at htexts hlength
    exact isValid_swap_iff htexts hlength hne

/-- In 79927398713 the first 9 is misread or changes places with the 7, and in 901 the 9 changes
    places with the 0. -/
theorem slips_noticed_of_misread_nine :
    isValid "79927398713" = true ∧ "79927398713".length ≤ maxDigits ∧
      isValid "74927398713" = false ∧ isValid "97927398713" ≠ true ∧
      isValid "901" = true ∧ "901".length ≤ maxDigits ∧ isValid "091" = true := by
  have hvalid : isValid "79927398713" = true := by decide +kernel
  have hlength : "79927398713".length ≤ maxDigits := by decide +kernel
  have hvalid' : isValid "901" = true := by decide +kernel
  have hlength' : "901".length ≤ maxDigits := by decide +kernel
  obtain ⟨hmisread, hswapped⟩ := slips_noticed hvalid hlength
  obtain ⟨-, hswapped'⟩ := slips_noticed hvalid' hlength'
  have hdetected := hswapped [] "927398713".toList '7' '9' (by decide +kernel) (by decide)
  have hpassed := hswapped' [] ['1'] '9' '0' (by decide +kernel) (by decide)
  refine ⟨hvalid, hlength, ?_, ?_, hvalid', hlength', ?_⟩
  · exact hmisread ['7'] "927398713".toList '9' '4' (by decide +kernel) (by decide)
  · intro haccepted
    exact absurd (hdetected.mp haccepted) (by decide)
  · exact hpassed.mpr (by decide)

/-! ## The digit that completes a number -/

/-- The sum that a check digit is made from: from the right end the 1st, 3rd, 5th and so on of the
    digits before it count doubled. -/
def checkSum (p : String) : ℕ :=
  ((valuesFromRight p.toList).mapIdx fun i d => if i % 2 = 0 then doubledValue d else d).sum

/-- What is missing to the next ten. -/
def checkDigit (p : String) : ℕ := (10 - checkSum p % 10) % 10

/-- Digits with their check digit. -/
def completed (p : String) : String := p.push (Nat.digitChar (checkDigit p))

/-- The sum that alternates is the sum by places. -/
theorem luhnTotal_eq_sum_mapIdx (doubling : Bool) (ds : List ℕ) :
    luhnTotal doubling ds = (ds.mapIdx fun i d => weight (doubling ^^ i.bodd) d).sum := by
  induction ds generalizing doubling with
  | nil => rfl
  | cons d ds ih =>
    rw [luhnTotal_cons, ih, List.mapIdx_cons, List.sum_cons]
    simp [Nat.bodd_succ]

theorem checkSum_eq (p : String) : checkSum p = luhnTotal true (valuesFromRight p.toList) := by
  have hplace (i d : ℕ) :
      weight (true ^^ i.bodd) d = if i % 2 = 0 then doubledValue d else d := by
    rw [weight, Nat.mod_two_of_bodd]
    cases i.bodd <;> rfl
  rw [luhnTotal_eq_sum_mapIdx, checkSum]
  simp only [hplace]

/-- A digit that is appended counts as it is, and all digits before it move up by a place. -/
theorem total_push (p : String) (d : Char) : total (p.push d) = digitValue d + checkSum p := by
  rw [checkSum_eq, total, String.toList_push, List.reverse_append]
  rfl

theorem digitValue_digitChar {n : ℕ} (h : n < 10) :
    (Nat.digitChar n).isDigit = true ∧ digitValue (Nat.digitChar n) = n := by
  have hall : ∀ n < 10, (Nat.digitChar n).isDigit = true ∧ digitValue (Nat.digitChar n) = n := by
    decide
  exact hall n h

/-- A digit completes the digits before it exactly if it is their check digit. -/
theorem isValid_push_iff {p : String} {d : Char} (hdigits : ∀ c ∈ p.toList, c.isDigit = true)
    (hlength : p.length < maxDigits) (hd : d.isDigit = true) :
    isValid (p.push d) = true ↔ digitValue d = checkDigit p := by
  have hshort : (p.push d).length ≤ maxDigits := by
    rw [String.length_push]
    exact hlength
  have hne : p.push d ≠ "" := by
    rw [ne_eq, ← String.toList_eq_nil_iff, String.toList_push]
    simp
  have hall : ∀ c ∈ (p.push d).toList, c.isDigit = true := by
    intro c hc
    rw [String.toList_push, List.mem_append, List.mem_singleton] at hc
    rcases hc with hbefore | rfl
    · exact hdigits c hbefore
    · exact hd
  have hnine := digitValue_le hd
  rw [isValid_iff, isGood_iff_of_length_le hshort, total_push]
  unfold checkDigit
  constructor
  · intro haccepted
    have hten := haccepted.2.2
    omega
  · intro hvalue
    exact ⟨hne, hall, by omega⟩

/-- Digits are completed to an order number by exactly one digit, and that is what their sum by
    places is short of the next ten. -/
theorem check_digit_unique {p : String} (hdigits : ∀ c ∈ p.toList, c.isDigit = true)
    (hlength : p.length < maxDigits) :
    (∃! d : Char, d.isDigit = true ∧ isValid (p.push d) = true) ∧
      isValid (completed p) = true ∧
      ∀ d : Char, isValid (p.push d) = true → digitValue d = checkDigit p := by
  obtain ⟨hdigit, hvalue⟩ := digitValue_digitChar (Nat.mod_lt (10 - checkSum p % 10) (by norm_num))
  have hcompleted : isValid (completed p) = true :=
    (isValid_push_iff hdigits hlength hdigit).mpr hvalue
  have honly (d : Char) (haccepted : isValid (p.push d) = true) : digitValue d = checkDigit p := by
    have hd : d.isDigit = true := ((isValid_iff _).mp haccepted).isDigit d (by simp)
    exact (isValid_push_iff hdigits hlength hd).mp haccepted
  refine ⟨⟨Nat.digitChar (checkDigit p), ⟨hdigit, hcompleted⟩, ?_⟩, hcompleted, honly⟩
  intro d h
  exact (digitValue_inj h.1 hdigit).mp ((honly d h.2).trans hvalue.symm)

/-- 7992739871 is completed by 3, and no digits at all by one digit too. -/
theorem check_digit_unique_of_ten_digits :
    (∀ c ∈ "7992739871".toList, c.isDigit = true) ∧ "7992739871".length < maxDigits ∧
      isValid "79927398713" = true ∧
      (∀ d : Char, isValid ("7992739871".push d) = true → digitValue d = 3) ∧
      (∀ c ∈ "".toList, c.isDigit = true) ∧ "".length < maxDigits ∧
      ∃! d : Char, d.isDigit = true ∧ isValid ("".push d) = true := by
  have hdigits : ∀ c ∈ "7992739871".toList, c.isDigit = true := by simp
  have hlength : "7992739871".length < maxDigits := by decide
  have hnone : ∀ c ∈ "".toList, c.isDigit = true := by simp
  have hshort : "".length < maxDigits := by decide
  have hcompleted : completed "7992739871" = "79927398713" := by decide +kernel
  have hthree : checkDigit "7992739871" = 3 := by decide +kernel
  obtain ⟨-, hvalid, honly⟩ := check_digit_unique hdigits hlength
  rw [hcompleted] at hvalid
  rw [hthree] at honly
  exact ⟨hdigits, hlength, hvalid, honly, hnone, hshort, (check_digit_unique hnone hshort).1⟩

end OrderNumber

end LoyaltyPoints
