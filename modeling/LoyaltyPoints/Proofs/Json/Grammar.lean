import Mathlib
import LoyaltyPoints.Proofs.Json.Writing

/-! # JSON: the grammar

    The grammar of documents is written down here apart from the reader: what a number, a string, an
    array and an object look like, with blanks between the tokens. The main statement says that the
    reader reads exactly the documents of the grammar, each as the one tree it is written for
    (`ofSymbols?_eq_some_iff`).

    What a phrase is read as does not depend on what stands behind it, except that a number must
    not go on. That carries the induction over the grammar in one direction. In the other one it is
    the fuel of the reader that the induction is on. -/

namespace LoyaltyPoints

namespace Json

/-! ## Tokens -/

/-- A run of blanks. -/
def AreBlanks (w : List Symbol) : Prop := ∀ x ∈ w, isBlank x = true

/-- A run of digits, at least one. -/
def AreDigits (ds : List Char) : Prop := ds ≠ [] ∧ ∀ c ∈ ds, c.isDigit = true

namespace Number

/-- A point and the places behind it, or nothing. -/
inductive WritesPlaces : List Char → List Symbol → Prop where
  | none : WritesPlaces [] []
  | some {ds : List Char} (hds : AreDigits ds) : WritesPlaces ds (.some '.' :: ds.map .some)

/-- The signs that an exponent may have, and whether it is negative then. -/
inductive WritesSign : Bool → List Char → Prop where
  | minus : WritesSign true ['-']
  | plus : WritesSign false ['+']
  | none : WritesSign false []

/-- A mark, a sign and digits, or nothing. -/
inductive WritesExponent : Option (Bool × List Char) → List Symbol → Prop where
  | none : WritesExponent .none []
  | some {mark : Char} {negative : Bool} {sign ds : List Char} (hmark : mark = 'e' ∨ mark = 'E')
      (hsign : WritesSign negative sign) (hds : AreDigits ds) :
      WritesExponent (.some (negative, ds)) (.some mark :: (sign.map .some ++ ds.map .some))

/-- A number: no zero stands in front of another whole digit. -/
structure Writes (n : Number) (s : List Symbol) : Prop where
  whole : AreDigits n.whole
  no_zero : ∀ c cs, n.whole ≠ '0' :: c :: cs
  parts : ∃ places exponent, WritesPlaces n.places places ∧ WritesExponent n.exponent exponent ∧
    s = (if n.negative then [.some '-'] else []) ++ (n.whole.map .some ++ (places ++ exponent))

end Number

/-- The rest of a string behind its opening quote. -/
inductive WritesPieces : List Piece → List Symbol → Prop where
  | close : WritesPieces [] [some '"']
  | plain {c : Char} {ps : List Piece} {s : List Symbol} (hquote : c ≠ '"')
      (hbackslash : c ≠ '\\') (hcontrol : 0x20 ≤ c.toNat) (h : WritesPieces ps s) :
      WritesPieces (.char c :: ps) (some c :: s)
  | stray {ps : List Piece} {s : List Symbol} (h : WritesPieces ps s) :
      WritesPieces (.stray :: ps) (none :: s)
  | escape {e c : Char} {ps : List Piece} {s : List Symbol} (he : escape? e = some c)
      (h : WritesPieces ps s) : WritesPieces (.char c :: ps) (some '\\' :: some e :: s)
  | unit {a b c d : Char} {n : ℕ} {ps : List Piece} {s : List Symbol}
      (hn : Text.hexNumber? [a, b, c, d] = some n) (h : WritesPieces ps s) :
      WritesPieces (.unit n :: ps)
        (some '\\' :: some 'u' :: some a :: some b :: some c :: some d :: s)

/-! ## Documents -/

/-- What is written: a value, or the rest of an array or an object behind its opening bracket where
    that has a member. -/
inductive Phrase where
  | value (j : Json)
  | items (xs : List Json)
  | members (ms : List (List Piece × Json))

/-- The texts of a phrase. -/
inductive Writes : Phrase → List Symbol → Prop where
  | null : Writes (.value .null) (['n', 'u', 'l', 'l'].map some)
  | trueWord : Writes (.value (.bool true)) (['t', 'r', 'u', 'e'].map some)
  | falseWord : Writes (.value (.bool false)) (['f', 'a', 'l', 's', 'e'].map some)
  | number {n : Number} {s : List Symbol} (h : n.Writes s) : Writes (.value (.number n)) s
  | text {ps : List Piece} {s : List Symbol} (h : WritesPieces ps s) :
      Writes (.value (.text ps)) (some '"' :: s)
  | emptyArray {w : List Symbol} (hw : AreBlanks w) :
      Writes (.value (.array [])) (some '[' :: (w ++ [some ']']))
  | array {xs : List Json} {s : List Symbol} (h : Writes (.items xs) s) :
      Writes (.value (.array xs)) (some '[' :: s)
  | emptyObject {w : List Symbol} (hw : AreBlanks w) :
      Writes (.value (.object [])) (some '\x7b' :: (w ++ [some '\x7d']))
  | object {ms : List (List Piece × Json)} {s : List Symbol} (h : Writes (.members ms) s) :
      Writes (.value (.object ms)) (some '\x7b' :: s)
  | lastItem {x : Json} {w v w' : List Symbol} (hw : AreBlanks w) (hx : Writes (.value x) v)
      (hw' : AreBlanks w') : Writes (.items [x]) (w ++ (v ++ (w' ++ [some ']'])))
  | item {x : Json} {xs : List Json} {w v w' s : List Symbol} (hw : AreBlanks w)
      (hx : Writes (.value x) v) (hw' : AreBlanks w') (hxs : Writes (.items xs) s) :
      Writes (.items (x :: xs)) (w ++ (v ++ (w' ++ some ',' :: s)))
  | lastMember {k : List Piece} {x : Json} {w name w' w₁ v w₂ : List Symbol} (hw : AreBlanks w)
      (hk : WritesPieces k name) (hw' : AreBlanks w') (hw₁ : AreBlanks w₁)
      (hx : Writes (.value x) v) (hw₂ : AreBlanks w₂) :
      Writes (.members [(k, x)])
        (w ++ some '"' :: (name ++ (w' ++ some ':' :: (w₁ ++ (v ++ (w₂ ++ [some '\x7d']))))))
  | member {k : List Piece} {x : Json} {ms : List (List Piece × Json)}
      {w name w' w₁ v w₂ s : List Symbol} (hw : AreBlanks w) (hk : WritesPieces k name)
      (hw' : AreBlanks w') (hw₁ : AreBlanks w₁) (hx : Writes (.value x) v) (hw₂ : AreBlanks w₂)
      (hms : Writes (.members ms) s) :
      Writes (.members ((k, x) :: ms))
        (w ++ some '"' :: (name ++ (w' ++ some ':' :: (w₁ ++ (v ++ (w₂ ++ some ',' :: s))))))

/-- A text that is written for a document: a value with blanks around it. -/
def IsDocument (j : Json) (s : List Symbol) : Prop :=
  ∃ w v w', AreBlanks w ∧ Writes (.value j) v ∧ AreBlanks w' ∧ s = w ++ (v ++ w')

/-! ## Reading tokens -/

/-- A symbol with which a number goes on. -/
def goesOn : Symbol → Bool
  | some c => c.isDigit || c = '.' || c = 'e' || c = 'E'
  | none => false

/-- Whether a number ends in front of these symbols. -/
def EndsNumber (s : List Symbol) : Prop := ∀ x ∈ s.head?, goesOn x = false

theorem endsNumber_nil : EndsNumber [] := by
  intro x hx
  cases hx

theorem skipBlanks_append {w : List Symbol} (hw : AreBlanks w) (s : List Symbol) :
    skipBlanks (w ++ s) = skipBlanks s :=
  List.dropWhile_append_of_pos hw

theorem exists_blanks (s : List Symbol) : ∃ w, AreBlanks w ∧ s = w ++ skipBlanks s :=
  ⟨s.takeWhile isBlank, fun _ hx => List.mem_takeWhile_imp hx,
    (List.takeWhile_append_dropWhile).symm⟩

theorem endsNumber_append {w s : List Symbol} (hw : AreBlanks w) (hs : EndsNumber s) :
    EndsNumber (w ++ s) := by
  cases w with
  | nil => exact hs
  | cons x w =>
    intro y hy
    obtain rfl : x = y := Option.some.inj hy
    have hblank := hw x List.mem_cons_self
    cases x with
    | none => cases hblank
    | some c =>
      simp only [isBlank, Bool.or_eq_true, decide_eq_true_eq] at hblank
      rcases hblank with ((rfl | rfl) | rfl) | rfl <;> rfl

section digits

theorem spanDigits_append {ds : List Char} (hds : ∀ c ∈ ds, c.isDigit = true) {s : List Symbol}
    (hs : ∀ c ∈ s.head?, isDigit c = false) : spanDigits (ds.map some ++ s) = (ds, s) := by
  induction ds with
  | nil =>
    rcases s with _ | ⟨_ | c, s⟩
    · rfl
    · rfl
    · have hc : c.isDigit = false := hs (some c) rfl
      simp [spanDigits, hc]
  | cons d ds ih =>
    rw [List.forall_mem_cons] at hds
    simp [spanDigits, hds.1, ih hds.2]

theorem eq_of_spanDigits {s r : List Symbol} {ds : List Char} (h : spanDigits s = (ds, r)) :
    s = ds.map some ++ r ∧ ∀ c ∈ ds, c.isDigit = true := by
  induction s generalizing ds with
  | nil =>
    obtain ⟨rfl, rfl⟩ := Prod.mk.inj h
    exact ⟨rfl, nofun⟩
  | cons x s ih =>
    cases x with
    | none =>
      obtain ⟨rfl, rfl⟩ := Prod.mk.inj h
      exact ⟨rfl, nofun⟩
    | some c =>
      rw [spanDigits] at h
      split at h
      · next hc =>
        obtain ⟨rfl, rfl⟩ := Prod.mk.inj h
        obtain ⟨hs, hall⟩ := ih rfl
        exact ⟨congrArg (some c :: ·) hs, List.forall_mem_cons.mpr ⟨hc, hall⟩⟩
      · obtain ⟨rfl, rfl⟩ := Prod.mk.inj h
        exact ⟨rfl, nofun⟩

theorem digits?_append {ds : List Char} (hds : AreDigits ds) {s : List Symbol}
    (hs : ∀ c ∈ s.head?, isDigit c = false) : digits? (ds.map some ++ s) = some (ds, s) := by
  rw [digits?, spanDigits_append hds.2 hs]
  obtain ⟨d, ds, rfl⟩ := List.exists_cons_of_ne_nil hds.1
  rfl

theorem eq_of_digits? {s r : List Symbol} {ds : List Char} (h : digits? s = some (ds, r)) :
    s = ds.map some ++ r ∧ AreDigits ds := by
  rw [digits?] at h
  split at h
  · cases h
  · next hne =>
    obtain ⟨hs, hall⟩ := eq_of_spanDigits (Option.some.inj h)
    refine ⟨hs, ?_, hall⟩
    rintro rfl
    exact hne r (Option.some.inj h)

end digits

section number

theorem EndsNumber.not_digit {s : List Symbol} (h : EndsNumber s) :
    ∀ c ∈ s.head?, isDigit c = false := by
  intro c hc
  have hends := h c hc
  cases c with
  | none => rfl
  | some c =>
    simp only [goesOn, Bool.or_eq_false_iff] at hends
    exact hends.1.1.1

theorem places?_append {ds : List Char} {t s : List Symbol} (h : Number.WritesPlaces ds t)
    (hdigit : ∀ c ∈ s.head?, isDigit c = false) (hpoint : some '.' ∉ s.head?) :
    places? (t ++ s) = some (ds, s) := by
  cases h with
  | none =>
    rw [List.nil_append]
    unfold places?
    split
    · exact absurd rfl hpoint
    · rfl
  | some hds => exact digits?_append hds hdigit

theorem writes_of_places? {s r : List Symbol} {ds : List Char} (h : places? s = some (ds, r)) :
    ∃ t, s = t ++ r ∧ Number.WritesPlaces ds t := by
  unfold places? at h
  split at h
  · obtain ⟨rfl, hds⟩ := eq_of_digits? h
    exact ⟨_, rfl, .some hds⟩
  · cases h
    exact ⟨[], rfl, .none⟩

theorem exponent?_append {e : Option (Bool × List Char)} {t s : List Symbol}
    (h : Number.WritesExponent e t) (hs : EndsNumber s) : exponent? (t ++ s) = some (e, s) := by
  cases h with
  | none =>
    rw [List.nil_append]
    unfold exponent?
    split
    · exact absurd (hs _ rfl) (by decide)
    · exact absurd (hs _ rfl) (by decide)
    · rfl
  | @some mark negative sign ds hmark hsign hds =>
    have hdigits := digits?_append hds hs.not_digit
    rw [List.cons_append, List.append_assoc]
    cases hsign with
    | minus => rcases hmark with rfl | rfl <;> simp [exponent?, hdigits]
    | plus => rcases hmark with rfl | rfl <;> simp [exponent?, hdigits]
    | none =>
      -- A digit in front is none of the signs.
      obtain ⟨d, ds, rfl⟩ := List.exists_cons_of_ne_nil hds.1
      have hd := hds.2 d List.mem_cons_self
      have hminus : d ≠ '-' := by rintro rfl; cases hd
      have hplus : d ≠ '+' := by rintro rfl; cases hd
      rcases hmark with rfl | rfl
      · simpa [exponent?, hminus, hplus] using hdigits
      · simpa [exponent?, hminus, hplus] using hdigits

/-- Behind the mark of an exponent stand a sign and digits. -/
theorem writes_of_exponent?_mark {mark : Char} (hmark : mark = 'e' ∨ mark = 'E')
    {s r : List Symbol} {e : Option (Bool × List Char)}
    (h : exponent? (some mark :: s) = some (e, r)) :
    ∃ t, some mark :: s = t ++ r ∧ Number.WritesExponent e t := by
  have hsign : ∃ negative sign s', Number.WritesSign negative sign ∧ s = sign.map some ++ s' ∧
      (digits? s').map (fun d => (some (negative, d.1), d.2)) = some (e, r) := by
    rcases hmark with rfl | rfl
    all_goals
      simp only [exponent?] at h
      split at h
      · exact ⟨true, _, _, .minus, rfl, h⟩
      · exact ⟨false, _, _, .plus, rfl, h⟩
      · exact ⟨false, _, _, .none, rfl, h⟩
  obtain ⟨negative, sign, s', hsign, rfl, hread⟩ := hsign
  obtain ⟨⟨ds, r'⟩, hdigits, heq⟩ := Option.map_eq_some_iff.mp hread
  obtain ⟨rfl, rfl⟩ := Prod.mk.inj heq
  obtain ⟨rfl, hds⟩ := eq_of_digits? hdigits
  exact ⟨_, by rw [List.cons_append, List.append_assoc], .some hmark hsign hds⟩

theorem writes_of_exponent? {s r : List Symbol} {e : Option (Bool × List Char)}
    (h : exponent? s = some (e, r)) : ∃ t, s = t ++ r ∧ Number.WritesExponent e t := by
  rcases s with _ | ⟨_ | c, s⟩
  · cases h
    exact ⟨[], rfl, .none⟩
  · cases h
    exact ⟨[], rfl, .none⟩
  · by_cases hmark : c = 'e' ∨ c = 'E'
    · exact writes_of_exponent?_mark hmark h
    · rw [not_or] at hmark
      have hnone : exponent? (some c :: s) = some (none, some c :: s) := by
        simp [exponent?, hmark]
      obtain ⟨rfl, rfl⟩ := Prod.mk.inj (Option.some.inj (hnone.symm.trans h))
      exact ⟨[], rfl, .none⟩

theorem wholeDigits?_append {ds : List Char} (hds : AreDigits ds)
    (hzero : ∀ c cs, ds ≠ '0' :: c :: cs) {s : List Symbol}
    (hs : ∀ c ∈ s.head?, isDigit c = false) : wholeDigits? (ds.map some ++ s) = some (ds, s) := by
  rw [wholeDigits?, digits?_append hds hs]
  split
  · next heq => exact absurd (Prod.mk.inj (Option.some.inj heq)).1 (hzero _ _)
  · rfl

theorem eq_of_wholeDigits? {s r : List Symbol} {ds : List Char}
    (h : wholeDigits? s = some (ds, r)) :
    s = ds.map some ++ r ∧ AreDigits ds ∧ ∀ c cs, ds ≠ '0' :: c :: cs := by
  rw [wholeDigits?] at h
  split at h
  · cases h
  · next hne =>
    obtain ⟨hs, hds⟩ := eq_of_digits? h
    refine ⟨hs, hds, ?_⟩
    rintro c cs rfl
    exact hne _ _ _ h

/-- No exponent goes on with a digit or a point, nor does what stands behind a number. -/
theorem head?_exponent_append {e : Option (Bool × List Char)} {t s : List Symbol}
    (h : Number.WritesExponent e t) (hs : EndsNumber s) :
    (∀ c ∈ (t ++ s).head?, isDigit c = false) ∧ some '.' ∉ (t ++ s).head? := by
  cases h with
  | none => exact ⟨hs.not_digit, fun h => absurd (hs _ h) (by decide)⟩
  | some hmark _ _ => rcases hmark with rfl | rfl <;> simp [isDigit]

/-- No places go on with a digit. -/
theorem head?_places_append {ds : List Char} {t s : List Symbol}
    (h : Number.WritesPlaces ds t) (hs : ∀ c ∈ s.head?, isDigit c = false) :
    ∀ c ∈ (t ++ s).head?, isDigit c = false := by
  cases h with
  | none => exact hs
  | some _ => simp [isDigit]

theorem number?_append {n : Number} {t s : List Symbol} (h : n.Writes t) (hs : EndsNumber s) :
    number? (t ++ s) = some (n, s) := by
  obtain ⟨places, exponent, hplaces, hexponent, rfl⟩ := h.parts
  obtain ⟨hdigit, hpoint⟩ := head?_exponent_append hexponent hs
  have hread := wholeDigits?_append h.whole h.no_zero (head?_places_append hplaces hdigit)
  have hbehind := places?_append hplaces hdigit hpoint
  have hend := exponent?_append hexponent hs
  obtain ⟨d, ds, hwhole⟩ := List.exists_cons_of_ne_nil h.whole.1
  have hminus : d ≠ '-' := by
    rintro rfl
    exact absurd (h.whole.2 '-' (hwhole ▸ List.mem_cons_self)) (by decide)
  obtain ⟨negative, whole, fraction, power⟩ := n
  obtain rfl : whole = d :: ds := hwhole
  cases negative <;>
    simp_all [number?, List.append_assoc]

theorem writes_of_number? {s r : List Symbol} {n : Number} (h : number? s = some (n, r)) :
    ∃ t, s = t ++ r ∧ n.Writes t := by
  have hsign : ∃ negative s', s = (if negative then [some '-'] else []) ++ s' ∧
      ((wholeDigits? s').bind fun w => (places? w.2).bind fun p =>
        (exponent? p.2).map fun e => (⟨negative, w.1, p.1, e.1⟩, e.2)) = some (n, r) := by
    simp only [number?] at h
    split at h
    · exact ⟨true, _, rfl, h⟩
    · exact ⟨false, _, rfl, h⟩
  obtain ⟨negative, s', rfl, hread⟩ := hsign
  simp only [Option.bind_eq_some_iff, Option.map_eq_some_iff] at hread
  obtain ⟨⟨whole, s₁⟩, hwhole, ⟨places, s₂⟩, hplaces, ⟨exponent, s₃⟩, hexponent, heq⟩ := hread
  obtain ⟨rfl, rfl⟩ := Prod.mk.inj heq
  obtain ⟨rfl, hds, hzero⟩ := eq_of_wholeDigits? hwhole
  obtain ⟨t₁, rfl, ht₁⟩ := writes_of_places? hplaces
  obtain ⟨t₂, rfl, ht₂⟩ := writes_of_exponent? hexponent
  exact ⟨_, by simp only [List.append_assoc], hds, hzero, t₁, t₂, ht₁, ht₂, rfl⟩

end number

section pieces

theorem ne_u_of_escape? {e c : Char} (h : escape? e = some c) : e ≠ 'u' := by
  rintro rfl
  cases h

theorem pieces?_append {ps : List Piece} {t : List Symbol} (h : WritesPieces ps t)
    (s : List Symbol) : pieces? (t ++ s) = some (ps, s) := by
  induction h with
  | close => simp [pieces?]
  | plain hquote hbackslash hcontrol _ ih =>
    rw [List.cons_append, pieces?_plain _ hquote hbackslash (not_lt.mpr hcontrol), ih]
    rfl
  | stray _ ih =>
    rw [List.cons_append, pieces?, ih]
    rfl
  | escape he _ ih =>
    rw [List.cons_append, List.cons_append, pieces?_escape _ (ne_u_of_escape? he) he, ih]
    rfl
  | unit hn _ ih => simp [pieces?, unit?, hn, ih]

theorem unit?_eq_some {a b c d : Symbol} {n : ℕ} (h : unit? a b c d = some n) :
    ∃ a' b' c' d', [a, b, c, d] = [some a', some b', some c', some d'] ∧
      Text.hexNumber? [a', b', c', d'] = some n := by
  unfold unit? at h
  split at h
  · exact ⟨_, _, _, _, rfl, h⟩
  · cases h

theorem writes_of_pieces? {s r : List Symbol} {ps : List Piece} (h : pieces? s = some (ps, r)) :
    ∃ t, s = t ++ r ∧ WritesPieces ps t := by
  fun_induction pieces? s generalizing ps with
  | case1 => cases h
  | case2 s ih =>
    obtain ⟨⟨ps', r'⟩, hread, heq⟩ := Option.map_eq_some_iff.mp h
    obtain ⟨rfl, rfl⟩ := Prod.mk.inj heq
    obtain ⟨t, rfl, ht⟩ := ih hread
    exact ⟨_, rfl, .stray ht⟩
  | case3 s =>
    cases h
    exact ⟨_, rfl, .close⟩
  | case4 a b c d s ih =>
    obtain ⟨n, hn, h⟩ := Option.bind_eq_some_iff.mp h
    obtain ⟨⟨ps', r'⟩, hread, heq⟩ := Option.map_eq_some_iff.mp h
    obtain ⟨rfl, rfl⟩ := Prod.mk.inj heq
    obtain ⟨t, rfl, ht⟩ := ih hread
    obtain ⟨a', b', c', d', hsymbols, hnumber⟩ := unit?_eq_some hn
    cases hsymbols
    exact ⟨_, rfl, .unit hnumber ht⟩
  | case5 e s _ ih =>
    obtain ⟨c, he, h⟩ := Option.bind_eq_some_iff.mp h
    obtain ⟨⟨ps', r'⟩, hread, heq⟩ := Option.map_eq_some_iff.mp h
    obtain ⟨rfl, rfl⟩ := Prod.mk.inj heq
    obtain ⟨t, rfl, ht⟩ := ih hread
    exact ⟨_, rfl, .escape he ht⟩
  | case6 => cases h
  | case7 => cases h
  | case8 c s hquote hunit hescape hbackslash hcontrol ih =>
    obtain ⟨⟨ps', r'⟩, hread, heq⟩ := Option.map_eq_some_iff.mp h
    obtain ⟨rfl, rfl⟩ := Prod.mk.inj heq
    obtain ⟨t, rfl, ht⟩ := ih hread
    exact ⟨_, rfl, .plain hquote hbackslash (not_lt.mp hcontrol) ht⟩

end pieces

theorem eq_of_word? {w : List Char} {s r : List Symbol} (h : word? w s = some r) :
    s = w.map some ++ r := by
  unfold word? at h
  split at h
  · next htake =>
    rw [← Option.some.inj h, ← htake, List.take_append_drop]
  · cases h

/-! ## Reading values -/

theorem skipBlanks_skipBlanks (s : List Symbol) : skipBlanks (skipBlanks s) = skipBlanks s := by
  obtain ⟨w, hw, hs⟩ := exists_blanks s
  conv_rhs => rw [hs, skipBlanks_append hw]

section blanks

variable (fuel : ℕ) (s : List Symbol)

theorem value?_skipBlanks : value? fuel (skipBlanks s) = value? fuel s := by
  cases fuel with
  | zero => rfl
  | succ fuel => rw [value?, value?, skipBlanks_skipBlanks]

theorem items?_skipBlanks : items? fuel (skipBlanks s) = items? fuel s := by
  cases fuel with
  | zero => rfl
  | succ fuel => rw [items?, items?, value?_skipBlanks]

theorem members?_skipBlanks : members? fuel (skipBlanks s) = members? fuel s := by
  cases fuel with
  | zero => rfl
  | succ fuel => rw [members?, members?, skipBlanks_skipBlanks]

theorem value?_blanks {w : List Symbol} (hw : AreBlanks w) :
    value? fuel (w ++ s) = value? fuel s := by
  rw [← value?_skipBlanks, skipBlanks_append hw, value?_skipBlanks]

end blanks

/-- The characters that a value may begin with. -/
def isOpening (c : Char) : Bool :=
  c.isDigit || c ∈ ['-', '"', '[', '\x7b', 'n', 't', 'f']

/-- A number begins with a digit or a sign. -/
theorem Number.Writes.head {n : Number} {t : List Symbol} (h : n.Writes t) :
    ∃ c t', t = some c :: t' ∧ (c.isDigit = true ∨ c = '-') := by
  obtain ⟨places, exponent, -, -, rfl⟩ := h.parts
  obtain ⟨d, ds, hwhole⟩ := List.exists_cons_of_ne_nil h.whole.1
  cases n.negative with
  | true => exact ⟨_, _, rfl, .inr rfl⟩
  | false =>
    rw [hwhole]
    exact ⟨d, _, rfl, .inl (h.whole.2 d (hwhole ▸ List.mem_cons_self))⟩

theorem Writes.head {j : Json} {t : List Symbol} (h : Writes (.value j) t) :
    ∃ c t', t = some c :: t' ∧ isOpening c = true := by
  cases h with
  | number h =>
    obtain ⟨c, t', rfl, hc⟩ := h.head
    exact ⟨c, t', rfl, by rcases hc with hc | rfl <;> simp [isOpening, *]⟩
  | _ => exact ⟨_, _, rfl, rfl⟩

/-- What begins a value is no blank. -/
theorem not_blank_of_isOpening {c : Char} (h : isOpening c = true) : isBlank (some c) = false := by
  by_contra hblank
  simp only [isBlank, Bool.not_eq_false, Bool.or_eq_true, decide_eq_true_eq] at hblank
  rcases hblank with ((rfl | rfl) | rfl) | rfl <;> simp [isOpening] at h

theorem ne_of_isOpening {c d : Char} (h : isOpening c = true) (hd : isOpening d = false) :
    c ≠ d := by
  rintro rfl
  exact Bool.noConfusion (h.symm.trans hd)

section value

variable (fuel : ℕ) {s : List Symbol}

theorem value?_number {c : Char} (hc : c.isDigit = true ∨ c = '-') :
    value? (fuel + 1) (some c :: s) =
      (number? (some c :: s)).map fun (n, r) => (.number n, r) := by
  have hblank : isBlank (some c) = false := not_blank_of_isOpening (by
    rcases hc with hc | rfl <;> simp [isOpening, *])
  rw [value?, skipBlanks_of_not_blank hblank]
  rcases hc with hc | rfl
  · -- A digit is none of the other characters that a value may begin with.
    split
    case h_7 => rfl
    all_goals next heq =>
      obtain rfl := Option.some.inj (List.cons.inj heq).1
      cases hc
  · rfl

theorem value?_array {c : Char} {r : List Symbol} (hs : skipBlanks s = some c :: r)
    (hc : c ≠ ']') :
    value? (fuel + 1) (some '[' :: s) = (items? fuel s).map fun (xs, r) => (.array xs, r) := by
  rw [value?, ← items?_skipBlanks fuel s, hs, skipBlanks_of_not_blank rfl]
  simp [hs, hc]

theorem value?_object_of_ne {c : Char} {r : List Symbol} (hs : skipBlanks s = some c :: r)
    (hc : c ≠ '\x7d') :
    value? (fuel + 1) (some '\x7b' :: s) =
      (members? fuel s).map fun (ms, r) => (.object ms, r) := by
  rw [value?, ← members?_skipBlanks fuel s, hs, skipBlanks_of_not_blank rfl]
  simp [hs, hc]

end value

/-! ## Every document is read -/

/-- Wherever the text stands, the reader takes it for this phrase, if its fuel exceeds the
    length. -/
def Phrase.IsReadFrom : Phrase → List Symbol → Prop
  | .value j, t => ∀ fuel s, t.length < fuel → EndsNumber s → value? fuel (t ++ s) = some (j, s)
  | .items xs, t => ∀ fuel s, t.length < fuel → items? fuel (t ++ s) = some (xs, s)
  | .members ms, t => ∀ fuel s, t.length < fuel → members? fuel (t ++ s) = some (ms, s)

/-- Behind blanks, the items of an array do not begin with its end. -/
theorem Writes.head_items {xs : List Json} {t : List Symbol} (h : Writes (.items xs) t)
    (s : List Symbol) : ∃ c r, skipBlanks (t ++ s) = some c :: r ∧ c ≠ ']' := by
  have hhead {w v r : List Symbol} {x : Json} (hw : AreBlanks w) (hx : Writes (.value x) v) :
      ∃ c r', skipBlanks (w ++ (v ++ r)) = some c :: r' ∧ c ≠ ']' := by
    obtain ⟨c, v', rfl, hc⟩ := hx.head
    exact ⟨c, v' ++ r, by
      rw [skipBlanks_append hw, List.cons_append,
        skipBlanks_of_not_blank (not_blank_of_isOpening hc)], ne_of_isOpening hc rfl⟩
  cases h with
  | lastItem hw hx _ =>
    simp only [List.append_assoc]
    exact hhead hw hx
  | item hw hx _ _ =>
    simp only [List.append_assoc]
    exact hhead hw hx

/-- Behind blanks, the members of an object begin with a quote. -/
theorem Writes.head_members {ms : List (List Piece × Json)} {t : List Symbol}
    (h : Writes (.members ms) t) (s : List Symbol) :
    ∃ r, skipBlanks (t ++ s) = some '"' :: r := by
  cases h with
  | lastMember hw _ _ _ _ _ =>
    rw [List.append_assoc, skipBlanks_append hw]
    exact ⟨_, rfl⟩
  | member hw _ _ _ _ _ _ =>
    rw [List.append_assoc, skipBlanks_append hw]
    exact ⟨_, rfl⟩

section behind

variable {w : List Symbol} (hw : AreBlanks w) (s : List Symbol)

include hw

theorem endsNumber_blanks_cons {c : Char} (hc : goesOn (some c) = false) :
    EndsNumber (w ++ some c :: s) :=
  endsNumber_append hw (by rintro x hx; cases hx; exact hc)

theorem skipBlanks_blanks_cons {c : Char} (hc : isBlank (some c) = false) :
    skipBlanks (w ++ some c :: s) = some c :: s := by
  rw [skipBlanks_append hw, skipBlanks_of_not_blank hc]

end behind

theorem Writes.isReadFrom {p : Phrase} {t : List Symbol} (h : Writes p t) : p.IsReadFrom t := by
  induction h with
  | null =>
    intro fuel s hfuel _
    obtain ⟨fuel, rfl⟩ := Nat.exists_eq_succ_of_ne_zero (Nat.ne_zero_of_lt hfuel)
    rfl
  | trueWord =>
    intro fuel s hfuel _
    obtain ⟨fuel, rfl⟩ := Nat.exists_eq_succ_of_ne_zero (Nat.ne_zero_of_lt hfuel)
    rfl
  | falseWord =>
    intro fuel s hfuel _
    obtain ⟨fuel, rfl⟩ := Nat.exists_eq_succ_of_ne_zero (Nat.ne_zero_of_lt hfuel)
    rfl
  | number h =>
    intro fuel s hfuel hs
    obtain ⟨fuel, rfl⟩ := Nat.exists_eq_succ_of_ne_zero (Nat.ne_zero_of_lt hfuel)
    have hread := number?_append h hs
    obtain ⟨c, t', rfl, hc⟩ := h.head
    rw [List.cons_append] at hread ⊢
    rw [value?_number fuel hc, hread]
    rfl
  | text h =>
    intro fuel s hfuel _
    obtain ⟨fuel, rfl⟩ := Nat.exists_eq_succ_of_ne_zero (Nat.ne_zero_of_lt hfuel)
    have hread := pieces?_append h s
    rw [List.cons_append, value?, skipBlanks_of_not_blank rfl]
    simp only [hread, Option.map_some]
  | emptyArray hw =>
    intro fuel s hfuel _
    obtain ⟨fuel, rfl⟩ := Nat.exists_eq_succ_of_ne_zero (Nat.ne_zero_of_lt hfuel)
    rw [List.cons_append, List.append_assoc, value?, skipBlanks_of_not_blank rfl]
    simp only [List.singleton_append, skipBlanks_blanks_cons hw s (c := ']') rfl]
  | array h ih =>
    intro fuel s hfuel _
    obtain ⟨fuel, rfl⟩ := Nat.exists_eq_succ_of_ne_zero (Nat.ne_zero_of_lt hfuel)
    obtain ⟨c, r, hhead, hc⟩ := h.head_items s
    rw [List.cons_append, value?_array fuel hhead hc, ih fuel s (Nat.lt_of_succ_lt_succ hfuel)]
    rfl
  | emptyObject hw =>
    intro fuel s hfuel _
    obtain ⟨fuel, rfl⟩ := Nat.exists_eq_succ_of_ne_zero (Nat.ne_zero_of_lt hfuel)
    rw [List.cons_append, List.append_assoc, value?, skipBlanks_of_not_blank rfl]
    simp only [List.singleton_append, skipBlanks_blanks_cons hw s (c := '\x7d') rfl]
  | object h ih =>
    intro fuel s hfuel _
    obtain ⟨fuel, rfl⟩ := Nat.exists_eq_succ_of_ne_zero (Nat.ne_zero_of_lt hfuel)
    obtain ⟨r, hhead⟩ := h.head_members s
    rw [List.cons_append, value?_object_of_ne fuel hhead (by decide),
      ih fuel s (Nat.lt_of_succ_lt_succ hfuel)]
    rfl
  | @lastItem x w v w' hw _ hw' ih =>
    intro fuel s hfuel
    obtain ⟨fuel, rfl⟩ := Nat.exists_eq_succ_of_ne_zero (Nat.ne_zero_of_lt hfuel)
    simp only [List.length_append, List.length_singleton] at hfuel
    have hread := ih fuel (w' ++ some ']' :: s) (by omega) (endsNumber_blanks_cons hw' s rfl)
    simp only [List.append_assoc, items?, value?_blanks _ _ hw, List.singleton_append, hread,
      Option.bind_some, skipBlanks_blanks_cons hw' s (c := ']') rfl]
  | @item x xs w v w' t hw _ hw' _ ihx ihxs =>
    intro fuel s hfuel
    obtain ⟨fuel, rfl⟩ := Nat.exists_eq_succ_of_ne_zero (Nat.ne_zero_of_lt hfuel)
    simp only [List.length_append, List.length_cons] at hfuel
    have hread := ihx fuel (w' ++ some ',' :: (t ++ s)) (by omega)
      (endsNumber_blanks_cons hw' _ rfl)
    simp only [List.append_assoc, items?, value?_blanks _ _ hw, List.cons_append, hread,
      Option.bind_some, skipBlanks_blanks_cons hw' _ (c := ',') rfl, ihxs fuel s (by omega),
      Option.map_some]
  | @lastMember k x w name w' w₁ v w₂ hw hk hw' hw₁ _ hw₂ ih =>
    intro fuel s hfuel
    obtain ⟨fuel, rfl⟩ := Nat.exists_eq_succ_of_ne_zero (Nat.ne_zero_of_lt hfuel)
    simp only [List.length_append, List.length_cons] at hfuel
    have hread := ih fuel (w₂ ++ some '\x7d' :: s) (by omega) (endsNumber_blanks_cons hw₂ s rfl)
    simp only [List.append_assoc, List.cons_append, members?,
      skipBlanks_blanks_cons hw _ (c := '"') rfl, pieces?_append hk, Option.bind_some,
      skipBlanks_blanks_cons hw' _ (c := ':') rfl, value?_blanks _ _ hw₁, List.nil_append, hread,
      skipBlanks_blanks_cons hw₂ s (c := '\x7d') rfl]
  | @member k x ms w name w' w₁ v w₂ t hw hk hw' hw₁ _ hw₂ _ ihx ihms =>
    intro fuel s hfuel
    obtain ⟨fuel, rfl⟩ := Nat.exists_eq_succ_of_ne_zero (Nat.ne_zero_of_lt hfuel)
    simp only [List.length_append, List.length_cons] at hfuel
    have hread := ihx fuel (w₂ ++ some ',' :: (t ++ s)) (by omega)
      (endsNumber_blanks_cons hw₂ _ rfl)
    simp only [List.append_assoc, List.cons_append, members?,
      skipBlanks_blanks_cons hw _ (c := '"') rfl, pieces?_append hk, Option.bind_some,
      skipBlanks_blanks_cons hw' _ (c := ':') rfl, value?_blanks _ _ hw₁, hread,
      skipBlanks_blanks_cons hw₂ _ (c := ',') rfl, ihms fuel s (by omega), Option.map_some]

/-! ## Nothing else is read -/

/-- What is read with so much fuel is written there, a value behind blanks. -/
structure ReadsOnly (fuel : ℕ) : Prop where
  value {s : List Symbol} {j : Json} {r : List Symbol} (h : value? fuel s = some (j, r)) :
    ∃ w t, AreBlanks w ∧ Writes (.value j) t ∧ s = w ++ (t ++ r)
  items {s : List Symbol} {xs : List Json} {r : List Symbol} (h : items? fuel s = some (xs, r)) :
    ∃ t, Writes (.items xs) t ∧ s = t ++ r
  members {s : List Symbol} {ms : List (List Piece × Json)} {r : List Symbol}
    (h : members? fuel s = some (ms, r)) : ∃ t, Writes (.members ms) t ∧ s = t ++ r

section step

variable {fuel : ℕ} {s r : List Symbol}

theorem ReadsOnly.array (ih : ReadsOnly fuel) {j : Json}
    (h : value? (fuel + 1) (some '[' :: s) = some (j, r)) :
    ∃ t, Writes (.value j) t ∧ some '[' :: s = t ++ r := by
  obtain ⟨w, hw, hs⟩ := exists_blanks s
  rw [value?, skipBlanks_of_not_blank rfl] at h
  simp only at h
  split at h
  · next hend =>
    obtain ⟨rfl, rfl⟩ := Prod.mk.inj (Option.some.inj h)
    exact ⟨_, .emptyArray hw, by rw [hs, hend, List.cons_append, List.append_assoc]; rfl⟩
  · obtain ⟨⟨xs, r'⟩, hread, hj⟩ := Option.map_eq_some_iff.mp h
    obtain ⟨rfl, rfl⟩ := Prod.mk.inj hj
    obtain ⟨t, ht, rfl⟩ := ih.items ((items?_skipBlanks fuel s).symm.trans hread)
    exact ⟨_, .array ht, rfl⟩

theorem ReadsOnly.object (ih : ReadsOnly fuel) {j : Json}
    (h : value? (fuel + 1) (some '\x7b' :: s) = some (j, r)) :
    ∃ t, Writes (.value j) t ∧ some '\x7b' :: s = t ++ r := by
  obtain ⟨w, hw, hs⟩ := exists_blanks s
  rw [value?, skipBlanks_of_not_blank rfl] at h
  simp only at h
  split at h
  · next hend =>
    obtain ⟨rfl, rfl⟩ := Prod.mk.inj (Option.some.inj h)
    exact ⟨_, .emptyObject hw, by rw [hs, hend, List.cons_append, List.append_assoc]; rfl⟩
  · obtain ⟨⟨ms, r'⟩, hread, hj⟩ := Option.map_eq_some_iff.mp h
    obtain ⟨rfl, rfl⟩ := Prod.mk.inj hj
    obtain ⟨t, ht, rfl⟩ := ih.members ((members?_skipBlanks fuel s).symm.trans hread)
    exact ⟨_, .object ht, rfl⟩

theorem ReadsOnly.value_succ (ih : ReadsOnly fuel) {j : Json}
    (h : value? (fuel + 1) s = some (j, r)) :
    ∃ w t, AreBlanks w ∧ Writes (.value j) t ∧ s = w ++ (t ++ r) := by
  obtain ⟨w, hw, hs⟩ := exists_blanks s
  suffices hvalue : ∃ t, Writes (.value j) t ∧ skipBlanks s = t ++ r by
    obtain ⟨t, ht, heq⟩ := hvalue
    exact ⟨w, t, hw, ht, by rw [← heq, ← hs]⟩
  have hskipped := (value?_skipBlanks (fuel + 1) s).trans h
  rw [value?] at h
  split at h
  · next heq =>
    obtain ⟨⟨ps, r'⟩, hread, hj⟩ := Option.map_eq_some_iff.mp h
    obtain ⟨rfl, rfl⟩ := Prod.mk.inj hj
    obtain ⟨t, rfl, ht⟩ := writes_of_pieces? hread
    exact ⟨_, .text ht, heq⟩
  · next heq =>
    rw [heq] at hskipped ⊢
    exact ih.array hskipped
  · next heq =>
    rw [heq] at hskipped ⊢
    exact ih.object hskipped
  · next heq =>
    obtain ⟨r', hread, hj⟩ := Option.map_eq_some_iff.mp h
    obtain ⟨rfl, rfl⟩ := Prod.mk.inj hj
    rw [heq, eq_of_word? hread]
    exact ⟨_, .null, rfl⟩
  · next heq =>
    obtain ⟨r', hread, hj⟩ := Option.map_eq_some_iff.mp h
    obtain ⟨rfl, rfl⟩ := Prod.mk.inj hj
    rw [heq, eq_of_word? hread]
    exact ⟨_, .trueWord, rfl⟩
  · next heq =>
    obtain ⟨r', hread, hj⟩ := Option.map_eq_some_iff.mp h
    obtain ⟨rfl, rfl⟩ := Prod.mk.inj hj
    rw [heq, eq_of_word? hread]
    exact ⟨_, .falseWord, rfl⟩
  · obtain ⟨⟨n, r'⟩, hread, hj⟩ := Option.map_eq_some_iff.mp h
    obtain ⟨rfl, rfl⟩ := Prod.mk.inj hj
    obtain ⟨t, heq, ht⟩ := writes_of_number? hread
    exact ⟨_, .number ht, heq⟩

theorem ReadsOnly.items_succ (ih : ReadsOnly fuel) {xs : List Json}
    (h : items? (fuel + 1) s = some (xs, r)) : ∃ t, Writes (.items xs) t ∧ s = t ++ r := by
  rw [items?] at h
  obtain ⟨⟨x, s'⟩, hvalue, hrest⟩ := Option.bind_eq_some_iff.mp h
  obtain ⟨w, v, hw, hv, rfl⟩ := ih.value hvalue
  obtain ⟨w', hw', hs'⟩ := exists_blanks s'
  simp only at hrest
  split at hrest
  · next heq =>
    obtain ⟨⟨xs', r'⟩, hread, hxs⟩ := Option.map_eq_some_iff.mp hrest
    obtain ⟨rfl, rfl⟩ := Prod.mk.inj hxs
    obtain ⟨t, ht, rfl⟩ := ih.items hread
    exact ⟨_, .item hw hv hw' ht, by
      rw [hs', heq]; simp only [List.append_assoc, List.cons_append]⟩
  · next heq =>
    obtain ⟨rfl, rfl⟩ := Prod.mk.inj (Option.some.inj hrest)
    exact ⟨_, .lastItem hw hv hw', by
      rw [hs', heq]; simp only [List.append_assoc, List.cons_append, List.nil_append]⟩
  · cases hrest

theorem ReadsOnly.members_succ (ih : ReadsOnly fuel) {ms : List (List Piece × Json)}
    (h : members? (fuel + 1) s = some (ms, r)) : ∃ t, Writes (.members ms) t ∧ s = t ++ r := by
  obtain ⟨w, hw, hs⟩ := exists_blanks s
  rw [members?] at h
  split at h
  · next hquote =>
    obtain ⟨⟨k, s₁⟩, hname, hbehind⟩ := Option.bind_eq_some_iff.mp h
    obtain ⟨name, rfl, hk⟩ := writes_of_pieces? hname
    obtain ⟨w₁, hw₁, hs₁⟩ := exists_blanks s₁
    simp only at hbehind
    split at hbehind
    · next hcolon =>
      obtain ⟨⟨x, s₂⟩, hvalue, hrest⟩ := Option.bind_eq_some_iff.mp hbehind
      obtain ⟨w₂, v, hw₂, hv, rfl⟩ := ih.value hvalue
      obtain ⟨w₃, hw₃, hs₃⟩ := exists_blanks s₂
      simp only at hrest
      split at hrest
      · next heq =>
        obtain ⟨⟨ms', r'⟩, hread, hms⟩ := Option.map_eq_some_iff.mp hrest
        obtain ⟨rfl, rfl⟩ := Prod.mk.inj hms
        obtain ⟨t, ht, rfl⟩ := ih.members hread
        exact ⟨_, .member hw hk hw₁ hw₂ hv hw₃ ht, by
          rw [hs, hquote, hs₁, hcolon, hs₃, heq]
          simp only [List.append_assoc, List.cons_append]⟩
      · next heq =>
        obtain ⟨rfl, rfl⟩ := Prod.mk.inj (Option.some.inj hrest)
        exact ⟨_, .lastMember hw hk hw₁ hw₂ hv hw₃, by
          rw [hs, hquote, hs₁, hcolon, hs₃, heq]
          simp only [List.append_assoc, List.cons_append, List.nil_append]⟩
      · cases hrest
    · cases hbehind
  · cases h

end step

theorem readsOnly (fuel : ℕ) : ReadsOnly fuel := by
  induction fuel with
  | zero => exact ⟨nofun, nofun, nofun⟩
  | succ fuel ih => exact ⟨ih.value_succ, ih.items_succ, ih.members_succ⟩

/-- The reader reads the documents of the grammar, each as what it is written for. -/
theorem ofSymbols?_eq_some_iff {s : List Symbol} {j : Json} :
    ofSymbols? s = some j ↔ IsDocument j s := by
  unfold ofSymbols?
  constructor
  · intro h
    split at h
    · next x r hread =>
      split at h
      · next hend =>
        obtain ⟨w, v, hw, hv, hs⟩ := (readsOnly _).value hread
        obtain ⟨w', hw', hr⟩ := exists_blanks r
        rw [List.isEmpty_iff.mp hend, List.append_nil] at hr
        exact ⟨w, v, r, hw, Option.some.inj h ▸ hv, hr ▸ hw', hs⟩
      · cases h
    · cases h
  · rintro ⟨w, v, w', hw, hv, hw', rfl⟩
    have hend : skipBlanks w' = [] := by
      simpa [skipBlanks] using skipBlanks_append hw' []
    have hfuel : v.length < 2 * (w ++ (v ++ w')).length + 2 := by
      simp only [List.length_append]
      omega
    have hnumber : EndsNumber w' := by
      simpa using endsNumber_append hw' endsNumber_nil
    rw [value?_blanks _ _ hw, hv.isReadFrom _ w' hfuel hnumber]
    simp [hend]

end Json

end LoyaltyPoints
