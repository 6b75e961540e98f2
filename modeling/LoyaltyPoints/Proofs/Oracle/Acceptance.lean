import Mathlib
import LoyaltyPoints.Oracle.Codec
import LoyaltyPoints.Proofs.Json.Grammar

/-! # Oracle: which objects are answers

    An answer of the oracle may come as an object with its members in any order, with blanks
    anywhere, and with members that nobody asked for. The main statement says which of these objects
    are read, and as what: there has to be one order and one status, and at most one amount, each of
    a form that says something, and nothing else matters (`objects_read`).

    The name of every member is read, also of those that are passed over. So an object is refused if
    one of its names stands for no text: that is a name with an escaped half of a pair
    (`refused_for_half_a_pair`). -/

namespace LoyaltyPoints

namespace Json

/-! ## Members of a name -/

/-- The values that an object has under this name, in order. -/
def valuesOf (name : String) (ms : List (List Piece × Json)) : List Json :=
  (ms.filter fun m => Piece.text? m.1 == some name).map (·.2)

/-- Whether all names stand for texts. -/
def Named (ms : List (List Piece × Json)) : Prop := ∀ m ∈ ms, ∃ t, Piece.text? m.1 = some t

/-- The value of a field that is not given twice, if it is given. -/
def atMostOne? : List Json → Option (Option Json)
  | [] => some none
  | [x] => some (some x)
  | _ => none

@[simp] theorem atMostOne?_eq_none_iff {xs : List Json} :
    atMostOne? xs = some none ↔ xs = [] := by
  rcases xs with _ | ⟨x, _ | ⟨y, xs⟩⟩ <;> simp [atMostOne?]

@[simp] theorem atMostOne?_eq_some_iff {xs : List Json} {j : Json} :
    atMostOne? xs = some (some j) ↔ xs = [j] := by
  rcases xs with _ | ⟨x, _ | ⟨y, xs⟩⟩ <;> simp [atMostOne?]

theorem asText?_eq_some_iff {j : Json} {t : String} :
    j.asText? = some t ↔ ∃ ps, j = .text ps ∧ Piece.text? ps = some t := by
  cases j <;> simp [asText?]

theorem exists_of_mapM_eq_some {α β : Type} {f : α → Option β} {xs : List α} {ys : List β}
    (h : xs.mapM f = some ys) : ∀ x ∈ xs, ∃ y, f x = some y := by
  induction xs generalizing ys with
  | nil => exact nofun
  | cons x xs ih =>
    rw [List.mapM_cons] at h
    obtain ⟨y, hy, h⟩ := Option.bind_eq_some_iff.mp h
    obtain ⟨ys', hys, -⟩ := Option.bind_eq_some_iff.mp h
    intro z hz
    rcases List.mem_cons.mp hz with rfl | hz
    · exact ⟨y, hy⟩
    · exact ih hys z hz

/-- The values of a name are those that are found once the names have been read. -/
theorem filter_named {ms : List (List Piece × Json)} {f : List Piece → String}
    (hf : ∀ m ∈ ms, Piece.text? m.1 = some (f m.1)) (name : String) :
    ((ms.map fun m => (f m.1, m.2)).filter (·.1 == name)).map (·.2) = valuesOf name ms := by
  unfold valuesOf
  rw [List.filter_map, List.map_map]
  congr 1
  apply List.filter_congr
  intro m hm
  simp [hf m hm]

/-- A record is read from an object if the names stand for texts, and no field is given twice. -/
theorem fields?_object {ms : List (List Piece × Json)} (hnamed : Named ms)
    (names : List String) :
    fields? names (.object ms) = names.mapM fun name => atMostOne? (valuesOf name ms) := by
  -- Every name is read as the text it stands for.
  have hf : ∀ m ∈ ms, Piece.text? m.1 = some ((Piece.text? m.1).getD "") := by
    intro m hm
    obtain ⟨t, ht⟩ := hnamed m hm
    rw [ht, Option.getD_some]
  have hread : ms.mapM (fun m => (Piece.text? m.1).map (·, m.2)) =
      some (ms.map fun m => ((Piece.text? m.1).getD "", m.2)) := by
    apply mapM_eq_some_map
    intro m hm
    rw [hf m hm]
    rfl
  rw [fields?]
  refine (congrArg (· >>= _) hread).trans ?_
  show names.mapM _ = _
  congr 1
  funext name
  rw [← filter_named (f := fun ps => (Piece.text? ps).getD "") hf name]
  generalize (ms.map fun m => ((Piece.text? m.1).getD "", m.2)).filter (·.1 == name) = found
  rcases found with _ | ⟨_, _ | _⟩
  · rfl
  · rfl
  · rfl

theorem named_of_fields? {ms : List (List Piece × Json)} {names : List String}
    {xs : List (Option Json)} (h : fields? names (.object ms) = some xs) : Named ms := by
  intro m hm
  obtain ⟨ms', hread, -⟩ := Option.bind_eq_some_iff.mp h
  obtain ⟨⟨t, x⟩, ht⟩ := exists_of_mapM_eq_some hread m hm
  obtain ⟨t', ht', -⟩ := Option.map_eq_some_iff.mp ht
  exact ⟨t', ht'⟩

end Json

namespace Oracle

open Json (Piece valuesOf Named atMostOne?)

/-! ## What the values of an answer say -/

/-- A status is a name, or an object whose one member of that name is null. -/
inductive NamesStatus : Json → String → Prop where
  | text {ps : List Piece} {name : String} (h : Piece.text? ps = some name) :
      NamesStatus (.text ps) name
  | case {ps : List Piece} {name : String} (h : Piece.text? ps = some name) :
      NamesStatus (.object [(ps, .null)]) name

/-- An amount is missing or null, or a number or a text that reads as a decimal. -/
inductive SaysAccrual : List Json → Option Decimal → Prop where
  | missing : SaysAccrual [] none
  | null : SaysAccrual [.null] none
  | number {n : Json.Number} {d : Decimal} (h : n.toDecimal? = some d) :
      SaysAccrual [.number n] (some d)
  | text {ps : List Piece} {t : String} {d : Decimal} (ht : Piece.text? ps = some t)
      (hd : Decimal.ofAnyText? t = some d) : SaysAccrual [.text ps] (some d)

/-- The status of a name: each one for exactly its spelling, and no other name for any of them. -/
structure Status.IsOf (name : String) (status : Status) : Prop where
  registered : status = .registered ↔ name = "REGISTERED"
  processing : status = .processing ↔ name = "PROCESSING"
  invalid : status = .invalid ↔ name = "INVALID"
  processed : status = .processed ↔ name = "PROCESSED"
  unknown : status = .unknown ↔
    name ≠ "REGISTERED" ∧ name ≠ "PROCESSING" ∧ name ≠ "INVALID" ∧ name ≠ "PROCESSED"

theorem Status.isOf_ofText (name : String) : Status.IsOf name (Status.ofText name) := by
  by_cases hregistered : name = "REGISTERED"
  · subst hregistered
    constructor <;> decide
  by_cases hprocessing : name = "PROCESSING"
  · subst hprocessing
    constructor <;> decide
  by_cases hinvalid : name = "INVALID"
  · subst hinvalid
    constructor <;> decide
  by_cases hprocessed : name = "PROCESSED"
  · subst hprocessed
    constructor <;> decide
  have hunknown : Status.ofText name = .unknown := by
    simp [Status.ofText, Status.named, Status.toText, Ne.symm, *]
  rw [hunknown]
  constructor <;> simp [*]

theorem Status.IsOf.eq {name : String} {status : Status} (h : Status.IsOf name status) :
    status = Status.ofText name := by
  have hof := Status.isOf_ofText name
  cases status with
  | registered => exact (hof.registered.mpr (h.registered.mp rfl)).symm
  | processing => exact (hof.processing.mpr (h.processing.mp rfl)).symm
  | invalid => exact (hof.invalid.mpr (h.invalid.mp rfl)).symm
  | processed => exact (hof.processed.mpr (h.processed.mp rfl)).symm
  | unknown => exact (hof.unknown.mpr (h.unknown.mp rfl)).symm

theorem caseName?_eq_some_iff {j : Json} {name : String} :
    j.caseName? = some name ↔ NamesStatus j name := by
  constructor
  · intro h
    unfold Json.caseName? at h
    split at h
    · exact .text h
    · exact .case h
    · cases h
  · intro h
    cases h with
    | text h => exact h
    | case h => exact h

theorem accrualOfJson?_eq_some_iff {j : Json} {x : Option Decimal} :
    accrualOfJson? j = some x ↔ SaysAccrual [j] x := by
  constructor
  · intro h
    unfold accrualOfJson? at h
    split at h
    · obtain rfl := Option.some.inj h
      exact .null
    · obtain ⟨d, hd, rfl⟩ := Option.map_eq_some_iff.mp h
      unfold Json.asDecimal? at hd
      split at hd
      · exact .number hd
      · obtain ⟨t, ht, hd⟩ := Option.bind_eq_some_iff.mp hd
        exact .text ht hd
      · cases hd
  · intro h
    cases h with
    | null => rfl
    | number h => exact congrArg (Option.map some) h
    | @text ps t d ht hd =>
      have hread : ((Piece.text? ps).bind Decimal.ofAnyText?).map some = some (some d) := by
        rw [ht, Option.bind_some, hd, Option.map_some]
      exact hread

theorem SaysAccrual.eq_of_perm {values values' : List Json} {x : Option Decimal}
    (h : SaysAccrual values x) (hperm : values'.Perm values) : values' = values := by
  cases h with
  | missing => exact List.perm_nil.mp hperm
  | _ => exact List.perm_singleton.mp hperm

namespace Answer

/-- What an object says of an order, if it says it once. -/
structure IsSaidBy (ms : List (List Piece × Json)) (a : Answer) : Prop where
  named : Named ms
  order : ∃ ps, valuesOf "order" ms = [.text ps] ∧ Piece.text? ps = some a.order
  status : ∃ j name, valuesOf "status" ms = [j] ∧ NamesStatus j name ∧ Status.IsOf name a.status
  accrual : SaysAccrual (valuesOf "accrual" ms) a.accrual

/-- The objects that are read. -/
structure Acceptable (ms : List (List Piece × Json)) : Prop where
  named : Named ms
  order : ∃ ps t, valuesOf "order" ms = [.text ps] ∧ Piece.text? ps = some t
  status : ∃ j name, valuesOf "status" ms = [j] ∧ NamesStatus j name
  accrual : ∃ x, SaysAccrual (valuesOf "accrual" ms) x

theorem Acceptable.exists_isSaidBy {ms : List (List Piece × Json)} (h : Acceptable ms) :
    ∃ a, IsSaidBy ms a := by
  obtain ⟨ps, t, horder, ht⟩ := h.order
  obtain ⟨j, name, hstatus, hname⟩ := h.status
  obtain ⟨x, haccrual⟩ := h.accrual
  exact ⟨⟨t, Status.ofText name, x⟩, h.named, ⟨ps, horder, ht⟩,
    ⟨j, name, hstatus, hname, Status.isOf_ofText name⟩, haccrual⟩

theorem IsSaidBy.acceptable {ms : List (List Piece × Json)} {a : Answer} (h : IsSaidBy ms a) :
    Acceptable ms := by
  obtain ⟨ps, horder, ht⟩ := h.order
  obtain ⟨j, name, hstatus, hname, -⟩ := h.status
  exact ⟨h.named, ⟨ps, a.order, horder, ht⟩, ⟨j, name, hstatus, hname⟩, a.accrual, h.accrual⟩

theorem fields?_eq_some_iff {ms : List (List Piece × Json)} (hnamed : Named ms)
    {order status accrual : Option Json} :
    Json.fields? fieldNames (.object ms) = some [order, status, accrual] ↔
      atMostOne? (valuesOf "order" ms) = some order ∧
      atMostOne? (valuesOf "status" ms) = some status ∧
      atMostOne? (valuesOf "accrual" ms) = some accrual := by
  rw [Json.fields?_object hnamed, fieldNames]
  simp only [List.mapM_cons, List.mapM_nil, Option.bind_eq_bind, Option.pure_def,
    Option.bind_some, Option.bind_eq_some_iff, Option.some.injEq, List.cons.injEq]
  constructor
  · rintro ⟨_, horder, _, ⟨_, hstatus, _, ⟨_, haccrual, rfl⟩, rfl⟩, rfl, rfl, rfl, -⟩
    exact ⟨horder, hstatus, haccrual⟩
  · intro ⟨horder, hstatus, haccrual⟩
    exact ⟨order, horder, _, ⟨status, hstatus, _, ⟨accrual, haccrual, rfl⟩, rfl⟩, by simp⟩

/-- An object is read as what it says. -/
theorem ofJson?_object_iff {ms : List (List Piece × Json)} {a : Answer} :
    ofJson? (.object ms) = some a ↔ IsSaidBy ms a := by
  constructor
  · intro h
    obtain ⟨xs, hfields, h⟩ := Option.bind_eq_some_iff.mp h
    have hnamed := Json.named_of_fields? hfields
    split at h
    · next j k accrual =>
      obtain ⟨horder, hstatus, haccrual⟩ := (fields?_eq_some_iff hnamed).mp hfields
      obtain ⟨order, hj, h⟩ := Option.bind_eq_some_iff.mp h
      obtain ⟨status, hk, h⟩ := Option.bind_eq_some_iff.mp h
      obtain ⟨ps, rfl, ht⟩ := Json.asText?_eq_some_iff.mp hj
      obtain ⟨name, hname, rfl⟩ := Option.map_eq_some_iff.mp hk
      rw [Json.atMostOne?_eq_some_iff] at horder hstatus
      split at h
      · obtain rfl := Option.some.inj h
        rw [Json.atMostOne?_eq_none_iff] at haccrual
        exact ⟨hnamed, ⟨ps, horder, ht⟩,
          ⟨k, name, hstatus, caseName?_eq_some_iff.mp hname, Status.isOf_ofText name⟩,
          haccrual ▸ .missing⟩
      · obtain ⟨x, hx, h⟩ := Option.bind_eq_some_iff.mp h
        obtain rfl := Option.some.inj h
        rw [Json.atMostOne?_eq_some_iff] at haccrual
        exact ⟨hnamed, ⟨ps, horder, ht⟩,
          ⟨k, name, hstatus, caseName?_eq_some_iff.mp hname, Status.isOf_ofText name⟩,
          haccrual ▸ accrualOfJson?_eq_some_iff.mp hx⟩
    · cases h
  · intro h
    obtain ⟨ps, horder, ht⟩ := h.order
    obtain ⟨j, name, hstatus, hname, hof⟩ := h.status
    have haccrual := h.accrual
    obtain ⟨order, status, accrual⟩ := a
    obtain rfl : status = Status.ofText name := hof.eq
    have hk : Status.ofJson? j = some (Status.ofText name) := by
      rw [Status.ofJson?, caseName?_eq_some_iff.mpr hname, Option.map_some]
    have ht' : (Json.text ps).asText? = some order := ht
    generalize hvalues : valuesOf "accrual" ms = values at haccrual
    by_cases hmissing : values = []
    · subst hmissing
      obtain rfl : accrual = none := by cases haccrual; rfl
      have hfields := (fields?_eq_some_iff h.named).mpr
        ⟨Json.atMostOne?_eq_some_iff.mpr horder, Json.atMostOne?_eq_some_iff.mpr hstatus,
          Json.atMostOne?_eq_none_iff.mpr hvalues⟩
      simp [ofJson?, hfields, ht', hk]
    · obtain ⟨x, rfl⟩ : ∃ x, values = [x] := by
        cases haccrual with
        | missing => exact absurd rfl hmissing
        | _ => exact ⟨_, rfl⟩
      have hfields := (fields?_eq_some_iff h.named).mpr
        ⟨Json.atMostOne?_eq_some_iff.mpr horder, Json.atMostOne?_eq_some_iff.mpr hstatus,
          Json.atMostOne?_eq_some_iff.mpr hvalues⟩
      simp [ofJson?, hfields, ht', hk, accrualOfJson?_eq_some_iff.mpr haccrual]

/-- Nothing counts but the values of the three fields. -/
theorem IsSaidBy.of_perm {ms ms' : List (List Piece × Json)} {a : Answer} (h : IsSaidBy ms a)
    (hnamed : Named ms')
    (hperm : ∀ name ∈ fieldNames, (valuesOf name ms').Perm (valuesOf name ms)) :
    IsSaidBy ms' a := by
  have horder := hperm "order" (by decide)
  have hstatus := hperm "status" (by decide)
  have haccrual := hperm "accrual" (by decide)
  refine ⟨hnamed, ?_, ?_, ?_⟩
  · obtain ⟨ps, hvalues, ht⟩ := h.order
    rw [hvalues, List.perm_singleton] at horder
    exact ⟨ps, horder, ht⟩
  · obtain ⟨j, name, hvalues, hname⟩ := h.status
    rw [hvalues, List.perm_singleton] at hstatus
    exact ⟨j, name, hstatus, hname⟩
  · -- At most one amount is given, so there is nothing to rearrange.
    have hsaid := h.accrual
    rwa [hsaid.eq_of_perm haccrual]

theorem ofSymbols?_of_isDocument {s : List Json.Symbol} {j : Json} (hs : j.IsDocument s) :
    ofSymbols? s = ofJson? j := by
  rw [ofSymbols?, Json.ofSymbols?_eq_some_iff.mpr hs, Option.bind_some]

/-- An object is read if it names one order and one status and at most one amount, and all its names
    stand for texts. It is read as what these values say, wherever they stand and whatever else is
    there. -/
theorem objects_read {s : List Json.Symbol} {ms : List (List Piece × Json)}
    (hs : Json.IsDocument (.object ms) s) :
    ((∃ a, ofSymbols? s = some a) ↔ Acceptable ms) ∧
    (∀ a, ofSymbols? s = some a ↔ IsSaidBy ms a) ∧
    ∀ s' ms', Json.IsDocument (.object ms') s' → Named ms → Named ms' →
      (∀ name ∈ fieldNames, (valuesOf name ms').Perm (valuesOf name ms)) →
      ofSymbols? s' = ofSymbols? s := by
  have hread : ∀ a, ofSymbols? s = some a ↔ IsSaidBy ms a := by
    intro a
    rw [ofSymbols?_of_isDocument hs, ofJson?_object_iff]
  refine ⟨?_, hread, ?_⟩
  · constructor
    · intro ⟨a, ha⟩
      exact ((hread a).mp ha).acceptable
    · intro h
      obtain ⟨a, ha⟩ := h.exists_isSaidBy
      exact ⟨a, (hread a).mpr ha⟩
  · intro s' ms' hs' hnamed hnamed' hperm
    apply Option.ext
    intro a
    rw [hread a, ofSymbols?_of_isDocument hs', ofJson?_object_iff]
    constructor
    · intro h
      exact h.of_perm hnamed fun name hname => (hperm name hname).symm
    · intro h
      exact h.of_perm hnamed' hperm

/-- The members of an answer in another order, one name with an escape, between members that nobody
    asked for: two of them of one name, and one of them an array of objects. -/
def mixedMembers : List (List Piece × Json) :=
  [([.char 'x'], .array [.object [], .array [.null, .bool true]]),
   ([.char 's', .char 't', .unit 0x61, .char 't', .char 'u', .char 's'],
    .object [("PROCESSED".toList.map .char, .null)]),
   ([.char 'x'], .text [.unit 0xD800]),
   ("accrual".toList.map .char, .number ⟨false, ['7', '2', '9'], ['9', '8'], none⟩),
   ("order".toList.map .char, .text ("18".toList.map .char))]

/-- A text of these members. -/
def mixedText : List Json.Symbol :=
  ("\x7b \"x\" : [\x7b\x7d, [null ,true] ],\n\"st\\u0061tus\":\x7b\"PROCESSED\":null\x7d," ++
    "\"x\":\"\\ud800\",\"accrual\":729.98 ,\"order\":\"18\"\x7d ").toList.map some

theorem objects_read_of_mixed_members :
    Json.IsDocument (.object mixedMembers) mixedText ∧ Acceptable mixedMembers ∧
      ofSymbols? mixedText =
        some ⟨"18", .processed, some ⟨72998, 2, by decide, by decide⟩⟩ := by
  have hs : Json.IsDocument (.object mixedMembers) mixedText := by
    rw [← Json.ofSymbols?_eq_some_iff]
    cbv
  have hread : ofSymbols? mixedText =
      some ⟨"18", .processed, some ⟨72998, 2, by decide, by decide⟩⟩ := by
    decide +kernel
  obtain ⟨haccepted, -, -⟩ := objects_read hs
  exact ⟨hs, haccepted.mp ⟨_, hread⟩, hread⟩

/-- An order, a status and a member that nobody asked for. -/
def threeMembers (order status name : List Piece) : List (List Piece × Json) :=
  [("order".toList.map .char, .text order), ("status".toList.map .char, .text status),
   (name, .number ⟨false, ['1'], [], none⟩)]

/-- A text of three such members, where the strings are written like this. -/
def threeMembersText (order status name : String) : List Json.Symbol :=
  ("\x7b\"order\":\"" ++ order ++ "\",\"status\":\"" ++ status ++ "\",\"" ++ name ++
    "\":1\x7d").toList.map some

/-- Whether an object with one order string and one status string and no amount is refused. -/
def IsRefused (ms : List (List Piece × Json)) (s : List Json.Symbol) : Prop :=
  Json.IsDocument (.object ms) s ∧ (∃ ps, valuesOf "order" ms = [.text ps]) ∧
    (∃ ps, valuesOf "status" ms = [.text ps]) ∧ valuesOf "accrual" ms = [] ∧ ofSymbols? s = none

/-- Half a pair stands for no text: not as a name, not as an order, and not as a status. -/
theorem refused_for_half_a_pair :
    IsRefused (threeMembers [.char '1', .char '8'] [.char 'N'] [.unit 0xD800])
        (threeMembersText "18" "N" "\\ud800") ∧
      IsRefused (threeMembers [.unit 0xD800] [.char 'N'] [.char 'x'])
        (threeMembersText "\\ud800" "N" "x") ∧
      IsRefused (threeMembers [.char '1', .char '8'] [.unit 0xD800] [.char 'x'])
        (threeMembersText "18" "\\ud800" "x") := by
  refine ⟨⟨?_, ⟨_, by cbv⟩, ⟨_, by cbv⟩, by cbv, by decide +kernel⟩,
    ⟨?_, ⟨_, by cbv⟩, ⟨_, by cbv⟩, by cbv, by decide +kernel⟩,
    ⟨?_, ⟨_, by cbv⟩, ⟨_, by cbv⟩, by cbv, by decide +kernel⟩⟩
  all_goals
    rw [← Json.ofSymbols?_eq_some_iff]
    cbv

end Answer

end Oracle

end LoyaltyPoints
