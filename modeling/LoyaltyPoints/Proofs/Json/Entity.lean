import LoyaltyPoints.Json.Entity
import LoyaltyPoints.Proofs.Json.Writing
import LoyaltyPoints.Proofs.Time.Written

/-! # JSON: orders, balances and withdrawals have one written form

    Whatever text an order, a balance or a withdrawal was read from, its id, its amounts, its status
    and its times are values by then, and each of them is read back from the one text it is written
    as. Only times could fail to be, since not every count of seconds is a time of the calendar.
    Those that were read lie in it, leap seconds and signed years included. -/

namespace LoyaltyPoints

/-! ## Ids -/

namespace Uuid

open Text (hexDigits)

/-- Groups of the right lengths are put together. -/
theorem ofGroups?_append {a b c d e : List Char} (ha : a.length = 8) (hb : b.length = 4)
    (hc : c.length = 4) (hd : d.length = 4) (he : e.length = 12) :
    ofGroups? (a ++ '-' :: (b ++ '-' :: (c ++ '-' :: (d ++ '-' :: e)))) =
      ofDigits? (a ++ b ++ c ++ d ++ e) := by
  rw [ofGroups?, if_pos (by simp [ha, hb, hc, hd, he])]
  simp (disch := omega) [List.drop_append, List.drop_eq_nil_of_le, ha, hb, hc, hd]

theorem ofDigits?_hexDigits (u : Uuid) : ofDigits? (hexDigits 32 u.value) = some u := by
  have hnumber : Text.hexNumber? (hexDigits 32 u.value) = some u.value :=
    Text.hexNumber?_hexDigits_of_lt u.value_lt
  rw [ofDigits?, if_pos (Text.length_hexDigits 32 u.value), hnumber, Option.bind_some]
  exact dif_pos u.value_lt

theorem ofChars?_toChars (u : Uuid) : ofChars? u.toChars = some u := by
  have hlength := Text.length_hexDigits 32 u.value
  have hread := u.ofDigits?_hexDigits
  rw [toChars]
  generalize hexDigits 32 u.value = ds at hlength hread
  -- The digits are cut into five groups, and put together again they are the same.
  have hgroup (n : ℕ) : (ds.drop n).take 4 ++ ds.drop (n + 4) = ds.drop n := by
    rw [← List.drop_drop, List.take_append_drop]
  have hjoin : ds.take 8 ++ (ds.drop 8).take 4 ++ (ds.drop 12).take 4 ++ (ds.drop 16).take 4 ++
      ds.drop 20 = ds := by
    simp only [List.append_assoc]
    rw [hgroup 16, hgroup 12, hgroup 8, List.take_append_drop]
  rw [ofChars?, if_neg (by simp [hlength]), if_pos (by simp [hlength])]
  rw [ofGroups?_append (by simp [hlength]) (by simp [hlength]) (by simp [hlength])
    (by simp [hlength]) (by simp [hlength]), hjoin, hread]

@[simp] theorem ofJson?_rereadText (u : Uuid) : ofJson? (Json.rereadText u.toText) = some u := by
  rw [ofJson?, Json.asText?_rereadText, Option.bind_some, ofText?, toText, String.toList_ofList,
    ofChars?_toChars]

end Uuid

/-! ## Statuses and times -/

@[simp] theorem OrderStatus.ofJson?_rereadText (s : OrderStatus) :
    ofJson? (Json.rereadText s.toText) = some s := by
  rw [ofJson?, Json.caseName?_rereadText, Option.bind_some]
  cases s <;> rfl

namespace Instant

theorem InCalendar.ofJson?_rereadText {t : Instant} (h : t.InCalendar) :
    ofJson? (Json.rereadText t.toText) = some t := by
  rw [ofJson?, Json.asText?_rereadText, Option.bind_some, ofText?, toText, String.toList_ofList,
    h.ofChars?_toChars]

theorem InCalendar.of_ofJson? {j : Json} {t : Instant} (h : ofJson? j = some t) :
    t.InCalendar := by
  obtain ⟨s, -, hs⟩ := Option.bind_eq_some_iff.mp h
  exact .of_ofChars? hs

end Instant

/-! ## Records of texts -/

section records

variable {α : Type} (ofJson? : Json → Option α) {names : List String}
  {ofFields? : List (Option Json) → Option α}

/-- A record of texts that are all read as they were is read text by text. -/
theorem Json.bind_ofString?_texts (hread : ∀ j, ofJson? j = (j.fields? names).bind ofFields?)
    (f : String × String) (fs : List (String × String)) (hnames : (f :: fs).map (·.1) = names)
    (hnodup : names.Nodup) :
    (ofString? (ofMembers ((f :: fs).map fun (name, t) => (name, ofText t))).toText).bind ofJson? =
      ofFields? ((f :: fs).map fun g => some (rereadText g.2)) := by
  subst hnames
  obtain ⟨j, hj, hfields⟩ := fields?_written (.ofText f.1 f.2) (fs.map fun g => .ofText g.1 g.2)
    (by simpa [Field.ofText, Function.comp_def] using hnodup)
  have hwritten : ofString? (ofMembers ((f :: fs).map fun (name, t) => (name, ofText t))).toText =
      some j := by
    simpa [ofMembers, Field.toMember, Field.ofText, Function.comp_def] using hj
  have htexts : j.fields? ((f :: fs).map (·.1)) =
      some ((f :: fs).map fun g => some (rereadText g.2)) := by
    simpa [Field.ofText, Function.comp_def] using hfields
  rw [hwritten, Option.bind_some, hread, htexts, Option.bind_some]

/-- Whatever is read is made of the fields of a record. -/
theorem Json.exists_fields_of_read (hread : ∀ j, ofJson? j = (j.fields? names).bind ofFields?)
    {s : String} {a : α} (h : (ofString? s).bind ofJson? = some a) :
    ∃ fields, ofFields? fields = some a := by
  obtain ⟨j, -, hj⟩ := Option.bind_eq_some_iff.mp h
  obtain ⟨fields, -, hfields⟩ := Option.bind_eq_some_iff.mp ((hread j).symm.trans hj)
  exact ⟨fields, hfields⟩

end records

namespace Order

theorem ofText?_toText {o : Order} (h : o.uploadedAt.InCalendar) : ofText? o.toText = some o := by
  refine (Json.bind_ofString?_texts ofJson? (fun _ => rfl) ("id", o.id.toText)
    [("userId", o.user), ("number", o.number), ("status", o.status.toText),
      ("accrual", o.accrual.toText), ("uploadedAt", o.uploadedAt.toText)] rfl (by decide)).trans ?_
  simp [h.ofJson?_rereadText]

/-- The upload time of an order that was read lies in the calendar. -/
theorem inCalendar_of_ofText? {s : String} {o : Order} (h : ofText? s = some o) :
    o.uploadedAt.InCalendar := by
  obtain ⟨fields, hfields⟩ := Json.exists_fields_of_read ofJson? (fun _ => rfl) h
  split at hfields
  · simp only [Option.bind_eq_bind, Option.bind_eq_some_iff, Option.some.injEq] at hfields
    obtain ⟨_, -, _, -, _, -, _, -, _, -, t, ht, rfl⟩ := hfields
    exact .of_ofJson? ht
  · cases hfields

end Order

namespace Balance

theorem ofText?_toText {b : Balance} (hcreated : b.createdAt.InCalendar)
    (hupdated : b.updatedAt.InCalendar) : ofText? b.toText = some b := by
  refine (Json.bind_ofString?_texts ofJson? (fun _ => rfl) ("id", b.id.toText)
    [("userId", b.user), ("current", b.current.toText), ("withdrawn", b.withdrawn.toText),
      ("createdAt", b.createdAt.toText), ("updatedAt", b.updatedAt.toText)]
    rfl (by decide)).trans ?_
  simp [hcreated.ofJson?_rereadText, hupdated.ofJson?_rereadText]

/-- Both times of a balance that was read lie in the calendar. -/
theorem inCalendar_of_ofText? {s : String} {b : Balance} (h : ofText? s = some b) :
    b.createdAt.InCalendar ∧ b.updatedAt.InCalendar := by
  obtain ⟨fields, hfields⟩ := Json.exists_fields_of_read ofJson? (fun _ => rfl) h
  split at hfields
  · simp only [Option.bind_eq_bind, Option.bind_eq_some_iff, Option.some.injEq] at hfields
    obtain ⟨_, -, _, -, _, -, _, -, created, hcreated, updated, hupdated, rfl⟩ := hfields
    exact ⟨.of_ofJson? hcreated, .of_ofJson? hupdated⟩
  · cases hfields

end Balance

namespace Withdrawal

theorem ofText?_toText {w : Withdrawal} (h : w.processedAt.InCalendar) :
    ofText? w.toText = some w := by
  refine (Json.bind_ofString?_texts ofJson? (fun _ => rfl) ("id", w.id.toText)
    [("userId", w.user), ("orderNumber", w.number), ("sum", w.sum.toText),
      ("processedAt", w.processedAt.toText)] rfl (by decide)).trans ?_
  simp [h.ofJson?_rereadText]

/-- The time of a withdrawal that was read lies in the calendar. -/
theorem inCalendar_of_ofText? {s : String} {w : Withdrawal} (h : ofText? s = some w) :
    w.processedAt.InCalendar := by
  obtain ⟨fields, hfields⟩ := Json.exists_fields_of_read ofJson? (fun _ => rfl) h
  split at hfields
  · simp only [Option.bind_eq_bind, Option.bind_eq_some_iff, Option.some.injEq] at hfields
    obtain ⟨_, -, _, -, _, -, _, -, t, ht, rfl⟩ := hfields
    exact .of_ofJson? ht
  · cases hfields

end Withdrawal

/-! ## The one written form -/

/-- Whatever was read is written as a text that is read as the same value and written as itself. An
    order waits for its points as before, and stands at the same place among those that do. -/
theorem entities_read_back (s : String) :
    (∀ o, Order.ofText? s = some o → ∃ o', Order.ofText? o.toText = some o' ∧ o' = o ∧
      o'.toText = o.toText ∧ o'.isPending = o.isPending ∧ o'.position = o.position) ∧
    (∀ b, Balance.ofText? s = some b → ∃ b', Balance.ofText? b.toText = some b' ∧ b' = b ∧
      b'.toText = b.toText) ∧
    (∀ w, Withdrawal.ofText? s = some w → ∃ w', Withdrawal.ofText? w.toText = some w' ∧ w' = w ∧
      w'.toText = w.toText) := by
  refine ⟨?order, ?balance, ?withdrawal⟩
  case order =>
    intro o ho
    exact ⟨o, Order.ofText?_toText (Order.inCalendar_of_ofText? ho), rfl, rfl, rfl, rfl⟩
  case balance =>
    intro b hb
    obtain ⟨hcreated, hupdated⟩ := Balance.inCalendar_of_ofText? hb
    exact ⟨b, Balance.ofText?_toText hcreated hupdated, rfl, rfl⟩
  case withdrawal =>
    intro w hw
    exact ⟨w, Withdrawal.ofText?_toText (Withdrawal.inCalendar_of_ofText? hw), rfl, rfl⟩

/-- An order as an object in another order and with more members, a balance as an array whose first
    time is a leap second west of Greenwich, a withdrawal by the name of its id and at an end of the
    calendar. -/
theorem entities_read_back_of_texts :
    (∃ o, Order.ofText? "\x7b\"more\": [null], \"uploadedAt\": \"1970-1-1 0:0:0.1+00:01\",
        \"accrual\": \"1.50e1\", \"status\": \x7b\"NEW\": null\x7d, \"number\": \"18\",
        \"userId\": \"\\u0062\", \"id\": \"0000000000000000000000000000000A\"\x7d" = some o ∧
      o.uploadedAt = ⟨-60, 100000000⟩ ∧
      ∃ o', Order.ofText? o.toText = some o' ∧ o' = o ∧ o'.toText = o.toText ∧
        o'.isPending = o.isPending ∧ o'.position = o.position) ∧
    (∃ b, Balance.ofText? "[\"\x7b00000000-0000-0000-0000-00000000000A\x7d\", \"bob\", 1.25e1,
        \"7E-1\", \"2016-12-31T18:59:60.5-05:00\", \"2017-01-01T00:00:00Z\"]" = some b ∧
      b.createdAt = ⟨1483228799, 1500000000⟩ ∧
      ∃ b', Balance.ofText? b.toText = some b' ∧ b' = b ∧ b'.toText = b.toText) ∧
    (∃ w, Withdrawal.ofText? "[\"urn:uuid:00000000-0000-0000-0000-00000000000a\", \"bob\", \"18\",
        \"0.0000001\", \"-262143-01-01T00:00:00Z\"]" = some w ∧
      w.processedAt.seconds = Instant.firstSecond ∧
      ∃ w', Withdrawal.ofText? w.toText = some w' ∧ w' = w ∧ w'.toText = w.toText) := by
  refine ⟨⟨⟨.ofNat 10, "b", "18", .new, ⟨150, 1, by decide, by decide⟩, ⟨-60, 100000000⟩⟩,
      ?order, rfl, (entities_read_back _).1 _ ?order⟩,
    ⟨⟨.ofNat 10, "bob", ⟨125, 1, by decide, by decide⟩, ⟨7, 1, by decide, by decide⟩,
      ⟨1483228799, 1500000000⟩, ⟨1483228800, 0⟩⟩,
      ?balance, rfl, (entities_read_back _).2.1 _ ?balance⟩,
    ⟨⟨.ofNat 10, "bob", "18", ⟨1, 7, by decide, by decide⟩, ⟨Instant.firstSecond, 0⟩⟩,
      ?withdrawal, rfl, (entities_read_back _).2.2 _ ?withdrawal⟩⟩
  case order => decide +kernel
  case balance => decide +kernel
  case withdrawal => decide +kernel

end LoyaltyPoints
