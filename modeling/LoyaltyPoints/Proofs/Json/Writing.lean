import LoyaltyPoints.Json.Printer
import LoyaltyPoints.Json.Record
import LoyaltyPoints.Proofs.Decimal.Text

/-! # JSON: what is written is read back

    A text is written with escapes and read back piece by piece: a character that was written by its
    number comes back as that number, every other one as itself, and the pieces stand for the same
    text. A record is written as an object of its fields in order, and read back it gives each field
    once. So a record can be read if each of its fields can. -/

namespace LoyaltyPoints

namespace Json

/-! ## Texts -/

/-- A character as it is read back. -/
def Piece.ofWritten (c : Char) : Piece :=
  if writeChar c = unitEscape c.toNat then .unit c.toNat else .char c

/-- A text as it is read back. -/
def rereadText (s : String) : Json := .text (s.toList.map Piece.ofWritten)

/-- A character is written with a short escape, by its number, or as it is. -/
theorem writeChar_cases (c : Char) :
    (∃ e, writeChar c = ['\\', e] ∧ e ≠ 'u' ∧ escape? e = some c) ∨
    (writeChar c = unitEscape c.toNat ∧ c.toNat < 0x20) ∨
    (writeChar c = [c] ∧ c ≠ '"' ∧ c ≠ '\\' ∧ ¬ c.toNat < 0x20) := by
  unfold writeChar
  split
  case h_8 hquote hbackslash _ _ _ _ _ =>
    split
    · next hcontrol => exact .inr (.inl ⟨rfl, hcontrol⟩)
    · next hcontrol => exact .inr (.inr ⟨rfl, hquote, hbackslash, hcontrol⟩)
  all_goals exact .inl ⟨_, rfl, by decide, rfl⟩

theorem length_unitEscape (n : ℕ) : (unitEscape n).length = 6 := by
  simp [unitEscape]

section pieces

variable (s : List Symbol)

theorem pieces?_unitEscape {n : ℕ} (h : n < 16 ^ 4) :
    pieces? ((unitEscape n).map some ++ s) =
      (pieces? s).map fun (ps, r) => (.unit n :: ps, r) := by
  have hnumber := Text.hexNumber?_hexDigits_of_lt h
  have hlength := Text.length_hexDigits 4 n
  unfold unitEscape
  generalize Text.hexDigits 4 n = ds at hnumber hlength
  obtain ⟨a, b, c, d, rfl⟩ := List.length_eq_four.mp hlength
  simp only [List.map_cons, List.map_nil, List.cons_append, List.nil_append, pieces?, unit?,
    hnumber, Option.bind_some]

theorem pieces?_escape {e c : Char} (hunit : e ≠ 'u') (h : escape? e = some c) :
    pieces? (some '\\' :: some e :: s) = (pieces? s).map fun (ps, r) => (.char c :: ps, r) := by
  rw [pieces?, h, Option.bind_some]
  exact fun _ _ _ _ _ _ => hunit

theorem pieces?_plain {c : Char} (hquote : c ≠ '"') (hbackslash : c ≠ '\\')
    (hcontrol : ¬ c.toNat < 0x20) :
    pieces? (some c :: s) = (pieces? s).map fun (ps, r) => (.char c :: ps, r) := by
  rw [pieces?.eq_def]
  split <;> simp_all

/-- A written character is read back as one piece. -/
theorem pieces?_writeChar (c : Char) :
    pieces? ((writeChar c).map some ++ s) =
      (pieces? s).map fun (ps, r) => (Piece.ofWritten c :: ps, r) := by
  unfold Piece.ofWritten
  -- A number takes six characters, so the other two ways to write one are told by their length.
  rcases writeChar_cases c with ⟨e, h, hunit, hescape⟩ | ⟨h, hcontrol⟩ | ⟨h, hplain⟩
  · rw [h, if_neg fun heq => by simpa [length_unitEscape] using congrArg List.length heq]
    exact pieces?_escape s hunit hescape
  · rw [h, if_pos rfl]
    exact pieces?_unitEscape s (by omega)
  · rw [h, if_neg fun heq => by simpa [length_unitEscape] using congrArg List.length heq]
    exact pieces?_plain s hplain.1 hplain.2.1 hplain.2.2

/-- A written text is read back up to its closing quote. -/
theorem pieces?_written (cs : List Char) :
    pieces? ((cs.flatMap writeChar).map some ++ some '"' :: s) =
      some (cs.map Piece.ofWritten, s) := by
  induction cs with
  | nil => simp only [List.flatMap_nil, List.map_nil, List.nil_append, pieces?]
  | cons c cs ih =>
    rw [List.flatMap_cons, List.map_append, List.append_assoc, pieces?_writeChar, ih]
    rfl

end pieces

/-- A piece that is read back stands for its character. -/
theorem chars?_ofWritten (c : Char) (ps : List Piece) :
    Piece.chars? (Piece.ofWritten c :: ps) = (Piece.chars? ps).map (c :: ·) := by
  unfold Piece.ofWritten
  split
  · next h =>
    -- Only control characters are written by number, and they are no halves of a surrogate pair.
    have hcontrol : c.toNat < 0x20 := by
      rcases writeChar_cases c with ⟨e, hshort, -⟩ | ⟨-, hcontrol⟩ | ⟨hself, -⟩
      · simpa [length_unitEscape] using congrArg List.length (hshort.symm.trans h)
      · exact hcontrol
      · simpa [length_unitEscape] using congrArg List.length (hself.symm.trans h)
    rw [Piece.chars?.eq_def]
    dsimp only
    rw [if_pos (.inl (by omega)), Char.ofNat_toNat]
  · rw [Piece.chars?]

@[simp] theorem asText?_rereadText (s : String) : (rereadText s).asText? = some s := by
  have hchars (cs : List Char) : Piece.chars? (cs.map Piece.ofWritten) = some cs := by
    induction cs with
    | nil => rfl
    | cons c cs ih => rw [List.map_cons, chars?_ofWritten, ih, Option.map_some]
  rw [rereadText, asText?, Piece.text?, hchars, Option.map_some, String.ofList_toList]

@[simp] theorem caseName?_rereadText (s : String) : (rereadText s).caseName? = some s :=
  asText?_rereadText s

@[simp] theorem asDecimal?_rereadText (a : Decimal) :
    (rereadText a.toText).asDecimal? = some a := by
  show (rereadText a.toText).asText?.bind Decimal.ofAnyText? = some a
  rw [asText?_rereadText, Option.bind_some, Decimal.ofAnyText?_toText]

/-! ## Records -/

theorem skipBlanks_of_not_blank {c : Char} (h : isBlank (some c) = false) (s : List Symbol) :
    skipBlanks (some c :: s) = some c :: s := by
  simp [skipBlanks, h]

/-- Wherever a document is written, another one is read, and the reader does not go deeper. -/
def ReadsAs (x y : Json) : Prop :=
  ∀ fuel s, value? (fuel + 1) (x.toChars.map some ++ s) = some (y, s)

theorem readsAs_null : ReadsAs .null .null := by
  intro fuel s
  rw [value?]
  rfl

theorem readsAs_ofText (t : String) : ReadsAs (ofText t) (rereadText t) := by
  intro fuel s
  have hpieces := pieces?_written s t.toList
  have hchars : (ofText t).toChars = '"' :: (t.toList.flatMap writeChar ++ ['"']) := by
    rw [ofText, toChars, writeText, List.flatMap_map]
    rfl
  rw [hchars, List.map_cons, List.map_append, List.cons_append, List.append_assoc, value?]
  exact congrArg (Option.map _) hpieces

/-- A field of a record, as it is written and as it is read back. -/
structure Field where
  name : String
  written : Json
  read : Json
  readsAs : ReadsAs written read

namespace Field

/-- A field that holds a text. -/
def ofText (name t : String) : Field := ⟨name, Json.ofText t, rereadText t, readsAs_ofText t⟩

/-- A field that holds nothing. -/
def null (name : String) : Field := ⟨name, .null, .null, readsAs_null⟩

/-- The member of an object that a field is written as. -/
def toMember (f : Field) : List Piece × Json := (f.name.toList.map .char, f.written)

/-- The member of an object that a field is read back as. -/
def reread (f : Field) : List Piece × Json := (f.name.toList.map Piece.ofWritten, f.read)

/-- The characters of the members behind the opening brace. -/
def chars (f : Field) (fs : List Field) : List Char :=
  writeText f.toMember.1 ++ ':' :: f.written.toChars ++ membersToChars (fs.map toMember)

theorem chars_eq (f : Field) (fs : List Field) :
    f.chars fs = '"' :: (f.name.toList.flatMap writeChar ++
      '"' :: ':' :: (f.written.toChars ++ membersToChars (fs.map toMember))) := by
  simp [chars, toMember, writeText, List.flatMap_map, Piece.write]

/-- The symbols of a member, with what stands behind it. -/
def symbols (f : Field) (s : List Symbol) : List Symbol :=
  some '"' :: ((f.name.toList.flatMap writeChar).map some ++
    some '"' :: some ':' :: (f.written.toChars.map some ++ s))

theorem map_chars (f : Field) (fs : List Field) (s : List Symbol) :
    (f.chars fs).map some ++ s =
      f.symbols ((membersToChars (fs.map toMember)).map some ++ s) := by
  simp [chars_eq, symbols]

theorem members?_last (f : Field) (fuel : ℕ) (s : List Symbol) :
    members? (fuel + 2) (f.symbols (some '\x7d' :: s)) = some ([f.reread], s) := by
  have hname := pieces?_written (some ':' :: (f.written.toChars.map some ++ some '\x7d' :: s))
    f.name.toList
  have hvalue := f.readsAs fuel (some '\x7d' :: s)
  rw [members?, symbols, skipBlanks_of_not_blank rfl]
  simp only [hname, Option.bind_some, skipBlanks_of_not_blank (c := ':') rfl, hvalue,
    skipBlanks_of_not_blank (c := '\x7d') rfl]
  rfl

theorem members?_more (f : Field) (fuel : ℕ) (s : List Symbol) :
    members? (fuel + 2) (f.symbols (some ',' :: s)) =
      (members? (fuel + 1) s).map fun (ms, r) => (f.reread :: ms, r) := by
  have hname := pieces?_written (some ':' :: (f.written.toChars.map some ++ some ',' :: s))
    f.name.toList
  have hvalue := f.readsAs fuel (some ',' :: s)
  rw [members?, symbols, skipBlanks_of_not_blank rfl]
  simp only [hname, Option.bind_some, skipBlanks_of_not_blank (c := ':') rfl, hvalue,
    skipBlanks_of_not_blank (c := ',') rfl]
  rfl

theorem membersToChars_cons (g : Field) (fs : List Field) :
    membersToChars ((g :: fs).map toMember) = ',' :: g.chars fs := by
  rw [List.map_cons, show g.toMember = (g.toMember.1, g.written) from rfl, membersToChars]
  rfl

/-- The members of a record are read back one after another. -/
theorem members?_chars (f : Field) (fs : List Field) (fuel : ℕ) (s : List Symbol) :
    members? (fuel + fs.length + 2) ((f.chars fs).map some ++ s) =
      some ((f :: fs).map reread, s) := by
  induction fs generalizing f with
  | nil => exact (congrArg _ (map_chars f [] s)).trans (members?_last f fuel s)
  | cons g fs ih =>
    rw [map_chars, membersToChars_cons, List.map_cons, List.cons_append, members?_more,
      List.length_cons, ← Nat.add_assoc, ih g]
    rfl

/-- There is at least one character for each member. -/
theorem length_lt_chars (f : Field) (fs : List Field) : fs.length < (f.chars fs).length := by
  induction fs generalizing f with
  | nil => simp [chars_eq]
  | cons g fs ih =>
    have hrest := ih g
    rw [chars_eq, membersToChars_cons]
    simp only [List.length_cons, List.length_append]
    omega

end Field

/-- An object that is not empty is read member by member. -/
theorem value?_object (fuel : ℕ) (s : List Symbol) :
    value? (fuel + 1) (some '\x7b' :: some '"' :: s) =
      (members? fuel (some '"' :: s)).map fun (ms, r) => (.object ms, r) := by
  rw [value?]
  rfl

/-- A record is read back field by field. -/
theorem ofString?_toText (f : Field) (fs : List Field) :
    ofString? (toText (.object ((f :: fs).map Field.toMember))) =
      some (.object ((f :: fs).map Field.reread)) := by
  have hchars : toChars (.object ((f :: fs).map Field.toMember)) = '\x7b' :: f.chars fs := by
    rw [List.map_cons, show f.toMember = (f.toMember.1, f.written) from rfl, toChars]
    rfl
  -- The text is long enough for the reader to go down to each of the fields.
  obtain ⟨fuel, hfuel⟩ := Nat.exists_eq_add_of_le' (f.length_lt_chars fs)
  have hlength : 2 * (('\x7b' :: f.chars fs).map some).length + 2 =
      (2 * fuel + fs.length + 3 + fs.length + 2) + 1 := by
    rw [List.length_map, List.length_cons]
    omega
  have hmembers := f.members?_chars fs (2 * fuel + fs.length + 3) []
  rw [List.append_nil, f.chars_eq, List.map_cons] at hmembers
  rw [ofString?, ofSymbols?, toText, String.toList_ofList, hchars, hlength, f.chars_eq,
    List.map_cons, List.map_cons, value?_object, hmembers]
  rfl

theorem mapM_eq_some_map {α β : Type} {f : α → Option β} {g : α → β} {xs : List α}
    (h : ∀ x ∈ xs, f x = some (g x)) : xs.mapM f = some (xs.map g) := by
  induction xs with
  | nil => rfl
  | cons x xs ih =>
    rw [List.forall_mem_cons] at h
    rw [List.mapM_cons, h.1, ih h.2]
    rfl

/-- The one field of a name is the only one that is found under it. -/
theorem Field.filter_name {fs : List Field} (h : (fs.map (·.name)).Nodup) {f : Field}
    (hf : f ∈ fs) :
    (fs.map fun g => (g.name, g.read)).filter (·.1 == f.name) = [(f.name, f.read)] := by
  induction fs with
  | nil => cases hf
  | cons g fs ih =>
    obtain ⟨hg, hfs⟩ := List.nodup_cons.mp h
    have hother : ∀ f ∈ fs, g.name ≠ f.name := by
      intro f hf heq
      exact hg (List.mem_map.mpr ⟨f, hf, heq.symm⟩)
    rw [List.map_cons, List.filter_cons]
    rcases List.mem_cons.mp hf with rfl | hf
    · have hnone : (fs.map fun g => (g.name, g.read)).filter (·.1 == f.name) = [] := by
        simpa [List.filter_eq_nil_iff] using fun g hg => (hother g hg).symm
      rw [if_pos (beq_self_eq_true f.name), hnone]
    · have hne : ¬ (g.name == f.name) = true := by simpa using hother f hf
      rw [if_neg hne, ih hfs hf]

/-- A record that names each field once gives each of them. -/
theorem fields?_reread {fs : List Field} (h : (fs.map (·.name)).Nodup) :
    fields? (fs.map (·.name)) (.object (fs.map Field.reread)) =
      some (fs.map fun f => some f.read) := by
  have htext (f : Field) : Piece.text? f.reread.1 = some f.name := asText?_rereadText f.name
  have hmembers : (fs.map Field.reread).mapM (fun m => (Piece.text? m.1).map (·, m.2)) =
      some (fs.map fun f => (f.name, f.read)) := by
    rw [List.mapM_map]
    refine mapM_eq_some_map fun f _ => ?_
    show (Piece.text? f.reread.1).map (·, f.read) = _
    rw [htext, Option.map_some]
  -- First the name of every member is read, then the members of each name are gathered.
  rw [fields?]
  refine (congrArg (· >>= _) hmembers).trans ?_
  show (fs.map (·.name)).mapM _ = _
  rw [List.mapM_map]
  refine mapM_eq_some_map fun f hf => ?_
  simp only [Function.comp_apply, Field.filter_name h hf]

/-- What a record gives when it has been written and read again. -/
theorem fields?_written (f : Field) (fs : List Field) (h : ((f :: fs).map (·.name)).Nodup) :
    ∃ j, ofString? (toText (.object ((f :: fs).map Field.toMember))) = some j ∧
      j.fields? ((f :: fs).map (·.name)) = some ((f :: fs).map fun f => some f.read) :=
  ⟨_, ofString?_toText f fs, fields?_reread h⟩

end Json

end LoyaltyPoints
