import LoyaltyPoints.Oracle.Address
import LoyaltyPoints.Proofs.Text.Trim

/-! # Oracle: the normal form of its address

    The base of all addresses names its scheme, has no blanks at its ends and does not end in a
    slash: normalizing leaves exactly such texts alone. A configured text is brought there in one
    pass, blanks first and then slashes, so that a blank which is covered by slashes is laid bare
    and stays. Then, and only then, a second pass would change the base once more. -/

namespace LoyaltyPoints

namespace Oracle

open Text (isBlank trim trimStart trimEnd dropEndWhile)

/-! ## Texts that normalizing leaves alone -/

theorem contains_iff {part cs : List Char} : contains part cs = true ↔ part <:+: cs := by
  induction cs with
  | nil => simp [contains]
  | cons c cs ih => simp [contains, ih, List.infix_cons_iff]

/-- What is left of a configured text: no blanks at its ends, and then no slashes at the end. -/
def bare (raw : List Char) : List Char := dropEndWhile (· = '/') (trim raw)

theorem normalizeAddress_eq (raw : List Char) :
    normalizeAddress raw =
      if contains schemeMark (bare raw) then bare raw else defaultScheme ++ bare raw := rfl

theorem bare_isPrefix_trim (raw : List Char) : bare raw <+: trim raw :=
  Text.dropEndWhile_isPrefix _ _

/-- An address that can be put in front of a path as it is. -/
structure IsNormal (cs : List Char) : Prop where
  names_scheme : schemeMark <:+: cs
  starts : ∀ c ∈ cs.head?, isBlank c = false
  ends : ∀ c ∈ cs.getLast?, isBlank c = false
  no_slash : ∀ c ∈ cs.getLast?, c ≠ '/'

/-- Nothing is dropped only if there is nothing to drop. -/
theorem of_bare_eq_self {cs : List Char} (h : bare cs = cs) :
    (∀ c ∈ cs.head?, isBlank c = false) ∧ (∀ c ∈ cs.getLast?, isBlank c = false) ∧
      ∀ c ∈ cs.getLast?, c ≠ '/' := by
  have hshorter : (trimStart cs).length ≤ cs.length := (List.dropWhile_suffix isBlank).length_le
  have hend := Text.trim_isPrefix_trimStart cs
  have hslash := bare_isPrefix_trim cs
  rw [h] at hslash
  -- No stage makes a text longer, so none of them has dropped anything.
  have htrim : cs = trim cs := hslash.eq_of_length_le (hend.length_le.trans hshorter)
  have hstart : cs = trimStart cs := (hslash.trans hend).eq_of_length_le hshorter
  refine ⟨?_, ?_, ?_⟩
  · intro c hc
    rw [hstart] at hc
    exact Text.of_mem_head?_dropWhile hc
  · intro c hc
    rw [htrim] at hc
    exact Text.of_mem_getLast?_dropEndWhile hc
  · intro c hc
    rw [← h] at hc
    simpa using Text.of_mem_getLast?_dropEndWhile hc

/-- A text with the default scheme in front is not what is left of itself, unless a scheme is named
    behind that. -/
theorem defaultScheme_append_bare_ne {cs : List Char}
    (hmark : contains schemeMark (bare cs) = false) : defaultScheme ++ bare cs ≠ cs := by
  intro h
  have hstarts : ∀ c ∈ cs.head?, isBlank c = false := by
    intro c hc
    rw [← h] at hc
    obtain rfl : 'h' = c := Option.some.inj hc
    rfl
  have hfront : bare cs <+: cs := by
    have hend := Text.trim_isPrefix_trimStart cs
    rw [trimStart, Text.dropWhile_eq_self hstarts] at hend
    exact (bare_isPrefix_trim cs).trans hend
  have hscheme : defaultScheme <+: cs := ⟨bare cs, h⟩
  rcases List.prefix_or_prefix_of_prefix hscheme hfront with hlong | hshort
  · have hinside : schemeMark <:+: bare cs :=
      (by decide : schemeMark <:+: defaultScheme).trans hlong.isInfix
    rw [contains_iff.mpr hinside] at hmark
    cases hmark
  · -- What is left would be one of the few texts that the default scheme starts with.
    have hnone : ∀ rest ∈ defaultScheme.inits, bare (defaultScheme ++ rest) ≠ rest := by decide
    apply hnone (bare cs) ((List.mem_inits _ _).mpr hshort)
    rw [h]

/-- Exactly the normal forms are left alone. -/
theorem normalizeAddress_eq_self_iff {cs : List Char} : normalizeAddress cs = cs ↔ IsNormal cs := by
  rw [normalizeAddress_eq]
  constructor
  · intro h
    by_cases hmark : contains schemeMark (bare cs) = true
    · rw [if_pos hmark] at h
      rw [h, contains_iff] at hmark
      obtain ⟨hstarts, hends, hslash⟩ := of_bare_eq_self h
      exact ⟨hmark, hstarts, hends, hslash⟩
    · rw [if_neg hmark] at h
      exact absurd h (defaultScheme_append_bare_ne (Bool.not_eq_true _ ▸ hmark))
  · intro h
    have hbare : bare cs = cs := by
      rw [bare, Text.trim_eq_self h.starts h.ends, Text.dropEndWhile_eq_self]
      intro c hc
      simpa using h.no_slash c hc
    rw [hbare, if_pos (contains_iff.mpr h.names_scheme)]

/-! ## What one pass makes of a text -/

theorem schemeMark_infix_normalizeAddress (raw : List Char) :
    schemeMark <:+: normalizeAddress raw := by
  rw [normalizeAddress_eq]
  by_cases hmark : contains schemeMark (bare raw) = true
  · rw [if_pos hmark]
    exact contains_iff.mp hmark
  · rw [if_neg hmark]
    exact (by decide : schemeMark <:+: defaultScheme).trans (List.prefix_append _ _).isInfix

/-- No blank is left in front. -/
theorem of_mem_head?_normalizeAddress {raw : List Char} {c : Char}
    (h : c ∈ (normalizeAddress raw).head?) : isBlank c = false := by
  rw [normalizeAddress_eq] at h
  by_cases hmark : contains schemeMark (bare raw) = true
  · rw [if_pos hmark] at h
    obtain ⟨dropped, hdropped⟩ := (bare_isPrefix_trim raw).trans (Text.trim_isPrefix_trimStart raw)
    have hfirst : c ∈ (trimStart raw).head? := by
      rw [← hdropped, List.head?_append, Option.mem_def.mp h]
      rfl
    exact Text.of_mem_head?_dropWhile hfirst
  · rw [if_neg hmark] at h
    obtain rfl : 'h' = c := Option.some.inj h
    rfl

/-- A blank stands right before the slashes that a text ends in, blanks behind them aside. -/
def HidesBlank (raw : List Char) : Prop :=
  ∃ front c slashes back, raw = front ++ c :: (slashes ++ back) ∧ isBlank c = true ∧
    slashes ≠ [] ∧ (∀ x ∈ slashes, x = '/') ∧ ∀ x ∈ back, isBlank x = true

/-- A blank that is left at the end was covered by slashes. -/
theorem hidesBlank_of_laid_bare {raw : List Char} {c : Char} (hc : c ∈ (bare raw).getLast?)
    (hblank : isBlank c = true) : HidesBlank raw := by
  obtain ⟨front, hfront⟩ := List.getLast?_eq_some_iff.mp hc
  obtain ⟨slashes, htrim, hslashes⟩ :
      ∃ ds, bare raw ++ ds = trim raw ∧ ∀ x ∈ ds, decide (x = '/') = true :=
    Text.exists_dropEndWhile_append _ _
  obtain ⟨back, hstart, hback⟩ :
      ∃ ds, trim raw ++ ds = trimStart raw ∧ ∀ x ∈ ds, isBlank x = true :=
    Text.exists_dropEndWhile_append _ _
  have hne : slashes ≠ [] := by
    intro hnil
    rw [hnil, List.append_nil] at htrim
    have hlast : c ∈ (trim raw).getLast? := by
      rw [← htrim]
      exact hc
    rw [Text.of_mem_getLast?_dropEndWhile hlast] at hblank
    cases hblank
  refine ⟨raw.takeWhile isBlank ++ front, c, slashes, back, ?_, hblank, hne, ?_, hback⟩
  · calc raw = raw.takeWhile isBlank ++ trimStart raw := List.takeWhile_append_dropWhile.symm
      _ = raw.takeWhile isBlank ++ (bare raw ++ slashes ++ back) := by rw [htrim, hstart]
      _ = raw.takeWhile isBlank ++ front ++ c :: (slashes ++ back) := by
        rw [hfront]
        simp
  · intro x hx
    simpa using hslashes x hx

/-- What is left of a text that has a blank before slashes, and more before that. -/
theorem bare_covered {front slashes back : List Char} {c : Char}
    (hsome : front.dropWhile isBlank ≠ []) (hblank : isBlank c = true) (hne : slashes ≠ [])
    (hslashes : ∀ x ∈ slashes, x = '/') (hback : ∀ x ∈ back, isBlank x = true) :
    bare (front ++ c :: (slashes ++ back)) = front.dropWhile isBlank ++ [c] := by
  have hstart : trimStart (front ++ c :: (slashes ++ back)) =
      front.dropWhile isBlank ++ [c] ++ slashes ++ back := by
    rw [trimStart, List.dropWhile_append, if_neg (by simpa using hsome)]
    simp
  -- The slashes keep the blank from being dropped with those behind them.
  have hlast : ∀ x ∈ (front.dropWhile isBlank ++ [c] ++ slashes).getLast?, isBlank x = false := by
    intro x hx
    rw [List.getLast?_append_of_ne_nil _ hne] at hx
    rw [hslashes x (List.mem_of_getLast? hx)]
    rfl
  have htrim : trim (front ++ c :: (slashes ++ back)) =
      front.dropWhile isBlank ++ [c] ++ slashes := by
    rw [trim, hstart, trimEnd, Text.dropEndWhile_append_of_pos hback,
      Text.dropEndWhile_eq_self hlast]
  have hnotSlash : c ≠ '/' := by
    intro hc
    rw [hc] at hblank
    cases hblank
  rw [bare, htrim, Text.dropEndWhile_append_of_pos (by simpa using hslashes),
    Text.dropEndWhile_eq_self (by simpa using hnotSlash)]

section solid

variable {raw : List Char} (hsolid : ∃ c ∈ raw, isBlank c = false ∧ c ≠ '/')

include hsolid

theorem bare_ne_nil : bare raw ≠ [] := by
  obtain ⟨c, hc, hblank, hslash⟩ := hsolid
  have hmem : c ∈ bare raw :=
    Text.mem_dropEndWhile (Text.mem_dropEndWhile (Text.mem_dropWhile hc hblank) hblank)
      (by simpa using hslash)
  exact List.ne_nil_of_mem hmem

/-- The base ends as what is left of the text does. -/
theorem getLast?_normalizeAddress : (normalizeAddress raw).getLast? = (bare raw).getLast? := by
  rw [normalizeAddress_eq]
  by_cases hmark : contains schemeMark (bare raw) = true
  · rw [if_pos hmark]
  · rw [if_neg hmark, List.getLast?_append_of_ne_nil _ (bare_ne_nil hsolid)]

/-- A blank that slashes cover is the last character that is left. -/
theorem HidesBlank.laid_bare (h : HidesBlank raw) :
    ∃ c ∈ (bare raw).getLast?, isBlank c = true := by
  obtain ⟨front, c, slashes, back, rfl, hblank, hne, hslashes, hback⟩ := h
  have hsome : front.dropWhile isBlank ≠ [] := by
    intro hnil
    have hfront := List.dropWhile_eq_nil_iff.mp hnil
    obtain ⟨x, hx, hnotBlank, hnotSlash⟩ := hsolid
    simp only [List.mem_append, List.mem_cons] at hx
    rcases hx with hx | rfl | hx | hx
    · simp [hfront x hx] at hnotBlank
    · simp [hblank] at hnotBlank
    · exact hnotSlash (hslashes x hx)
    · simp [hback x hx] at hnotBlank
  refine ⟨c, ?_, hblank⟩
  rw [bare_covered hsome hblank hne hslashes hback, List.getLast?_concat]
  rfl

end solid

/-! ## The base of all addresses -/

theorem toList_baseAddress (raw : String) :
    (baseAddress raw).toList = normalizeAddress raw.toList := String.toList_ofList

/-- Of a text with more in it than blanks and slashes, the base names a scheme, starts with no blank
    and does not end in a slash. It does not end in a blank either, and normalizing it again leaves
    it alone, exactly if no blank is hidden before the slashes at the end. -/
theorem base_normal_iff {raw : String} (hsolid : ∃ c ∈ raw.toList, isBlank c = false ∧ c ≠ '/') :
    schemeMark <:+: (baseAddress raw).toList ∧
    (∀ c ∈ (baseAddress raw).toList.head?, isBlank c = false) ∧
    (∀ c ∈ (baseAddress raw).toList.getLast?, c ≠ '/') ∧
    ((∀ c ∈ (baseAddress raw).toList.getLast?, isBlank c = false) ↔ ¬ HidesBlank raw.toList) ∧
    (baseAddress (baseAddress raw) = baseAddress raw ↔ ¬ HidesBlank raw.toList) := by
  have hagain : baseAddress (baseAddress raw) = baseAddress raw ↔
      normalizeAddress (normalizeAddress raw.toList) = normalizeAddress raw.toList := by
    rw [← String.toList_inj, toList_baseAddress, toList_baseAddress]
  have hmark := schemeMark_infix_normalizeAddress raw.toList
  have hslash : ∀ c ∈ (normalizeAddress raw.toList).getLast?, c ≠ '/' := by
    intro c hc
    rw [getLast?_normalizeAddress hsolid] at hc
    simpa using Text.of_mem_getLast?_dropEndWhile hc
  have hblank : (∀ c ∈ (normalizeAddress raw.toList).getLast?, isBlank c = false) ↔
      ¬ HidesBlank raw.toList := by
    rw [getLast?_normalizeAddress hsolid]
    constructor
    · intro hends hhides
      obtain ⟨c, hc, hblank⟩ := hhides.laid_bare hsolid
      rw [hends c hc] at hblank
      cases hblank
    · intro hshown c hc
      rw [← Bool.not_eq_true]
      exact fun hblank => hshown (hidesBlank_of_laid_bare hc hblank)
  rw [hagain, toList_baseAddress, normalizeAddress_eq_self_iff, ← hblank]
  refine ⟨hmark, fun c => of_mem_head?_normalizeAddress, hslash, Iff.rfl, ?_⟩
  constructor
  · intro hnormal
    exact hnormal.ends
  · intro hends
    exact ⟨hmark, fun c => of_mem_head?_normalizeAddress, hends, hslash⟩

/-- Blanks around the address and slashes at its end hide nothing. -/
theorem base_normal_iff_of_padded :
    (∃ c ∈ " oracle:8080// ".toList, isBlank c = false ∧ c ≠ '/') ∧
      baseAddress " oracle:8080// " = "http://oracle:8080" ∧
      baseAddress "http://oracle:8080" = "http://oracle:8080" ∧
      ¬ HidesBlank " oracle:8080// ".toList ∧
      ∀ c ∈ "http://oracle:8080".toList.getLast?, isBlank c = false := by
  have hsolid : ∃ c ∈ " oracle:8080// ".toList, isBlank c = false ∧ c ≠ '/' :=
    ⟨'o', by decide, by decide, by decide⟩
  have hbase : baseAddress " oracle:8080// " = "http://oracle:8080" := by decide +kernel
  have hagain : baseAddress "http://oracle:8080" = "http://oracle:8080" := by decide +kernel
  obtain ⟨-, -, -, hends, hnormal⟩ := base_normal_iff hsolid
  rw [hbase] at hends hnormal
  have hshown := hnormal.mp hagain
  exact ⟨hsolid, hbase, hagain, hshown, hends.mpr hshown⟩

/-- A blank before a slash at the end stays at the end of the base, and normalizing once more takes
    it away. -/
theorem covered_blank_stays :
    (∃ c ∈ "http://oracle:8080 /".toList, isBlank c = false ∧ c ≠ '/') ∧
      baseAddress "http://oracle:8080 /" = "http://oracle:8080 " ∧
      (∃ c ∈ (baseAddress "http://oracle:8080 /").toList.getLast?, isBlank c = true) ∧
      baseAddress (baseAddress "http://oracle:8080 /") ≠ baseAddress "http://oracle:8080 /" := by
  have hbase : baseAddress "http://oracle:8080 /" = "http://oracle:8080 " := by decide +kernel
  have hagain : baseAddress "http://oracle:8080 " = "http://oracle:8080" := by decide +kernel
  refine ⟨⟨'h', by decide, by decide, by decide⟩, hbase, ?_, ?_⟩
  · rw [hbase]
    exact ⟨' ', by decide +kernel, by decide⟩
  · rw [hbase, hagain]
    decide

end Oracle

end LoyaltyPoints
