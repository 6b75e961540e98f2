import Mathlib
import LoyaltyPoints.Oracle.Client

/-! # Oracle: the address of an order

    An order is asked for below the address of the oracle. Whatever is written in that address
    (ports, user names, escapes, `.` and `..`), reading the longer text gives the same url with a
    longer path, as long as the address stops with its path. -/

namespace LoyaltyPoints.Url

/-! ## Segments -/

theorem splitAll_ne_nil (p : Char → Bool) (cs : List Char) : splitAll p cs ≠ [] := by
  cases cs with
  | nil => simp [splitAll]
  | cons c cs =>
    rw [splitAll]
    split
    · simp
    · split <;> simp

/-- A text is split on both sides of a mark. -/
theorem splitAll_append {p : Char → Bool} {c : Char} (hc : p c = true) (xs ys : List Char) :
    splitAll p (xs ++ c :: ys) = splitAll p xs ++ splitAll p ys := by
  induction xs with
  | nil => simp [splitAll, hc]
  | cons x xs ih =>
    rw [List.cons_append, splitAll, splitAll, ih]
    by_cases hx : p x = true
    · simp [hx]
    · obtain ⟨part, parts, hparts⟩ := List.exists_cons_of_ne_nil (splitAll_ne_nil p xs)
      simp [hx, hparts]

/-- What is no mark ends the last part. -/
theorem splitAll_concat {p : Char → Bool} {c : Char} (hc : p c = false) (xs : List Char) :
    ∃ parts part, splitAll p (xs ++ [c]) = parts ++ [part ++ [c]] := by
  induction xs with
  | nil => exact ⟨[], [], by simp [splitAll, hc]⟩
  | cons x xs ih =>
    obtain ⟨parts, part, hparts⟩ := ih
    rw [List.cons_append, splitAll, hparts]
    by_cases hx : p x = true
    · exact ⟨[] :: parts, part, by simp [hx]⟩
    · cases parts with
      | nil => exact ⟨[], x :: part, by simp [hx]⟩
      | cons first others => exact ⟨(x :: first) :: others, part, by simp [hx]⟩

/-- No mark is left in the parts. -/
theorem not_mark_of_mem_splitAll {p : Char → Bool} {cs part : List Char}
    (hpart : part ∈ splitAll p cs) : ∀ c ∈ part, p c = false := by
  induction cs generalizing part with
  | nil =>
    obtain rfl : part = [] := by simpa [splitAll] using hpart
    nofun
  | cons x xs ih =>
    rw [splitAll] at hpart
    obtain ⟨first, others, hparts⟩ := List.exists_cons_of_ne_nil (splitAll_ne_nil p xs)
    by_cases hx : p x = true
    · rw [if_pos hx] at hpart
      rcases List.mem_cons.mp hpart with rfl | hpart
      · nofun
      · exact ih hpart
    · rw [if_neg hx, hparts] at hpart
      rcases List.mem_cons.mp hpart with rfl | hpart
      · intro c hc
        rcases List.mem_cons.mp hc with rfl | hc
        · simpa using hx
        · exact ih (by rw [hparts]; exact List.mem_cons_self) c hc
      · exact ih (by rw [hparts]; exact List.mem_cons_of_mem _ hpart)

/-- All segments but the last are entered. -/
theorem resolve_append (above xs : List (List Char)) {ys : List (List Char)} (hys : ys ≠ []) :
    resolve above (xs ++ ys) = resolve (xs.foldl enter above) ys := by
  induction xs generalizing above with
  | nil => rfl
  | cons x xs ih =>
    obtain ⟨y, zs, hzs⟩ := List.exists_cons_of_ne_nil (l := xs ++ ys) (by simp [hys])
    rw [List.cons_append, hzs, resolve, ← hzs, ih, List.foldl_cons]
    simp

/-! ## Escapes -/

theorem escape_of_forall {p : Char → Bool} {cs : List Char} (h : ∀ c ∈ cs, p c = false) :
    escape p cs = cs := by
  induction cs with
  | nil => rfl
  | cons c cs ih =>
    rw [List.forall_mem_cons] at h
    have hrest := ih h.2
    rw [escape] at hrest ⊢
    simp [h.1, hrest]

theorem slash_not_mem_escapeByte (b : UInt8) : '/' ∉ escapeByte b := by
  have hdigit : ∀ n < 16, Text.hexDigit true n ≠ '/' := by decide
  have hb := b.toNat_lt
  simp [escapeByte, (hdigit (b.toNat / 16) (by omega)).symm,
    (hdigit (b.toNat % 16) (by omega)).symm]

/-- No slash is made by an escape. -/
theorem slash_not_mem_escape {p : Char → Bool} {cs : List Char} (h : '/' ∉ cs) :
    '/' ∉ escape p cs := by
  rw [escape, List.mem_flatMap]
  rintro ⟨c, hc, hmem⟩
  split at hmem
  · obtain ⟨b, -, hb⟩ := List.mem_flatMap.mp hmem
    exact slash_not_mem_escapeByte b hb
  · rw [List.mem_singleton] at hmem
    exact h (hmem ▸ hc)

theorem escape_ne_nil {p : Char → Bool} {cs : List Char} (h : cs ≠ []) : escape p cs ≠ [] := by
  obtain ⟨c, cs, rfl⟩ := List.exists_cons_of_ne_nil h
  rw [escape, List.flatMap_cons]
  split
  · cases hbytes : String.utf8EncodeChar c with
    | nil => exact absurd hbytes (by simp)
    | cons b bytes => simp [escapeByte]
  · simp

/-! ## Names that stand for themselves -/

/-- A segment that is neither escaped nor resolved. -/
structure IsPlain (segment : List Char) : Prop where
  unescaped : ∀ c ∈ segment, isPathEscaped c = false
  unmarked : ∀ c ∈ segment, c ≠ '/' ∧ c ≠ '\\'
  not_above : isAbove segment = false
  not_here : isHere segment = false

theorem isPlain_of_all {segment : List Char}
    (h : segment.all (fun c => !isPathEscaped c && c != '/' && c != '\\') = true)
    (habove : isAbove segment = false) (hhere : isHere segment = false) : IsPlain segment := by
  simp only [List.all_eq_true, Bool.and_eq_true, Bool.not_eq_true', bne_iff_ne, ne_eq] at h
  exact ⟨fun c hc => (h c hc).1.1, fun c hc => ⟨(h c hc).1.2, (h c hc).2⟩, habove, hhere⟩

theorem mem_of_isDigit {c : Char} (h : c.isDigit = true) :
    c ∈ ['0', '1', '2', '3', '4', '5', '6', '7', '8', '9'] := by
  simp only [Char.isDigit, Bool.and_eq_true, decide_eq_true_eq, ge_iff_le,
    UInt32.le_iff_toNat_le] at h
  have hlow : 48 ≤ c.toNat := h.1
  have hhigh : c.toNat ≤ 57 := h.2
  have hc : c = Char.ofNat c.toNat := (Char.ofNat_toNat c).symm
  interval_cases c.toNat <;> simp [hc]

/-- What holds of the ten digits holds of all of a number. -/
theorem forall_of_digits {q : Char → Bool} {segment : List Char}
    (hq : ['0', '1', '2', '3', '4', '5', '6', '7', '8', '9'].all q = true)
    (h : ∀ c ∈ segment, c.isDigit = true) : ∀ c ∈ segment, q c = true :=
  fun c hc => List.all_eq_true.mp hq c (mem_of_isDigit (h c hc))

/-- A number is plain. -/
theorem isPlain_of_digits {segment : List Char} (h : ∀ c ∈ segment, c.isDigit = true) :
    IsPlain segment := by
  have hlower : Text.asciiLower segment = segment := by
    have hsame := forall_of_digits (q := fun c => c.toLower == c) (by decide) h
    exact (List.map_congr_left fun c hc => beq_iff_eq.mp (hsame c hc)).trans (List.map_id segment)
  -- The names of the dots begin with what is no digit.
  have hother : ∀ {cs : List Char}, cs.head?.any (!·.isDigit) = true → segment ≠ cs := by
    rintro _ hhead rfl
    obtain ⟨c, hc, hdigit⟩ := (Option.any_eq_true _ _).mp hhead
    rw [h c (List.mem_of_mem_head? hc)] at hdigit
    cases hdigit
  refine isPlain_of_all (List.all_eq_true.mpr (forall_of_digits (by decide) h)) ?_ ?_
  · rw [isAbove, hlower, Bool.eq_false_iff]
    intro hmem
    have hnames : ∀ s ∈ ["..", ".%2e", "%2e.", "%2e%2e"],
        s.toList.head?.any (!·.isDigit) = true := by
      simp only [List.forall_mem_cons]
      decide
    have hname := hnames _ (List.contains_iff_mem.mp hmem)
    rw [String.toList_ofList] at hname
    exact hother hname rfl
  · rw [isHere, hlower, Bool.eq_false_iff]
    intro hmem
    rcases List.mem_cons.mp (List.contains_iff_mem.mp hmem) with hhere | hhere
    · exact hother (by decide) hhere
    · exact hother (by decide) (List.mem_singleton.mp hhere)

/-! ## Longer paths -/

/-- The text of a path. -/
def joined (segments : List (List Char)) : List Char := segments.flatMap ('/' :: ·)

/-- What a longer path begins with: a slash at the end is the place below. -/
def folder (path : List Char) : List Char :=
  if path.getLast? = some '/' then path.dropLast else path

section path

variable {port : ℕ} {names : List (List Char)}

/-- Plain segments are split as they were joined. -/
theorem splitAll_joined {name : List Char} (h : ∀ x ∈ name :: names, IsPlain x) :
    splitAll (Kind.special port).isSlash (name ++ joined names) = name :: names := by
  have hsingle : ∀ {x : List Char}, IsPlain x → splitAll (Kind.special port).isSlash x = [x] := by
    intro x hx
    have hunmarked : ∀ c ∈ x, (Kind.special port).isSlash c = false := fun c hc => by
      simpa [Kind.isSlash] using hx.unmarked c hc
    clear hx
    induction x with
    | nil => rfl
    | cons c cs ih =>
      rw [List.forall_mem_cons] at hunmarked
      rw [splitAll, if_neg (by simp [hunmarked.1]), ih hunmarked.2]
  induction names generalizing name with
  | nil => rw [joined, List.flatMap_nil, List.append_nil, hsingle (h name (by simp))]
  | cons next names ih =>
    rw [joined, List.flatMap_cons, List.cons_append, splitAll_append (by simp [Kind.isSlash]),
      hsingle (h name (by simp))]
    exact congrArg _ (ih fun x hx => h x (List.mem_cons_of_mem _ hx))

/-- Plain segments are entered one after another. -/
theorem resolve_plain {above : List (List Char)} (h : ∀ x ∈ names, IsPlain x) :
    resolve above names = names.reverse ++ above := by
  induction names generalizing above with
  | nil => rfl
  | cons name names ih =>
    rw [List.forall_mem_cons] at h
    cases names with
    | nil => simp [resolve, h.1.not_above, h.1.not_here]
    | cons next names =>
      rw [resolve, ih h.2, enter, if_neg (by simp [h.1.not_above]), if_neg (by simp [h.1.not_here])]
      · simp
      · simp

theorem map_escape_plain (h : ∀ x ∈ names, IsPlain x) : names.map (escape isPathEscaped) = names :=
  (List.map_congr_left fun x hx => escape_of_forall (h x hx).unescaped).trans (List.map_id names)

/-- The segments of a path, before any that are added. -/
def entered (cs : List Char) (port : ℕ) : List (List Char) :=
  ((splitAll (Kind.special port).isSlash cs).map (escape isPathEscaped)).foldl enter []

theorem pathText_special (segments : List (List Char)) :
    pathText (.special port) segments =
      joined (resolve [] (segments.map (escape isPathEscaped))).reverse := by
  rw [pathText, if_neg nofun, joined]

theorem pathText_append {cs name : List Char} (h : ∀ x ∈ name :: names, IsPlain x) :
    pathText (.special port)
        (splitAll (Kind.special port).isSlash cs ++ name :: names) =
      joined (entered cs port).reverse ++ joined (name :: names) := by
  rw [pathText_special, List.map_append, map_escape_plain h, resolve_append _ _ (by simp),
    resolve_plain h]
  simp [joined, entered]

/-- A path that does not end in a slash is what is added to, but for a slash that a dot has left. -/
theorem folder_pathText {cs : List Char} {c : Char} (hc : (Kind.special port).isSlash c = false) :
    folder (pathText (.special port) (splitAll (Kind.special port).isSlash (cs ++ [c]))) =
      joined (entered (cs ++ [c]) port).reverse := by
  obtain ⟨parts, part, hparts⟩ := splitAll_concat hc cs
  have hnone : '/' ∉ part ++ [c] := by
    intro hslash
    have hmark := not_mark_of_mem_splitAll
      (hparts ▸ List.mem_append_right _ (List.mem_singleton_self _)) _ hslash
    simp [Kind.isSlash] at hmark
  rw [pathText_special, entered, hparts, List.map_append, List.map_singleton,
    resolve_append _ _ (List.cons_ne_nil _ _), List.foldl_append, List.foldl_cons, List.foldl_nil]
  have hsegment := slash_not_mem_escape (p := isPathEscaped) hnone
  have hne : escape isPathEscaped (part ++ [c]) ≠ [] := escape_ne_nil (by simp)
  generalize escape isPathEscaped (part ++ [c]) = segment at hsegment hne
  generalize (parts.map (escape isPathEscaped)).foldl enter [] = above
  by_cases hdots : (isAbove segment || isHere segment) = true
  · rw [resolve, if_pos hdots]
    simp [folder, joined]
  · rw [resolve, if_neg hdots]
    simp only [Bool.or_eq_true, not_or] at hdots
    rw [enter, if_neg hdots.1, if_neg hdots.2]
    have hlast : (joined (segment :: above).reverse).getLast? ≠ some '/' := by
      obtain ⟨d, hd⟩ : ∃ d, segment.getLast? = some d := ⟨_, List.getLast?_eq_some_getLast hne⟩
      rw [joined, List.reverse_cons, List.flatMap_append, List.flatMap_singleton,
        List.append_cons, List.getLast?_append_of_ne_nil _ hne, hd]
      rintro ⟨⟩
      exact hsegment (List.mem_of_getLast? hd)
    rw [folder, if_neg hlast]

/-- Plain segments lengthen a path. -/
theorem pathOf_append {cs : List Char} (h : ∀ x ∈ names, IsPlain x) (hne : names ≠ [])
    (hfirst : ∀ c, cs.head? = some c → (Kind.special port).isSlash c = true)
    (hlast : ∀ c, cs.getLast? = some c → (Kind.special port).isSlash c = false) :
    pathOf (.special port) (cs ++ joined names) =
      folder (pathOf (.special port) cs) ++ joined names := by
  obtain ⟨name, names, rfl⟩ := List.exists_cons_of_ne_nil hne
  have hslash : (Kind.special port).isSlash '/' = true := by simp [Kind.isSlash]
  cases cs with
  | nil =>
    have hroot : folder (pathOf (.special port) []) = [] := by simp [pathOf, folder]
    rw [hroot, List.nil_append]
    rw [joined, List.flatMap_cons, List.cons_append, pathOf, if_pos hslash, ← joined,
      splitAll_joined h, pathText_special, map_escape_plain h, resolve_plain h,
      List.append_nil, List.reverse_reverse]
    rfl
  | cons c rest =>
    have hc := hfirst c rfl
    obtain ⟨front, d, rfl⟩ : ∃ front d, rest = front ++ [d] := by
      rcases List.eq_nil_or_concat' rest with rfl | hrest
      · rw [hlast c rfl] at hc
        cases hc
      · exact hrest
    have hd : (Kind.special port).isSlash d = false := by
      refine hlast d ?_
      rw [← List.cons_append]
      exact List.getLast?_concat
    have hlong : pathOf (.special port) (c :: (front ++ [d]) ++ joined (name :: names)) =
        pathText (.special port)
          (splitAll (Kind.special port).isSlash (front ++ [d]) ++ name :: names) := by
      rw [List.cons_append, pathOf, if_pos hc, joined, List.flatMap_cons, List.cons_append,
        splitAll_append hslash, ← joined, splitAll_joined h]
    have hshort : pathOf (.special port) (c :: (front ++ [d])) =
        pathText (.special port) (splitAll (Kind.special port).isSlash (front ++ [d])) := by
      rw [pathOf, if_pos hc]
    rw [hlong, hshort, folder_pathText hd, pathText_append h]

end path

/-! ## The tail -/

theorem splitMark_of_not_mem {mark : Char} {cs : List Char} (h : mark ∉ cs) :
    splitMark mark cs = (cs, none) := by
  have hall : ∀ c ∈ cs, decide (c ≠ mark) = true := by
    intro c hc
    rw [decide_eq_true_eq]
    rintro rfl
    exact h hc
  rw [splitMark, Text.spanWhile, List.takeWhile_eq_self_iff.mpr hall,
    List.dropWhile_eq_nil_iff.mpr hall]

theorem not_mem_of_splitMark {mark : Char} {cs : List Char} (h : (splitMark mark cs).2 = none) :
    mark ∉ cs := by
  intro hmem
  have hdrop : cs.dropWhile (fun c => decide (c ≠ mark)) ≠ [] := by
    rw [ne_eq, List.dropWhile_eq_nil_iff]
    intro hall
    simpa using hall mark hmem
  obtain ⟨c, rest, hrest⟩ := List.exists_cons_of_ne_nil hdrop
  rw [splitMark, Text.spanWhile, hrest] at h
  cases h

/-- Where there is neither query nor fragment, all of the text is path. -/
theorem withTail_of_not_mem {cs : List Char} (hquery : '?' ∉ cs) (hfragment : '#' ∉ cs)
    (kind : Kind) (front : Url) (readPath : List Char → List Char) :
    withTail kind front readPath cs =
      { front with path := readPath cs, query := none, fragment := none } := by
  simp [withTail, splitMark_of_not_mem hfragment, splitMark_of_not_mem hquery]

theorem not_mem_of_withTail {kind : Kind} {front : Url} {readPath : List Char → List Char}
    {cs : List Char} (hquery : (withTail kind front readPath cs).query = none)
    (hfragment : (withTail kind front readPath cs).fragment = none) : '?' ∉ cs ∧ '#' ∉ cs := by
  have hnoFragment : '#' ∉ cs := not_mem_of_splitMark (by simpa [withTail] using hfragment)
  refine ⟨not_mem_of_splitMark ?_, hnoFragment⟩
  simpa [withTail, splitMark_of_not_mem hnoFragment] using hquery

/-! ## The front -/

/-- A run that stops before the end of a text stops there in any longer text. -/
theorem spanWhile_append {p : Char → Bool} {cs more : List Char}
    (h : cs.dropWhile p ≠ [] ∨ more.takeWhile p = []) :
    Text.spanWhile p (cs ++ more) = (cs.takeWhile p, cs.dropWhile p ++ more) := by
  have hparts := List.takeWhile_append_dropWhile (p := p) (l := cs)
  rw [Text.spanWhile, List.takeWhile_append, List.dropWhile_append]
  by_cases hdrop : cs.dropWhile p = []
  · have hmore := h.resolve_left (not_not.mpr hdrop)
    have hstop := List.takeWhile_append_dropWhile (p := p) (l := more)
    rw [hmore, List.nil_append] at hstop
    rw [hdrop, List.append_nil] at hparts
    rw [if_pos (by rw [hparts]), if_pos (List.isEmpty_iff.mpr hdrop), hmore, hstop, hparts, hdrop,
      List.append_nil, List.nil_append]
  · have hlength : (cs.takeWhile p).length ≠ cs.length := by
      intro hlength
      have hsum := congrArg List.length hparts
      rw [List.length_append, hlength] at hsum
      exact hdrop (List.eq_nil_of_length_eq_zero (by omega))
    rw [if_neg hlength, if_neg (mt List.isEmpty_iff.mp hdrop)]

/-- What stands in front of a path, from the text of the authority. -/
def readFront (kind : Kind) (scheme text : List Char) : Except UrlError Url := do
  let (name, portText) := splitPort false (dropUser text)
  let host ← if kind = .plain then plainHost name else specialHost name
  if host.isEmpty ∧ (portText.isSome ∨ text.contains '@') then .error .emptyHost
  let port ← readPort kind (portText.getD [])
  return ⟨scheme, some host, port, [], none, none⟩

/-- Whether the authority ends here. -/
def endsAuthority (kind : Kind) (c : Char) : Bool := kind.isSlash c || c = '?' || c = '#'

theorem readAuthority_eq (kind : Kind) (scheme cs : List Char) :
    readAuthority kind scheme cs =
      (fun front => withTail kind front (pathOf kind) (cs.dropWhile (!endsAuthority kind ·))) <$>
        readFront kind scheme (cs.takeWhile (!endsAuthority kind ·)) := by
  show (do
    let (name, portText) := splitPort false (dropUser (cs.takeWhile (!endsAuthority kind ·)))
    let host ← if kind = Kind.plain then plainHost name else specialHost name
    if host.isEmpty ∧ (portText.isSome ∨
      (cs.takeWhile (!endsAuthority kind ·)).contains '@') then .error .emptyHost
    let port ← readPort kind (portText.getD [])
    return (withTail kind ⟨scheme, some host, port, [], none, none⟩ (pathOf kind)
      (cs.dropWhile (!endsAuthority kind ·)))) = _
  rw [readFront]
  generalize cs.takeWhile (!endsAuthority kind ·) = text
  generalize cs.dropWhile (!endsAuthority kind ·) = rest
  rcases splitPort false (dropUser text) with ⟨name, portText⟩
  dsimp only
  split
  all_goals
    rw [map_bind]
    refine bind_congr fun host => ?_
    split
    · rfl
    · rw [map_bind]
      rfl

/-- A url with nothing behind its path is read in the same way before its path, whatever is added
    to that. -/
theorem readAuthority_append {port : ℕ} {scheme cs more : List Char} {u : Url}
    (hread : readAuthority (.special port) scheme cs = .ok u) (hquery : u.query = none)
    (hfragment : u.fragment = none) (hmore : more.head? = some '/') (hq : '?' ∉ more)
    (hf : '#' ∉ more) :
    ∃ rest, rest <:+ cs ∧ u.path = pathOf (.special port) rest ∧
      (∀ c, rest.head? = some c → (Kind.special port).isSlash c = true) ∧
      readAuthority (.special port) scheme (cs ++ more) =
        .ok { u with path := pathOf (.special port) (rest ++ more) } := by
  rw [readAuthority_eq] at hread ⊢
  have hstop : more.takeWhile (!endsAuthority (.special port) ·) = [] := by
    obtain ⟨back, rfl⟩ := List.head?_eq_some_iff.mp hmore
    simp [endsAuthority, Kind.isSlash]
  obtain ⟨htext, hrest⟩ := Prod.mk.inj (spanWhile_append (.inr hstop))
  rw [htext, hrest]
  cases hfront : readFront (.special port) scheme
      (cs.takeWhile (!endsAuthority (.special port) ·)) with
  | error e =>
    rw [hfront] at hread
    cases hread
  | ok front =>
    rw [hfront] at hread
    obtain rfl : withTail _ front _ _ = u := Except.ok.inj hread
    obtain ⟨hnoQuery, hnoFragment⟩ := not_mem_of_withTail hquery hfragment
    refine ⟨cs.dropWhile (!endsAuthority (.special port) ·), List.dropWhile_suffix _, ?_, ?_, ?_⟩
    · rw [withTail_of_not_mem hnoQuery hnoFragment]
    · intro c hc
      have hends := List.head?_dropWhile_not (!endsAuthority (.special port) ·) cs
      rw [hc] at hends
      have hmem := List.mem_of_mem_head? hc
      have hquery : c ≠ '?' := fun h => hnoQuery (h ▸ hmem)
      have hfragment : c ≠ '#' := fun h => hnoFragment (h ▸ hmem)
      simpa [endsAuthority, hquery, hfragment] using hends
    · show Except.ok (withTail _ front _ _) = _
      rw [withTail_of_not_mem hnoQuery hnoFragment, withTail_of_not_mem]
      · simp [hnoQuery, hq]
      · simp [hnoFragment, hf]

/-! ## The whole -/

theorem dropEndWhile_concat {p : Char → Bool} {cs : List Char} {c : Char} (hc : p c = false) :
    Text.dropEndWhile p (cs ++ [c]) = cs ++ [c] := by
  simp [Text.dropEndWhile, hc]

theorem scheme?_append {cs scheme rest : List Char} (h : scheme? cs = some (scheme, rest))
    (more : List Char) : scheme? (cs ++ more) = some (scheme, rest ++ more) := by
  rw [scheme?] at h ⊢
  split at h
  · next c name behind hspan =>
    have hdrop : cs.dropWhile isSchemeChar = ':' :: behind := (Prod.mk.inj hspan).2
    have htake : cs.takeWhile isSchemeChar = c :: name := (Prod.mk.inj hspan).1
    rw [spanWhile_append (.inl (by simp [hdrop])), hdrop, htake]
    split at h
    · next halpha =>
      obtain ⟨rfl, rfl⟩ := Prod.mk.inj (Option.some.inj h)
      simp [halpha]
    · cases h
  · cases h

theorem ok_of_bind {ε α β : Type} {x : Except ε α} {f : α → Except ε β} {y : β}
    (h : x >>= f = .ok y) : ∃ a, x = .ok a ∧ f a = .ok y := by
  cases x with
  | error e => cases h
  | ok a => exact ⟨a, rfl, h⟩

theorem readFront_scheme {kind : Kind} {scheme text : List Char} {u : Url}
    (h : readFront kind scheme text = .ok u) : u.scheme = scheme := by
  rw [readFront] at h
  rcases splitPort false (dropUser text) with ⟨name, portText⟩
  dsimp only at h
  split at h
  all_goals
    obtain ⟨host, -, hhost⟩ := ok_of_bind h
    split at hhost
    · cases hhost
    · obtain ⟨port, -, hu⟩ := ok_of_bind hhost
      rw [← Except.ok.inj hu]

/-- A url has the scheme that its text begins with. -/
theorem readRest_scheme {kind : Kind} {scheme cs : List Char} {u : Url}
    (h : readRest kind scheme cs = .ok u) : u.scheme = scheme := by
  have hauthority : ∀ {kind : Kind} {cs : List Char}, readAuthority kind scheme cs = .ok u →
      u.scheme = scheme := by
    intro kind cs h
    rw [readAuthority_eq] at h
    obtain ⟨front, hfront, hu⟩ := ok_of_bind h
    rw [← readFront_scheme hfront, ← Except.ok.inj hu]
    rfl
  have hfile : ∀ cs, Except.ok (readRest.ofFilePath scheme cs) = Except.ok (ε := UrlError) u →
      u.scheme = scheme := by
    intro cs h
    rw [← Except.ok.inj h]
    rfl
  rw [readRest.eq_def] at h
  split at h
  · exact hauthority h
  · exact hauthority h
  · rw [← Except.ok.inj h]
    rfl
  · split at h
    · rw [readFile] at h
      dsimp only at h
      split at h
      all_goals
        obtain ⟨host, -, hu⟩ := ok_of_bind h
        rw [← Except.ok.inj hu]
        rfl
    · exact hfile _ h
  · exact hfile _ h

/-- What counts of a text that ends in no blank. -/
def significant (cs : List Char) : List Char := (cs.dropWhile isOuter).filter (!isIgnored ·)

section read

variable {cs scheme rest : List Char} {c : Char} {u : Url}

theorem dropWhile_concat (hc : isOuter c = false) :
    (cs ++ [c]).dropWhile isOuter = cs.dropWhile isOuter ++ [c] := by
  rw [List.dropWhile_append]
  split
  · next hempty =>
    rw [List.isEmpty_iff.mp hempty, List.nil_append]
    simp [hc]
  · rfl

theorem dropEndWhile_dropWhile (hc : isOuter c = false) :
    Text.dropEndWhile isOuter ((cs ++ [c]).dropWhile isOuter) = (cs ++ [c]).dropWhile isOuter := by
  rw [dropWhile_concat hc, dropEndWhile_concat hc]

theorem read_of_scheme? (hc : isOuter c = false)
    (h : scheme? (significant (cs ++ [c])) = some (scheme, rest)) :
    Url.read (String.ofList (cs ++ [c])) =
      readRest (.ofScheme (String.ofList scheme)) scheme rest := by
  rw [significant] at h
  rw [Url.read, String.toList_ofList, dropEndWhile_dropWhile hc]
  simp only [h]

theorem exists_scheme?_of_read (hc : isOuter c = false)
    (h : Url.read (String.ofList (cs ++ [c])) = .ok u) :
    ∃ scheme rest, scheme? (significant (cs ++ [c])) = some (scheme, rest) := by
  rw [Url.read, String.toList_ofList, dropEndWhile_dropWhile hc, ← significant] at h
  cases hscheme : scheme? (significant (cs ++ [c])) with
  | none =>
    simp only [hscheme] at h
    cases h
  | some parts => exact ⟨parts.1, parts.2, rfl⟩

theorem suffix_of_scheme? (h : scheme? cs = some (scheme, rest)) : rest <:+ cs := by
  rw [scheme?] at h
  split at h
  · next first name behind hspan =>
    have hdrop : cs.dropWhile isSchemeChar = ':' :: behind := (Prod.mk.inj hspan).2
    split at h
    · obtain ⟨-, rfl⟩ := Prod.mk.inj (Option.some.inj h)
      exact (List.suffix_cons ':' behind).trans (hdrop ▸ List.dropWhile_suffix _)
    · cases h
  · cases h

theorem isIgnored_of_not_isOuter (h : isOuter c = false) : isIgnored c = false := by
  rw [Bool.eq_false_iff]
  intro hignored
  simp only [isIgnored, List.contains_cons, List.contains_nil, Bool.or_false, Bool.or_eq_true,
    beq_iff_eq] at hignored
  rcases hignored with rfl | rfl | rfl <;> cases h

theorem getLast?_significant (hc : isOuter c = false) :
    (significant (cs ++ [c])).getLast? = some c := by
  rw [significant, dropWhile_concat hc, List.filter_append]
  simp [isIgnored_of_not_isOuter hc]

/-- What is added and holds no blank counts. -/
theorem significant_append {more : List Char} (hc : isOuter c = false)
    (hmore : ∀ x ∈ more, isOuter x = false) :
    significant (cs ++ [c] ++ more) = significant (cs ++ [c]) ++ more := by
  have hkept : more.filter (!isIgnored ·) = more :=
    List.filter_eq_self.mpr fun x hx => by
      rw [isIgnored_of_not_isOuter (hmore x hx), Bool.not_false]
  have hdrop : (cs ++ [c]).dropWhile isOuter ≠ [] := by
    rw [dropWhile_concat hc]
    exact List.concat_ne_nil _ _
  rw [significant, List.dropWhile_append, if_neg (mt List.isEmpty_iff.mp hdrop),
    List.filter_append, hkept, significant]

/-- What can stand in a path as it is counts, and ends no path. -/
theorem of_not_isPathEscaped (h : isPathEscaped c = false) :
    isOuter c = false ∧ c ≠ '?' ∧ c ≠ '#' := by
  simp only [isPathEscaped, isFragmentEscaped, isControl, Bool.or_eq_false_iff,
    decide_eq_false_iff_not, List.contains_eq_mem, List.mem_cons, List.not_mem_nil, or_false,
    not_or] at h
  refine ⟨?_, h.2.2.1, h.2.1⟩
  rw [isOuter, decide_eq_false_iff_not]
  intro hle
  have hblank : c.toNat = 0x20 := by omega
  refine h.1.2.1 ?_
  rw [← Char.ofNat_toNat c, hblank]

theorem of_mem_joined {names : List (List Char)} (hnames : ∀ x ∈ names, IsPlain x)
    (hc : c ∈ joined names) : isOuter c = false ∧ c ≠ '?' ∧ c ≠ '#' := by
  obtain ⟨x, hx, hmem⟩ := List.mem_flatMap.mp hc
  rcases List.mem_cons.mp hmem with rfl | hmem
  · decide
  · exact of_not_isPathEscaped ((hnames x hx).unescaped c hmem)

end read

/-- An address below which orders can be asked for: it is that of an `http` url, stops with the
    path, and ends in neither a blank nor a slash. -/
structure IsBase (u : Url) (base : String) : Prop where
  read : Url.read base = .ok u
  scheme : u.scheme = ['h', 't', 't', 'p']
  query : u.query = none
  fragment : u.fragment = none
  ending : ∀ c, base.toList.getLast? = some c → c ≠ '/' ∧ c ≠ '\\' ∧ isOuter c = false

/-- Below an address there is the same url, with plain segments behind its path. -/
theorem IsBase.read_append {u : Url} {base : String} (h : u.IsBase base)
    {names : List (List Char)} (hnames : ∀ x ∈ names, IsPlain x) (hne : names ≠ []) :
    Url.read (base ++ String.ofList (joined names)) =
      .ok { u with path := folder u.path ++ joined names } := by
  obtain ⟨cs, c, rfl⟩ : ∃ cs c, base = String.ofList (cs ++ [c]) := by
    rcases List.eq_nil_or_concat' base.toList with hnil | ⟨cs, c, hconcat⟩
    · obtain rfl : base = "" := String.toList_inj.mp hnil
      cases h.read
    · exact ⟨cs, c, by rw [← hconcat, String.ofList_toList]⟩
  obtain ⟨hslash, hbackslash, houter⟩ := h.ending c (by simp)
  obtain ⟨scheme, rest, hscheme⟩ := exists_scheme?_of_read houter h.read
  have hread := h.read
  rw [read_of_scheme? houter hscheme] at hread
  obtain rfl : scheme = ['h', 't', 't', 'p'] := by rw [← readRest_scheme hread, h.scheme]
  have hkind : Kind.ofScheme (String.ofList ['h', 't', 't', 'p']) = .special 80 := by decide
  rw [hkind, readRest] at hread
  -- There is a host, so that the slashes in front of it end inside of the address.
  have hhost : rest.dropWhile (Kind.special 80).isSlash ≠ [] := by
    intro hnil
    rw [hnil] at hread
    cases hread
  have hall := fun x => of_mem_joined (c := x) hnames
  obtain ⟨name, others, rfl⟩ := List.exists_cons_of_ne_nil hne
  obtain ⟨tail, hsuffix, hpath, hfirst, hlong⟩ := readAuthority_append hread h.query h.fragment
    rfl (fun hmem => (hall _ hmem).2.1 rfl) fun hmem => (hall _ hmem).2.2 rfl
  have hlast : ∀ x, tail.getLast? = some x → (Kind.special 80).isSlash x = false := by
    intro x hx
    obtain ⟨front, hfront⟩ := (hsuffix.trans (List.dropWhile_suffix _)).trans
      (suffix_of_scheme? hscheme)
    have hend : (significant (cs ++ [c])).getLast? = some c := getLast?_significant houter
    rw [← hfront, List.getLast?_append, hx] at hend
    obtain rfl : x = c := by simpa using hend
    simp [Kind.isSlash, hslash, hbackslash]
  -- The longer text is read by the same steps.
  obtain ⟨more, d, hconcat⟩ : ∃ more d, joined (name :: others) = more ++ [d] :=
    (List.eq_nil_or_concat' _).resolve_left (by simp [joined])
  have htext : String.ofList (cs ++ [c]) ++ String.ofList (joined (name :: others)) =
      String.ofList ((cs ++ [c] ++ more) ++ [d]) := by
    rw [← String.ofList_append, hconcat, ← List.append_assoc]
  have hd : isOuter d = false := (hall d (by simp [hconcat])).1
  have hscheme' : scheme? (significant ((cs ++ [c] ++ more) ++ [d])) =
      some (['h', 't', 't', 'p'], rest ++ joined (name :: others)) := by
    rw [List.append_assoc, ← hconcat, significant_append houter fun x hx => (hall x hx).1]
    exact scheme?_append hscheme _
  rw [htext, read_of_scheme? hd hscheme', hkind, readRest,
    (Prod.mk.inj (spanWhile_append (.inl hhost))).2, hlong, hpath,
    pathOf_append hnames hne hfirst hlast]

end LoyaltyPoints.Url
