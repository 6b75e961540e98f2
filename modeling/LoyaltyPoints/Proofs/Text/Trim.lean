import Mathlib
import LoyaltyPoints.Text.Blank

/-! # Text: what trims leave

    A trim stops at the first character that is not of its class: that one is the end of what is
    left. Nothing is lost but characters of the class, and a text that ends in none is left
    alone. -/

namespace LoyaltyPoints

namespace Text

/-! ## One end -/

variable {p : Char → Bool} {cs : List Char}

theorem of_mem_head?_dropWhile {c : Char} (h : c ∈ (cs.dropWhile p).head?) : p c = false := by
  have hstop := List.head?_dropWhile_not p cs
  rw [Option.mem_def.mp h] at hstop
  exact hstop

theorem of_mem_getLast?_dropEndWhile {c : Char} (h : c ∈ (dropEndWhile p cs).getLast?) :
    p c = false := by
  rw [dropEndWhile, List.getLast?_reverse] at h
  exact of_mem_head?_dropWhile h

theorem dropWhile_eq_self (h : ∀ c ∈ cs.head?, p c = false) : cs.dropWhile p = cs := by
  cases cs with
  | nil => rfl
  | cons c cs => simp [h c rfl]

theorem dropEndWhile_eq_self (h : ∀ c ∈ cs.getLast?, p c = false) : dropEndWhile p cs = cs := by
  rw [← List.head?_reverse] at h
  rw [dropEndWhile, dropWhile_eq_self h, List.reverse_reverse]

theorem dropEndWhile_isPrefix (p : Char → Bool) (cs : List Char) : dropEndWhile p cs <+: cs :=
  List.rdropWhile_prefix p cs

theorem dropEndWhile_append_of_pos {ds : List Char} (h : ∀ c ∈ ds, p c = true) :
    dropEndWhile p (cs ++ ds) = dropEndWhile p cs := by
  have hreverse : ∀ c ∈ ds.reverse, p c = true := fun c hc => h c (List.mem_reverse.mp hc)
  rw [dropEndWhile, List.reverse_append, List.dropWhile_append_of_pos hreverse, dropEndWhile]

/-- What is dropped at the end is of the class. -/
theorem exists_dropEndWhile_append (p : Char → Bool) (cs : List Char) :
    ∃ ds, dropEndWhile p cs ++ ds = cs ∧ ∀ c ∈ ds, p c = true :=
  ⟨cs.rtakeWhile p, cs.rdropWhile_append_rtakeWhile, fun _ hc => List.mem_rtakeWhile_imp hc⟩

theorem mem_dropWhile {c : Char} (h : c ∈ cs) (hc : p c = false) : c ∈ cs.dropWhile p := by
  rw [← List.takeWhile_append_dropWhile (p := p) (l := cs), List.mem_append] at h
  rcases h with htaken | hleft
  · rw [List.mem_takeWhile_imp htaken] at hc
    cases hc
  · exact hleft

theorem mem_dropEndWhile {c : Char} (h : c ∈ cs) (hc : p c = false) : c ∈ dropEndWhile p cs :=
  List.mem_reverse.mpr (mem_dropWhile (List.mem_reverse.mpr h) hc)

/-! ## Both ends -/

theorem trim_isPrefix_trimStart (cs : List Char) : trim cs <+: trimStart cs :=
  dropEndWhile_isPrefix isBlank _

theorem trim_eq_self (hstarts : ∀ c ∈ cs.head?, isBlank c = false)
    (hends : ∀ c ∈ cs.getLast?, isBlank c = false) : trim cs = cs := by
  rw [trim, trimStart, dropWhile_eq_self hstarts, trimEnd, dropEndWhile_eq_self hends]

end Text

end LoyaltyPoints
