/-! # Url: names outside ASCII

    A label with characters outside ASCII is written with ASCII letters and digits alone: its ASCII
    characters come first, and then, in the order of their code points, where the others belong. -/

namespace LoyaltyPoints.Url.Punycode

/-- The digit of a number below 36. -/
def digit (d : Nat) : Char := if d < 26 then Char.ofNat (0x61 + d) else Char.ofNat (0x16 + d)

/-- The lowest digit that does not end a number, at this place. -/
def threshold (place bias : Nat) : Nat := Nat.min 26 (Nat.max 1 (place - bias))

/-- Halves a distance until it is small, and counts the places that this takes. -/
def shrink (delta place : Nat) : Nat × Nat :=
  if 455 < delta then shrink (delta / 35) (place + 36) else (delta, place)
termination_by delta
decreasing_by exact Nat.div_lt_self (by omega) (by omega)

/-- The bias after a distance; `count` characters are written by then. -/
def adapt (delta count : Nat) (first : Bool) : Nat :=
  let delta := if first then delta / 700 else delta / 2
  let (delta, place) := shrink (delta + delta / count) 0
  place + 36 * delta / (delta + 38)

/-- A distance as a number whose last digit is below the threshold of its place. -/
def distance (bias place q : Nat) : List Char :=
  let t := threshold place bias
  if q < t then [digit q]
  else digit (t + (q - t) % (36 - t)) :: distance bias (place + 36) ((q - t) / (36 - t))
termination_by q
decreasing_by
  have : 1 ≤ threshold place bias := by
    unfold threshold; exact Nat.le_min.mpr ⟨by omega, Nat.le_max_left ..⟩
  exact Nat.lt_of_le_of_lt (Nat.div_le_self ..) (by omega)

/-- A label that is partly written. -/
structure Progress where
  /-- How far the next character is. -/
  delta : Nat
  bias : Nat
  /-- The number of characters that are written. -/
  count : Nat
  written : List Char

/-- Goes over one character while the characters with code point `point` are written. -/
def visit (basic point : Nat) (p : Progress) (c : Char) : Progress :=
  if c.toNat < point then { p with delta := p.delta + 1 }
  else if c.toNat = point then
    { delta := 0, bias := adapt p.delta (p.count + 1) (p.count == basic), count := p.count + 1
      written := p.written ++ distance p.bias 36 p.delta }
  else p

/-- Writes the characters with each of these code points, in ascending order. -/
def writeAll (label : List Char) (basic : Nat) : (next : Nat) → List Nat → Progress → Progress
  | _, [], p => p
  | next, point :: points, p =>
    let p := { p with delta := p.delta + (point - next) * (p.count + 1) }
    let p := label.foldl (visit basic point) p
    writeAll label basic (point + 1) points { p with delta := p.delta + 1 }

/-- Whether a character is in ASCII. -/
def isBasic (c : Char) : Bool := c.toNat < 0x80

/-- A label in ASCII. -/
def encodeLabel (label : List Char) : List Char :=
  if label.all isBasic then label else
    let basic := label.filter isBasic
    let points := ((label.filter (!isBasic ·)).map Char.toNat).mergeSort.eraseDups
    let p := writeAll label basic.length 0x80 points ⟨0, 72, basic.length, []⟩
    "xn--".toList ++ basic ++ (if basic.isEmpty then [] else ['-']) ++ p.written

end LoyaltyPoints.Url.Punycode
