import LoyaltyPoints.Text.Digits

/-! # UUIDs

    A UUID is a number of 128 bits. It is written as 32 lower-case hexadecimal digits in five
    groups, and read in that form, without hyphens, in braces or behind `urn:uuid:`, in any case of
    digits. UUIDs are ordered as their bytes are. -/

namespace LoyaltyPoints

/-- A UUID. -/
structure Uuid where
  value : Nat
  value_lt : value < Nat.pow 2 128
deriving DecidableEq

namespace Uuid

open Text (hexDigits hexNumber?)

/-- The UUID with these low 128 bits. -/
def ofNat (n : Nat) : Uuid := ⟨n % Nat.pow 2 128, Nat.mod_lt _ (by decide)⟩

instance : Inhabited Uuid := ⟨ofNat 0⟩

/-- Byte order. -/
def compare (a b : Uuid) : Ordering := Ord.compare a.value b.value

/-- The written form. -/
def toChars (u : Uuid) : List Char :=
  let ds := hexDigits 32 u.value
  ds.take 8 ++ '-' :: ((ds.drop 8).take 4 ++ '-' :: ((ds.drop 12).take 4 ++
    '-' :: ((ds.drop 16).take 4 ++ '-' :: ds.drop 20)))

/-- The written form. -/
def toText (u : Uuid) : String := String.ofList u.toChars

/-- The UUID of exactly 32 hexadecimal digits. -/
def ofDigits? (cs : List Char) : Option Uuid :=
  if cs.length = 32 then
    (hexNumber? cs).bind fun n => if h : n < Nat.pow 2 128 then some ⟨n, h⟩ else none
  else none

/-- The UUID of five groups with hyphens between them. -/
def ofGroups? (cs : List Char) : Option Uuid :=
  if cs.length = 36 ∧ cs[8]? = some '-' ∧ cs[13]? = some '-' ∧ cs[18]? = some '-' ∧
      cs[23]? = some '-' then
    ofDigits? (cs.take 8 ++ (cs.drop 9).take 4 ++ (cs.drop 14).take 4 ++ (cs.drop 19).take 4 ++
      cs.drop 24)
  else none

/-- What stands in front of a UUID that is written as a name. -/
def urn : List Char := ['u', 'r', 'n', ':', 'u', 'u', 'i', 'd', ':']

/-- Reads a UUID in any of its forms. -/
def ofChars? (cs : List Char) : Option Uuid :=
  if cs.length = 32 then ofDigits? cs
  else if cs.length = 36 then ofGroups? cs
  else if cs.length = 38 ∧ cs.head? = some '\x7b' ∧ cs.getLast? = some '\x7d' then
    ofGroups? ((cs.drop 1).take 36)
  else if cs.length = 45 ∧ cs.take 9 = urn then ofGroups? (cs.drop 9)
  else none

/-- Reads a UUID in any of its forms. -/
def ofText? (s : String) : Option Uuid := ofChars? s.toList

end Uuid

end LoyaltyPoints
