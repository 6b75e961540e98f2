import LoyaltyPoints.Text.Digits
import LoyaltyPoints.Text.Utf8

/-! # Url: percent escapes

    A character that a part of a url does not admit is written as its UTF-8 bytes, each as `%` and
    two upper-case hexadecimal digits. A `%` that stands in the text already is kept. -/

namespace LoyaltyPoints.Url

/-- A byte as an escape. -/
def escapeByte (b : UInt8) : List Char :=
  ['%', Text.hexDigit true (b.toNat / 16), Text.hexDigit true (b.toNat % 16)]

/-- Escapes the characters of class `p`. -/
def escape (p : Char → Bool) (cs : List Char) : List Char :=
  cs.flatMap fun c => if p c then (String.utf8EncodeChar c).flatMap escapeByte else [c]

/-- The bytes of a text whose escapes are undone. -/
def unescape : List Char → List UInt8
  | [] => []
  | '%' :: a :: b :: cs =>
    match Text.hexValue? a, Text.hexValue? b with
    | some x, some y => UInt8.ofNat (16 * x + y) :: unescape cs
    | _, _ => 0x25 :: unescape (a :: b :: cs)
  | c :: cs => String.utf8EncodeChar c ++ unescape cs

/-! ## What each part escapes -/

/-- A control character, or one outside ASCII. -/
def isControl (c : Char) : Bool := c.toNat < 0x20 || 0x7F ≤ c.toNat

/-- What is escaped in a query. -/
def isQueryEscaped (c : Char) : Bool := isControl c || [' ', '"', '#', '<', '>'].contains c

/-- What is escaped in a query behind a special scheme. -/
def isSpecialQueryEscaped (c : Char) : Bool := isQueryEscaped c || c = '\''

/-- What is escaped in a fragment. -/
def isFragmentEscaped (c : Char) : Bool := isControl c || [' ', '"', '<', '>', '\x60'].contains c

/-- What is escaped in a path. -/
def isPathEscaped (c : Char) : Bool := isFragmentEscaped c || ['#', '?', '\x7b', '\x7d'].contains c

end LoyaltyPoints.Url
