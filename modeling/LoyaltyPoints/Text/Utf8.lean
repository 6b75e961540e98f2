/-! # Text: UTF-8

    A text as bytes, and bytes as symbols: a character stands where its bytes do, and a byte that
    belongs to no character stands for itself. -/

namespace LoyaltyPoints.Text

/-- The bytes of a text. -/
def utf8 (cs : List Char) : List UInt8 := cs.flatMap String.utf8EncodeChar

/-- The bits of a continuation byte. -/
def lowBits (b : UInt8) : Nat := b.toNat % 0x40

/-- The number that the bytes in front spell, if the first one announces enough of them. -/
def spelled : List UInt8 → Nat
  | a :: b :: c :: d :: _ =>
    if a < 0x80 then a.toNat
    else if a < 0xE0 then a.toNat % 0x20 * 0x40 + lowBits b
    else if a < 0xF0 then (a.toNat % 0x10 * 0x40 + lowBits b) * 0x40 + lowBits c
    else ((a.toNat % 0x08 * 0x40 + lowBits b) * 0x40 + lowBits c) * 0x40 + lowBits d
  | _ => 0

/-- The character whose bytes stand in front. -/
def leading? (bs : List UInt8) : Option Char :=
  let c := Char.ofNat (spelled (bs ++ [0, 0, 0]))
  if (String.utf8EncodeChar c).isPrefixOf bs then some c else none

/-- The symbols of a text, after as many bytes as `skip` says. -/
def symbolsFrom : (skip : Nat) → List UInt8 → List (Option Char)
  | _, [] => []
  | skip + 1, _ :: bs => symbolsFrom skip bs
  | 0, b :: bs =>
    match leading? (b :: bs) with
    | some c => some c :: symbolsFrom (c.utf8Size - 1) bs
    | none => none :: symbolsFrom 0 bs

/-- The symbols of a text: its characters, and `none` for each byte that belongs to none. -/
def symbols (bs : List UInt8) : List (Option Char) := symbolsFrom 0 bs

/-- The characters of bytes that are a text. -/
def ofUtf8? (bs : List UInt8) : Option (List Char) := (symbols bs).mapM id

end LoyaltyPoints.Text
