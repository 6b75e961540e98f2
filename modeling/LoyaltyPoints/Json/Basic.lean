/-! # JSON: the tree of a document

    The tree keeps what a reader may still want to judge: a number stays the text it was written as,
    a string stays the list of its pieces, and the members of an object stay in order with their
    repetitions. A piece is a character as it stands, a byte that is no part of a character, or the
    number of a `\u` escape, which may be one half of a pair. -/

namespace LoyaltyPoints

/-- A number as it is written: sign, whole digits, places, and the exponent with its sign. -/
structure Json.Number where
  negative : Bool
  whole : List Char
  places : List Char := []
  exponent : Option (Bool × List Char) := none
deriving DecidableEq, Repr

/-- A piece of a string. -/
inductive Json.Piece where
  /-- A character, plain or behind a backslash. -/
  | char (c : Char)
  /-- A byte that is no part of a character. -/
  | stray
  /-- The number of a `\u` escape. -/
  | unit (n : Nat)
deriving DecidableEq, Repr

/-- A document. -/
inductive Json where
  | null
  | bool (b : Bool)
  | number (n : Json.Number)
  | text (pieces : List Json.Piece)
  | array (items : List Json)
  | object (members : List (List Json.Piece × Json))
deriving Inhabited

namespace Json

/-- The characters a string stands for: escaped halves of a pair are put together. A half without
    its partner and a stray byte stand for nothing. -/
def Piece.chars? : List Piece → Option (List Char)
  | [] => some []
  | .char c :: ps => (chars? ps).map (c :: ·)
  | .stray :: _ => none
  | .unit n :: ps =>
    if n < 0xD800 ∨ 0xDFFF < n then (chars? ps).map (Char.ofNat n :: ·)
    else if n < 0xDC00 then
      match ps with
      | .unit m :: qs =>
        if 0xDC00 ≤ m ∧ m ≤ 0xDFFF then
          (chars? qs).map (Char.ofNat (0x10000 + (n - 0xD800) * 0x400 + (m - 0xDC00)) :: ·)
        else none
      | _ => none
    else none

/-- The text a string stands for. -/
def Piece.text? (ps : List Piece) : Option String := (chars? ps).map String.ofList

/-- The string with this text. -/
def ofText (s : String) : Json := .text (s.toList.map .char)

/-- A natural number. -/
def ofNat (n : Nat) : Json := .number ⟨false, Nat.toDigits 10 n, [], none⟩

/-- An integer. -/
def ofInt (n : Int) : Json := .number ⟨decide (n < 0), Nat.toDigits 10 n.natAbs, [], none⟩

/-- An object with these members. -/
def ofMembers (ms : List (String × Json)) : Json :=
  .object (ms.map fun (k, v) => (k.toList.map .char, v))

/-- A document or, if there is none, `null`. -/
def orNull : Option Json → Json
  | some j => j
  | none => .null

/-- The text of a string. -/
def asText? : Json → Option String
  | .text ps => Piece.text? ps
  | _ => none

/-- The truth value of a document. -/
def asBool? : Json → Option Bool
  | .bool b => some b
  | _ => none

/-- The items of an array. -/
def asArray? : Json → Option (List Json)
  | .array xs => some xs
  | _ => none

/-- The members of an object, with the text of each name. -/
def asMembers? : Json → Option (List (String × Json))
  | .object ms => ms.mapM fun (k, v) => (Piece.text? k).map (·, v)
  | _ => none

/-- The first member of this name. -/
def member? (name : String) : Json → Option Json
  | .object ms => (ms.find? fun (k, _) => Piece.text? k == some name).map (·.2)
  | _ => none

end Json

end LoyaltyPoints
