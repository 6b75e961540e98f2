import LoyaltyPoints.Json.Number
import LoyaltyPoints.Json.Reader

/-! # JSON: writing a document

    The compact form: no blanks, members in their order, and escapes only where the grammar needs
    them. Quote and backslash stand behind a backslash, the control characters are written by their
    short escape or by number. -/

namespace LoyaltyPoints.Json

/-- The `\u` escape of a number. -/
def unitEscape (n : Nat) : List Char := '\\' :: 'u' :: Text.hexDigits 4 n

/-- A character inside a string. -/
def writeChar (c : Char) : List Char :=
  match c with
  | '"' => ['\\', '"']
  | '\\' => ['\\', '\\']
  | '\x08' => ['\\', 'b']
  | '\x0c' => ['\\', 'f']
  | '\n' => ['\\', 'n']
  | '\r' => ['\\', 'r']
  | '\t' => ['\\', 't']
  | c => if c.toNat < 0x20 then unitEscape c.toNat else [c]

/-- A piece of a string. A stray byte is written as the replacement character. -/
def Piece.write : Piece → List Char
  | .char c => writeChar c
  | .stray => ['\ufffd']
  | .unit n => unitEscape n

/-- A string with its quotes. -/
def writeText (ps : List Piece) : List Char := '"' :: ps.flatMap Piece.write ++ ['"']

mutual

/-- The compact form of a document. -/
def toChars : Json → List Char
  | .null => ['n', 'u', 'l', 'l']
  | .bool true => ['t', 'r', 'u', 'e']
  | .bool false => ['f', 'a', 'l', 's', 'e']
  | .number n => n.toChars
  | .text ps => writeText ps
  | .array [] => ['[', ']']
  | .array (x :: xs) => '[' :: x.toChars ++ itemsToChars xs
  | .object [] => ['\x7b', '\x7d']
  | .object ((k, x) :: ms) => '\x7b' :: writeText k ++ ':' :: x.toChars ++ membersToChars ms

/-- The items behind the first one, and the end of the array. -/
def itemsToChars : List Json → List Char
  | [] => [']']
  | x :: xs => ',' :: x.toChars ++ itemsToChars xs

/-- The members behind the first one, and the end of the object. -/
def membersToChars : List (List Piece × Json) → List Char
  | [] => ['\x7d']
  | (k, x) :: ms => ',' :: writeText k ++ ':' :: x.toChars ++ membersToChars ms

end

/-- The compact form of a document. -/
def toText (j : Json) : String := String.ofList j.toChars

end LoyaltyPoints.Json
