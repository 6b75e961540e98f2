import LoyaltyPoints.Json.Basic
import LoyaltyPoints.Text.Digits

/-! # JSON: reading a document

    The reader takes the bytes of a text as a list of symbols: a character, or a byte that belongs
    to none. It is strict about the grammar and judges nothing else: names may repeat, strings may
    hold halves of pairs and stray bytes, numbers may be of any size, and values may be nested to
    any depth. -/

namespace LoyaltyPoints.Json

/-- A character of the text, or a byte that belongs to none. -/
abbrev Symbol := Option Char

/-- The blanks between the tokens of a document. -/
def isBlank : Symbol → Bool
  | some c => c = ' ' || c = '\t' || c = '\n' || c = '\r'
  | none => false

/-- Drops blanks. -/
def skipBlanks (s : List Symbol) : List Symbol := s.dropWhile isBlank

/-- Whether a symbol is an ASCII digit. -/
def isDigit : Symbol → Bool
  | some c => c.isDigit
  | none => false

/-- Splits off the digits in front. -/
def spanDigits : List Symbol → List Char × List Symbol
  | [] => ([], [])
  | some c :: s =>
    if c.isDigit then
      let (ds, r) := spanDigits s
      (c :: ds, r)
    else ([], some c :: s)
  | none :: s => ([], none :: s)

/-- At least one digit. -/
def digits? (s : List Symbol) : Option (List Char × List Symbol) :=
  match spanDigits s with
  | ([], _) => none
  | r => some r

/-- The whole digits of a number: no zero in front of another digit. -/
def wholeDigits? (s : List Symbol) : Option (List Char × List Symbol) :=
  match digits? s with
  | some ('0' :: _ :: _, _) => none
  | r => r

/-- The places of a number, if a point follows. -/
def places? : List Symbol → Option (List Char × List Symbol)
  | some '.' :: s => digits? s
  | s => some ([], s)

/-- The exponent of a number, if its mark follows. -/
def exponent? : List Symbol → Option (Option (Bool × List Char) × List Symbol)
  | some 'e' :: s | some 'E' :: s =>
    let (negative, s) : Bool × List Symbol := match s with
      | some '-' :: r => (true, r)
      | some '+' :: r => (false, r)
      | r => (false, r)
    (digits? s).map fun (ds, r) => (some (negative, ds), r)
  | s => some (none, s)

/-- A number. -/
def number? (s : List Symbol) : Option (Number × List Symbol) :=
  let (negative, s) : Bool × List Symbol := match s with
    | some '-' :: r => (true, r)
    | r => (false, r)
  (wholeDigits? s).bind fun (whole, s) =>
    (places? s).bind fun (places, s) =>
      (exponent? s).map fun (exponent, s) => (⟨negative, whole, places, exponent⟩, s)

/-- The character behind a backslash. -/
def escape? : Char → Option Char
  | '"' => some '"'
  | '\\' => some '\\'
  | '/' => some '/'
  | 'b' => some '\x08'
  | 'f' => some '\x0c'
  | 'n' => some '\n'
  | 'r' => some '\r'
  | 't' => some '\t'
  | _ => none

/-- The number of four hexadecimal digits. -/
def unit? (a b c d : Symbol) : Option Nat :=
  match a, b, c, d with
  | some a, some b, some c, some d => Text.hexNumber? [a, b, c, d]
  | _, _, _, _ => none

/-- The rest of a string behind its opening quote. -/
def pieces? : List Symbol → Option (List Piece × List Symbol)
  | [] => none
  | none :: s => (pieces? s).map fun (ps, r) => (.stray :: ps, r)
  | some '"' :: s => some ([], s)
  | some '\\' :: some 'u' :: a :: b :: c :: d :: s =>
    (unit? a b c d).bind fun n => (pieces? s).map fun (ps, r) => (.unit n :: ps, r)
  | some '\\' :: some e :: s =>
    (escape? e).bind fun c => (pieces? s).map fun (ps, r) => (.char c :: ps, r)
  | some '\\' :: _ => none
  | some c :: s =>
    if c.toNat < 0x20 then none
    else (pieces? s).map fun (ps, r) => (.char c :: ps, r)

/-- Takes a word off the front. -/
def word? (w : List Char) (s : List Symbol) : Option (List Symbol) :=
  if s.take w.length = w.map some then some (s.drop w.length) else none

mutual

/-- A value; blanks in front are dropped. The first argument bounds the depth and the length. -/
def value? : Nat → List Symbol → Option (Json × List Symbol)
  | 0, _ => none
  | fuel + 1, s =>
    match skipBlanks s with
    | some '"' :: s => (pieces? s).map fun (ps, r) => (.text ps, r)
    | some '[' :: s =>
      match skipBlanks s with
      | some ']' :: r => some (.array [], r)
      | s => (items? fuel s).map fun (xs, r) => (.array xs, r)
    | some '\x7b' :: s =>
      match skipBlanks s with
      | some '\x7d' :: r => some (.object [], r)
      | s => (members? fuel s).map fun (ms, r) => (.object ms, r)
    | some 'n' :: s => (word? ['u', 'l', 'l'] s).map (.null, ·)
    | some 't' :: s => (word? ['r', 'u', 'e'] s).map (.bool true, ·)
    | some 'f' :: s => (word? ['a', 'l', 's', 'e'] s).map (.bool false, ·)
    | s => (number? s).map fun (n, r) => (.number n, r)

/-- The items of an array up to its end, at least one. -/
def items? : Nat → List Symbol → Option (List Json × List Symbol)
  | 0, _ => none
  | fuel + 1, s =>
    (value? fuel s).bind fun (x, s) =>
      match skipBlanks s with
      | some ',' :: s => (items? fuel s).map fun (xs, r) => (x :: xs, r)
      | some ']' :: r => some ([x], r)
      | _ => none

/-- The members of an object up to its end, at least one. -/
def members? : Nat → List Symbol → Option (List (List Piece × Json) × List Symbol)
  | 0, _ => none
  | fuel + 1, s =>
    match skipBlanks s with
    | some '"' :: s =>
      (pieces? s).bind fun (k, s) =>
        match skipBlanks s with
        | some ':' :: s =>
          (value? fuel s).bind fun (x, s) =>
            match skipBlanks s with
            | some ',' :: s => (members? fuel s).map fun (ms, r) => ((k, x) :: ms, r)
            | some '\x7d' :: r => some ([(k, x)], r)
            | _ => none
        | _ => none
    | _ => none

end

/-- Reads a document with nothing but blanks around it. -/
def ofSymbols? (s : List Symbol) : Option Json :=
  match value? (2 * s.length + 2) s with
  | some (x, r) => if (skipBlanks r).isEmpty then some x else none
  | none => none

/-- Reads a document from a text. -/
def ofString? (s : String) : Option Json := ofSymbols? (s.toList.map some)

end LoyaltyPoints.Json
