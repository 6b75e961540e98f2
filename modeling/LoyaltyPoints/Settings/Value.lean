import LoyaltyPoints.Binary64
import LoyaltyPoints.Text.Digits

/-! # Settings: values, and how they convert

    A setting is a scalar, a list or a table. What a layer of the configuration writes need not have
    the type that the program wants: numbers, truth values and texts are turned into each other
    where that makes sense. Lists and tables are never turned into scalars. -/

namespace LoyaltyPoints

/-- The value of a setting. -/
inductive Setting where
  /-- Nothing; it fills the gap in front of an item that is set behind the end of a list. -/
  | nothing
  | bool (b : Bool)
  | integer (n : Int)
  | float (x : Binary64)
  | text (s : String)
  | list (items : List Setting)
  | table (entries : List (String × Setting))
deriving Inhabited

namespace Setting

/-- Lower case of the characters whose lower case is an ASCII letter: the ASCII letters and the
    Kelvin sign. -/
def lower (cs : List Char) : List Char :=
  cs.map fun c => if c = '\u212a' then 'k' else c.toLower

/-- The truth value that a word stands for. -/
def truthOfWord (trues falses : List String) (s : String) : Option Bool :=
  let w := String.ofList (lower s.toList)
  if trues.contains w then some true
  else if falses.contains w then some false
  else none

/-- As a text: numbers and truth values are written out. -/
def toText? : Setting → Option String
  | .text s => some s
  | .bool b => some (if b then "true" else "false")
  | .integer n => some (toString n)
  | .float x => some x.toText
  | _ => none

/-- As a truth value: a number counts as true unless it is zero, and a text by its word. -/
def toBool? : Setting → Option Bool
  | .bool b => some b
  | .integer n => some (n != 0)
  | .float x => some (!x.isZero)
  | .text s => truthOfWord ["1", "true", "on", "yes"] ["0", "false", "off", "no"] s
  | _ => none

/-- As an integer between bounds: a floating-point number is rounded and held within them, and a
    text is a word or a number within them. -/
def toInteger? (low high : Int) : Setting → Option Int
  | .integer n => if low ≤ n ∧ n ≤ high then some n else none
  | .bool b => some (if b then 1 else 0)
  | .float x => some (x.toBoundedInt low high)
  | .text s =>
    match truthOfWord ["true", "on", "yes"] ["false", "off", "no"] s with
    | some b => some (if b then 1 else 0)
    | none =>
      let number := if low < 0 then Text.integer? s.toList
        else (Text.unsigned? 64 s.toList).map Int.ofNat
      number.bind fun n => if low ≤ n ∧ n ≤ high then some n else none
  | _ => none

/-- As an unsigned integer of so many bits. The conversion goes by way of 64 bits. -/
def toUnsigned? (bits : Nat) (v : Setting) : Option Nat :=
  (v.toInteger? 0 (2 * Text.int64Bound - 1)).bind fun n =>
    if n.toNat < Nat.pow 2 bits then some n.toNat else none

/-- As a signed integer of 64 bits. -/
def toSigned? (v : Setting) : Option Int := v.toInteger? (-Text.int64Bound) (Text.int64Bound - 1)

/-- The entry of a table. -/
def look? (name : String) (es : List (String × Setting)) : Option Setting :=
  (es.find? (·.1 == name)).map (·.2)

/-- Replaces the entry of a table, or adds it. -/
def putEntry (name : String) (v : Setting) : List (String × Setting) → List (String × Setting)
  | [] => [(name, v)]
  | (k, x) :: es => if k == name then (k, v) :: es else (k, x) :: putEntry name v es

/-- The fields of a section: from a table by name, from a list in their order. What a table or a
    list holds beyond them is passed over. A scalar is no section. -/
def fields? (names : List String) : Setting → Option (String → Option Setting)
  | .table es => some fun name => look? name es
  | .list xs => some fun name => (names.zip xs).find? (·.1 == name) |>.map (·.2)
  | _ => none

end Setting

end LoyaltyPoints
