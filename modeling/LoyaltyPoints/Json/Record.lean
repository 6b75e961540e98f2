import LoyaltyPoints.Json.Number
import LoyaltyPoints.Json.Reader

/-! # JSON: records with known fields

    A record with a fixed list of fields is read from an object or from an array. In an object the
    order of the members does not matter, members of other names are passed over, and a field given
    twice is refused; the name of every member has to be a text. In an array the fields stand in
    their order and nothing follows them. -/

namespace LoyaltyPoints.Json

/-- The values of the named fields: `none` for a field that is not given. -/
def fields? (names : List String) : Json → Option (List (Option Json))
  | .object ms => do
    let ms ← ms.mapM fun (k, x) => (Piece.text? k).map (·, x)
    names.mapM fun name =>
      match ms.filter (·.1 == name) with
      | [] => some none
      | [(_, x)] => some (some x)
      | _ => none
  | .array xs =>
    if xs.length ≤ names.length then
      some (xs.map some ++ List.replicate (names.length - xs.length) none)
    else none
  | _ => none

/-- The name of a case: a string, or an object whose one member of that name is null. -/
def caseName? : Json → Option String
  | .text ps => Piece.text? ps
  | .object [(k, .null)] => Piece.text? k
  | _ => none

/-- An amount: a number, or a text in plain or scientific form. -/
def asDecimal? : Json → Option Decimal
  | .number n => n.toDecimal?
  | .text ps => (Piece.text? ps).bind Decimal.ofAnyText?
  | _ => none

end LoyaltyPoints.Json
