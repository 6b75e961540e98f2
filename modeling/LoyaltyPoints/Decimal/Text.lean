import LoyaltyPoints.Decimal.Rounding
import LoyaltyPoints.Text.Digits

/-! # Decimals: written form

    A decimal is written with exactly as many places as its scale, never with an exponent. Reading
    the plain form takes one optional sign, digits with at most one point, and separators `_` after
    the first digit. Digits that 96 bits or 28 places cannot hold are rounded away on the first of
    them, and the text behind that one is not looked at. The scientific form adds an exponent that
    moves the point. -/

namespace LoyaltyPoints.Decimal

open Text (digitValue digits paddedDigits unsigned?)

/-- The written form, as characters. -/
def toChars (a : Decimal) : List Char :=
  let n := a.coefficient.natAbs
  let whole := digits (n / Nat.pow 10 a.scale)
  let body :=
    if a.scale = 0 then whole else whole ++ '.' :: paddedDigits a.scale (n % Nat.pow 10 a.scale)
  if a.coefficient < 0 then '-' :: body else body

/-- The written form. -/
def toText (a : Decimal) : String := String.ofList a.toChars

/-- The decimal with this sign, magnitude and scale, if both are in range. -/
def ofMagnitude? (negative : Bool) (magnitude scale : Nat) : Option Decimal :=
  ofParts? (if negative then -Int.ofNat magnitude else Int.ofNat magnitude) scale

/-- Ends a text whose next character cannot be held any more: a digit from five on raises the
    magnitude, and if that leaves 96 bits, one place is given up. -/
def roundOff (negative point : Bool) (magnitude scale : Nat) (next : Char) : Option Decimal :=
  if next.isDigit then
    if digitValue next < 5 then ofMagnitude? negative magnitude scale
    else if magnitude + 1 < bound then ofMagnitude? negative (magnitude + 1) scale
    else if scale = 0 then none
    else ofMagnitude? negative ((magnitude + 1 + 4) / 10) (scale - 1)
  else if next = '_' || (point && next = '.') then ofMagnitude? negative magnitude scale
  else none

/-- Reads the rest of a plain text. `point` says whether the point was passed, `started` whether a
    digit was. -/
def readPlain (negative point started : Bool) (magnitude scale : Nat) :
    List Char → Option Decimal
  | [] => if started then ofMagnitude? negative magnitude scale else none
  | c :: cs =>
    if c.isDigit then
      let magnitude' := 10 * magnitude + digitValue c
      if bound ≤ magnitude' then
        if point then roundOff negative point magnitude scale c else none
      else
        let scale' := if point then scale + 1 else scale
        match cs with
        | [] => ofMagnitude? negative magnitude' scale'
        | d :: ds =>
          if point && maxScale ≤ scale' then roundOff negative point magnitude' scale' d
          else readPlain negative point true magnitude' scale' (d :: ds)
    else if c = '.' && !point then readPlain negative true started magnitude scale cs
    else if c = '_' && started then readPlain negative point started magnitude scale cs
    else none

/-- Reads the plain form. -/
def ofPlain? : List Char → Option Decimal
  | '-' :: cs => readPlain true false false 0 0 cs
  | '+' :: cs => readPlain false false false 0 0 cs
  | cs => readPlain false false false 0 0 cs

/-- The decimal with its point moved `exponent` places to the left. -/
def moveLeft? (a : Decimal) (exponent : Nat) : Option Decimal :=
  ofParts? a.coefficient (a.scale + exponent)

/-- The decimal with its point moved `exponent` places to the right. -/
def moveRight? (a : Decimal) (exponent : Nat) : Option Decimal :=
  if exponent ≤ a.scale then ofParts? a.coefficient (a.scale - exponent)
  else if exponent ≤ maxScale then
    ofParts? (a.coefficient * Int.ofNat (Nat.pow 10 (exponent - a.scale))) 0
  else none

/-- Whether a character announces the exponent. -/
def isExponentMark (c : Char) : Bool := c = 'e' || c = 'E'

/-- Reads the scientific form: a plain decimal, `e` or `E`, and an exponent. -/
def ofScientific? (cs : List Char) : Option Decimal :=
  match cs.dropWhile (!isExponentMark ·) with
  | [] => none
  | _ :: exponent =>
    (ofPlain? (cs.takeWhile (!isExponentMark ·))).bind fun a =>
      match exponent with
      | '-' :: ds => (unsigned? 32 ds).bind a.moveLeft?
      | ds => (unsigned? 32 ds).bind a.moveRight?

/-- Reads the plain form. -/
def ofText? (s : String) : Option Decimal := ofPlain? s.toList

/-- Reads the plain form or, where that fails, the scientific one. -/
def ofAnyText? (s : String) : Option Decimal :=
  (ofPlain? s.toList).orElse fun _ => ofScientific? s.toList

end LoyaltyPoints.Decimal
