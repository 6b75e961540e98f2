import LoyaltyPoints.Text.Blank
import LoyaltyPoints.Url.Basic
import LoyaltyPoints.Url.Escape
import LoyaltyPoints.Url.Punycode

/-! # Url: hosts

    The host of a special url is a name in lower-case ASCII or an address of four or of sixteen
    bytes in its normal form. The host of any other url is kept as it stands, unless it is in
    brackets. -/

namespace LoyaltyPoints.Url

/-- Splits a text at every character of class `p`. -/
def splitAll (p : Char → Bool) : List Char → List (List Char)
  | [] => [[]]
  | c :: cs =>
    if p c then [] :: splitAll p cs
    else match splitAll p cs with
      | [] => [[c]]
      | part :: parts => (c :: part) :: parts

/-! ## Addresses of four bytes -/

/-- A number in base eight. -/
def octal? (cs : List Char) : Option Nat :=
  if cs.all fun c => '0' ≤ c ∧ c ≤ '7' then
    some (cs.foldl (fun n c => 8 * n + Text.digitValue c) 0)
  else none

/-- A part of an address: decimal, octal behind `0`, hexadecimal behind `0x`. -/
def addressPart? : List Char → Option Nat
  | [] => none
  | '0' :: 'x' :: cs | '0' :: 'X' :: cs => Text.hexNumber? cs
  | '0' :: cs => octal? cs
  | cs => Text.natural? cs

/-- The labels of a name; an empty one at the end does not count. -/
def labels (name : List Char) : List (List Char) :=
  match (splitAll (· = '.') name).reverse with
  | [] :: l :: ls => (l :: ls).reverse
  | ls => ls.reverse

/-- Whether a name has to be an address. -/
def endsInNumber (name : List Char) : Bool :=
  match (labels name).getLast? with
  | none | some [] => false
  | some l => l.all Char.isDigit || (addressPart? l).isSome

/-- The number of an address, from its parts: the last one fills all bytes that are left. -/
def joinParts? : (left : Nat) → List Nat → Option Nat
  | _, [] => none
  | left, [n] => if n < Nat.pow 256 left then some n else none
  | left, n :: ns =>
    if n < 256 then (joinParts? (left - 1) ns).map (n * Nat.pow 256 (left - 1) + ·) else none

/-- An address of four bytes. -/
def address4? (name : List Char) : Option Nat :=
  if (labels name).length ≤ 4 then
    ((labels name).mapM addressPart?).bind (joinParts? 4)
  else none

/-- Writes an address of four bytes. -/
def address4Text (n : Nat) : List Char :=
  ['.'].intercalate ([n / 0x1000000, n / 0x10000 % 256, n / 0x100 % 256, n % 256].map Text.digits)

/-! ## Addresses of sixteen bytes -/

/-- A group of at most four hexadecimal digits. -/
def group? (cs : List Char) : Option Nat :=
  if 0 < cs.length ∧ cs.length ≤ 4 then Text.hexNumber? cs else none

/-- A byte in decimal, without a zero in front. -/
def byte? (cs : List Char) : Option Nat :=
  match cs with
  | '0' :: _ :: _ => none
  | cs => (Text.natural? cs).bind fun n => if n < 256 then some n else none

/-- The last part of an address: a group, or four bytes that make two groups. -/
def lastGroups? (cs : List Char) : Option (List Nat) :=
  if cs.contains '.' then
    match (splitAll (· = '.') cs).mapM byte? with
    | some [a, b, c, d] => some [256 * a + b, 256 * c + d]
    | _ => none
  else (group? cs).map ([·])

/-- Groups between colons; bytes may stand at the end only where `bytes` says so. -/
def groups? (bytes : Bool) (cs : List Char) : Option (List Nat) :=
  if cs.isEmpty then some []
  else match (splitAll (· = ':') cs).reverse with
    | [] => some []
    | l :: ls => do
      let front ← ls.reverse.mapM group?
      let last ← if bytes then lastGroups? l else (group? l).map ([·])
      some (front ++ last)

/-- The text in front of the first two colons and the text behind them. -/
def splitGap? : List Char → Option (List Char × List Char)
  | ':' :: ':' :: cs => some ([], cs)
  | c :: cs => (splitGap? cs).map fun (a, b) => (c :: a, b)
  | [] => none

/-- The eight groups of an address; two colons stand for at least one group of zero. -/
def address6? (cs : List Char) : Option (List Nat) :=
  match splitGap? cs with
  | none => (groups? true cs).bind fun gs =>
    if gs.length = 8 ∧ ¬cs.isEmpty then some gs else none
  | some (front, back) => do
    let front ← groups? false front
    let back ← groups? true back
    let zeros := 8 - (front.length + back.length)
    if zeros = 0 then none else some (front ++ List.replicate zeros 0 ++ back)

/-- The length of the run of zeros in front. -/
def zeroRun (gs : List Nat) : Nat := (gs.takeWhile (· = 0)).length

/-- The place and the length of the longest run of zeros, the first one of several. -/
def longestRun (gs : List Nat) : Nat × Nat :=
  (List.range gs.length).foldl (fun best i =>
    let run := zeroRun (gs.drop i)
    if best.2 < run then (i, run) else best) (0, 0)

/-- A group in hexadecimal, without zeros in front. -/
def groupText (g : Nat) : List Char := Nat.toDigits 16 g

/-- Groups between colons. -/
def groupsText (gs : List Nat) : List Char := [':'].intercalate (gs.map groupText)

/-- Writes an address of sixteen bytes: its longest run of two or more zeros becomes two colons. -/
def address6Text (gs : List Nat) : List Char :=
  let (i, run) := longestRun gs
  if run < 2 then groupsText gs
  else groupsText (gs.take i) ++ ':' :: ':' :: groupsText (gs.drop (i + run))

/-! ## Hosts -/

/-- The characters that no host may hold. -/
def isForbidden (c : Char) : Bool :=
  c.toNat = 0 || "\t\n\r #/:<>?@[\\]^|".toList.contains c

/-- The characters that no name may hold. -/
def isForbiddenInName (c : Char) : Bool :=
  isForbidden c || c.toNat < 0x20 || c = '%' || c.toNat = 0x7F

/-- An address in brackets, from the text behind the first one. -/
def bracketed (cs : List Char) : Except UrlError (List Char) :=
  match cs.reverse with
  | ']' :: inner =>
    match address6? inner.reverse with
    | some gs => .ok ('[' :: (address6Text gs ++ [']']))
    | none => .error .badAddress6
  | _ => .error .badAddress6

/-- A name whose labels are all in ASCII. -/
def asciiName (name : List Char) : List Char :=
  ['.'].intercalate ((splitAll (· = '.') name).map Punycode.encodeLabel)

/-- The host of a special url, in its normal form. -/
def specialHost : List Char → Except UrlError (List Char)
  | [] => .error .emptyHost
  | '[' :: cs => bracketed cs
  | cs =>
    match Text.ofUtf8? (unescape cs) with
    | none => .error .badName
    | some name =>
      let name := asciiName (Text.asciiLower name)
      if name.any isForbiddenInName then .error .badName
      else if endsInNumber name then
        match address4? name with
        | some n => .ok (address4Text n)
        | none => .error .badAddress4
      else .ok name

/-- The host of any other url. -/
def plainHost : List Char → Except UrlError (List Char)
  | '[' :: cs => bracketed cs
  | cs => if cs.any isForbidden then .error .badHost else .ok (escape isControl cs)

end LoyaltyPoints.Url
