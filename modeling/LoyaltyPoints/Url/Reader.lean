import LoyaltyPoints.Url.Basic
import LoyaltyPoints.Url.Host

/-! # Url: reading an absolute url

    Control characters and blanks at the ends do not count, tabs and line ends nowhere. The scheme
    decides how the rest is read: the special schemes stand for a port, take `\` for `/`, and have a
    host, which only `file` may leave out. User names are dropped. In a path `.` and `..` are
    resolved. -/

namespace LoyaltyPoints.Url

/-! ## The scheme -/

/-- How the text behind a scheme is read. -/
inductive Kind where
  /-- A special scheme and the port it stands for. -/
  | special (port : Nat)
  | file
  | plain
deriving DecidableEq

/-- The ports of the special schemes. -/
def schemePorts : List (String × Nat) :=
  [("http", 80), ("https", 443), ("ws", 80), ("wss", 443), ("ftp", 21)]

namespace Kind

/-- The kind of a scheme. -/
def ofScheme (scheme : String) : Kind :=
  if scheme = "file" then .file
  else match schemePorts.lookup scheme with
    | some port => .special port
    | none => .plain

/-- Whether a character divides the segments of a path. -/
def isSlash (k : Kind) (c : Char) : Bool := c = '/' || (c = '\\' && k ≠ .plain)

/-- The port that the scheme stands for. -/
def port? : Kind → Option Nat
  | .special port => some port
  | .file | .plain => none

end Kind

/-- Whether a character may stand in a scheme. -/
def isSchemeChar (c : Char) : Bool := c.isAlphanum || ['+', '-', '.'].contains c

/-- The scheme in lower case and the text behind its colon. -/
def scheme? (cs : List Char) : Option (List Char × List Char) :=
  match Text.spanWhile isSchemeChar cs with
  | (c :: name, ':' :: rest) =>
    if c.isAlpha then some (Text.asciiLower (c :: name), rest) else none
  | _ => none

/-! ## The path -/

/-- Whether a segment stands for the place it is in. -/
def isHere (segment : List Char) : Bool :=
  [['.'], ['%', '2', 'e']].contains (Text.asciiLower segment)

/-- Whether a segment stands for the place above. -/
def isAbove (segment : List Char) : Bool :=
  ["..", ".%2e", "%2e.", "%2e%2e"].contains (String.ofList (Text.asciiLower segment))

/-- The segments that are left, the last one first, after a segment with a slash behind it. -/
def enter (above : List (List Char)) (segment : List Char) : List (List Char) :=
  if isAbove segment then above.drop 1
  else if isHere segment then above
  else segment :: above

/-- The segments that are left, the last one first. -/
def resolve : (above : List (List Char)) → List (List Char) → List (List Char)
  | above, [] => above
  | above, [segment] =>
    if isAbove segment || isHere segment then [] :: enter above segment else segment :: above
  | above, segment :: segments => resolve (enter above segment) segments

/-- The path of a `file` begins with one slash. -/
def dropEmpty : List (List Char) → List (List Char)
  | [] :: s :: segments => dropEmpty (s :: segments)
  | segments => segments

/-- The path with these segments, in its normal form. -/
def pathText (kind : Kind) (segments : List (List Char)) : List Char :=
  let resolved := (resolve [] (segments.map (escape isPathEscaped))).reverse
  let resolved := if kind = .file then dropEmpty resolved else resolved
  resolved.flatMap ('/' :: ·)

/-- The path behind a host. -/
def pathOf (kind : Kind) (cs : List Char) : List Char :=
  match cs with
  | [] => if kind = .plain then [] else ['/']
  | c :: rest => pathText kind (splitAll kind.isSlash (if kind.isSlash c then rest else c :: rest))

/-! ## Query and fragment -/

/-- Splits a text at the first character `mark`. -/
def splitMark (mark : Char) (cs : List Char) : List Char × Option (List Char) :=
  match Text.spanWhile (· ≠ mark) cs with
  | (front, _ :: back) => (front, some back)
  | (front, []) => (front, none)

/-- The url with this front, from the text of path, query and fragment. -/
def withTail (kind : Kind) (front : Url) (readPath : List Char → List Char) (cs : List Char) :
    Url :=
  let (cs, fragment) := splitMark '#' cs
  let (path, query) := splitMark '?' cs
  let inQuery := if kind = .plain then isQueryEscaped else isSpecialQueryEscaped
  { front with
    path := readPath path
    query := query.map (escape inQuery)
    fragment := fragment.map (escape isFragmentEscaped) }

/-! ## The authority -/

/-- The text behind the last `@`. -/
def dropUser (cs : List Char) : List Char := (cs.reverse.takeWhile (· ≠ '@')).reverse

/-- Splits a text at the first colon outside brackets. -/
def splitPort : (inside : Bool) → List Char → List Char × Option (List Char)
  | _, [] => ([], none)
  | inside, c :: cs =>
    if c = ':' ∧ ¬inside then ([], some cs)
    else
      let (host, port) := splitPort ((inside || c = '[') && c ≠ ']') cs
      (c :: host, port)

/-- A port; the one that the scheme stands for is left out. -/
def readPort (kind : Kind) (cs : List Char) : Except UrlError (Option Nat) :=
  if cs.isEmpty then .ok none
  else match Text.natural? cs with
    | some n =>
      if n < 0x10000 then .ok (if kind.port? = some n then none else some n) else .error .badPort
    | none => .error .badPort

/-- A url from the text behind the slashes in front of its host. -/
def readAuthority (kind : Kind) (scheme cs : List Char) : Except UrlError Url := do
  let ends (c : Char) : Bool := kind.isSlash c || c = '?' || c = '#'
  let (text, rest) := Text.spanWhile (!ends ·) cs
  let (name, portText) := splitPort false (dropUser text)
  let host ← if kind = .plain then plainHost name else specialHost name
  if host.isEmpty ∧ (portText.isSome ∨ text.contains '@') then .error .emptyHost
  let port ← readPort kind (portText.getD [])
  return (withTail kind ⟨scheme, some host, port, [], none, none⟩ (pathOf kind) rest)

/-- A `file` url from the text behind its two slashes. -/
def readFile (scheme cs : List Char) : Except UrlError Url := do
  let ends (c : Char) : Bool := Kind.file.isSlash c || c = '?' || c = '#'
  let (name, rest) := Text.spanWhile (!ends ·) cs
  let host ← if name.isEmpty then .ok [] else specialHost name
  let host := if host = "localhost".toList then [] else host
  return (withTail .file ⟨scheme, some host, none, [], none, none⟩ (pathOf .file) rest)

/-! ## The whole -/

/-- The path of a url without a host. -/
def bare (kind : Kind) (cs : List Char) : List Char :=
  match cs with
  | '/' :: _ => match pathOf kind cs with
    | '/' :: '/' :: rest => '/' :: '.' :: '/' :: '/' :: rest
    | path => path
  | _ => escape isControl cs

/-- A url from the text behind its scheme. -/
def readRest (kind : Kind) (scheme cs : List Char) : Except UrlError Url :=
  match kind, cs with
  | .special _, _ => readAuthority kind scheme (cs.dropWhile kind.isSlash)
  | .plain, '/' :: '/' :: rest => readAuthority kind scheme rest
  | .plain, _ => .ok (withTail kind ⟨scheme, none, none, [], none, none⟩ (bare kind) cs)
  | .file, a :: b :: rest =>
    if kind.isSlash a && kind.isSlash b then readFile scheme rest else .ok (ofFilePath cs)
  | .file, _ => .ok (ofFilePath cs)
where
  /-- A `file` url that has a path only. -/
  ofFilePath (cs : List Char) : Url :=
    withTail .file ⟨scheme, some [], none, [], none, none⟩ (pathOf .file) cs

/-- Whether a character at an end does not count. -/
def isOuter (c : Char) : Bool := c.toNat ≤ 0x20

/-- Whether a character counts nowhere. -/
def isIgnored (c : Char) : Bool := ['\t', '\n', '\r'].contains c

/-- Reads a url. -/
def read (s : String) : Except UrlError Url :=
  let cs := Text.dropEndWhile isOuter (s.toList.dropWhile isOuter)
  match scheme? (cs.filter fun c => !isIgnored c) with
  | some (scheme, rest) => readRest (.ofScheme (String.ofList scheme)) scheme rest
  | none => .error .noScheme

end LoyaltyPoints.Url
