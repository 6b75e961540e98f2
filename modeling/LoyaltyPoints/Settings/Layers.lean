import LoyaltyPoints.Settings.Value
import LoyaltyPoints.Text.Blank

/-! # Settings: layers

    A layer is a table. The layers are laid over each other in order: tables are merged key by key,
    and every other value replaces what is there, as a table replaces a scalar. The keys of a layer
    are paths into the table, and the keys inside its values are plain names. -/

namespace LoyaltyPoints

namespace Setting

mutual

/-- Lays a value over an old one. -/
def overlay (old : Option Setting) : Setting → Setting
  | .table es =>
    match old with
    | some (.table base) => .table (overlayEntries base es)
    | _ => .table (overlayEntries [] es)
  | v => v

/-- Lays entries over old ones. -/
def overlayEntries (base : List (String × Setting)) :
    List (String × Setting) → List (String × Setting)
  | [] => base
  | (k, v) :: es => overlayEntries (putEntry k (overlay (look? k base) v) base) es

end

/-- A step of a path: the entry of a table or the item of a list, counted from its end if
    negative. -/
inductive PathStep where
  | key (name : String)
  | index (n : Int)

/-- The characters of a name in a path. -/
def isPathChar (c : Char) : Bool := c.isAlphanum || c = '_' || c = '-'

/-- The steps of a path behind its first name. The first argument bounds their number. -/
def pathSteps? : Nat → List Char → Option (List PathStep)
  | _, [] => some []
  | 0, _ => none
  | fuel + 1, '.' :: cs =>
    let name := cs.takeWhile isPathChar
    if name.isEmpty then none
    else (pathSteps? fuel (cs.dropWhile isPathChar)).map (.key (String.ofList name) :: ·)
  | fuel + 1, '[' :: cs =>
    let isSpace (c : Char) : Bool := c = ' ' || c = '\t'
    let cs := cs.dropWhile isSpace
    let (negative, ds) : Bool × List Char := match cs with
      | '-' :: r => (true, r)
      | r => (false, r)
    match Text.natural? (ds.takeWhile Char.isDigit),
        (ds.dropWhile Char.isDigit).dropWhile isSpace with
    | some n, ']' :: r =>
      if n < Text.int64Bound then
        (pathSteps? fuel r).map (.index (if negative then -Int.ofNat n else Int.ofNat n) :: ·)
      else none
    | _, _ => none
  | _, _ => none

/-- A path, if a text is one. -/
def path? (s : String) : Option (String × List PathStep) :=
  let name := s.toList.takeWhile isPathChar
  if name.isEmpty then none
  else (pathSteps? (s.length + 1) (s.toList.dropWhile isPathChar)).map (String.ofList name, ·)

/-- Changes the item of a list; missing items in front of it become nothing. -/
def putItem (n : Int) (f : Option Setting → Setting) (xs : List Setting) : List Setting :=
  let front : Nat := if n < 0 ∧ (xs.length : Int) < -n then (-n).toNat - xs.length else 0
  let xs := List.replicate front .nothing ++ xs
  let i : Nat := if n < 0 then (n + xs.length).toNat else n.toNat
  if i < xs.length then xs.modify i fun x => f (some x)
  else xs ++ List.replicate (i - xs.length) .nothing ++ [f none]

/-- Changes the value at the end of a path, making what is missing. -/
def atPath (f : Option Setting → Setting) : List PathStep → Option Setting → Setting
  | [], v => f v
  | .key k :: ps, v =>
    let es := match v with
      | some (.table es) => es
      | _ => []
    .table (putEntry k (atPath f ps (look? k es)) es)
  | .index n :: ps, v =>
    let xs := match v with
      | some (.list xs) => xs
      | _ => []
    .list (putItem n (atPath f ps) xs)

/-- Lays one entry of a layer over a table. A key that is no path is a plain name. -/
def applyEntry (es : List (String × Setting)) (e : String × Setting) : List (String × Setting) :=
  match path? e.1 with
  | some (root, ps) =>
    putEntry root (atPath (fun old => overlay old e.2) ps (look? root es)) es
  | none => putEntry e.1 (overlay (look? e.1 es) e.2) es

/-- Lays a layer over a table. -/
def applyLayer (es layer : List (String × Setting)) : List (String × Setting) :=
  layer.foldl applyEntry es

/-! ## The layer of the environment -/

/-- The value of a variable: a truth value, an integer, a floating-point number, or a text. -/
def ofVariable (s : String) : Setting :=
  let cs := s.toList
  let word := lower cs
  if word = ['t', 'r', 'u', 'e'] then .bool true
  else if word = ['f', 'a', 'l', 's', 'e'] then .bool false
  else
    match Text.int64? cs with
    | some n => .integer n
    | none =>
      match Binary64.ofChars? cs with
      | some x => .float x
      | none => .text s

/-- What the names of variables begin with. -/
def variableMark : List Char := "loyalty_".toList

/-- Turns each pair of underscores into a point. -/
def pointed : List Char → List Char
  | '_' :: '_' :: cs => '.' :: pointed cs
  | c :: cs => c :: pointed cs
  | [] => []

/-- The key that the name of a variable stands for, if it is one of the service's. -/
def keyOfVariable? (name : String) : Option String :=
  let cs := lower name.toList
  if variableMark.isPrefixOf cs then
    some (String.ofList (pointed (cs.drop variableMark.length)))
  else none

/-- The layer of the environment. -/
def ofEnvironment (env : List (String × String)) : List (String × Setting) :=
  env.filterMap fun (name, s) => (keyOfVariable? name).map (·, ofVariable s)

end Setting

end LoyaltyPoints
