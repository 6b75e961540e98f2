import LoyaltyPoints.Toml.Scalar
import LoyaltyPoints.Toml.Syntax

/-! # TOML: reading the statements of a document

    One statement stands on a line, with blanks and a comment around it. Arrays and the two long
    forms of strings may run over lines, inline tables may not. -/

namespace LoyaltyPoints.Toml

/-- Blanks within a line. -/
def isBlank (c : Char) : Bool := c = ' ' || c = '\t'

/-- Control characters other than the tab stand in no string and no comment. -/
def isControl (c : Char) : Bool := (c.toNat < 0x20 && c != '\t') || c.toNat == 0x7f

/-- Drops blanks. -/
def skipBlanks (cs : List Char) : List Char := cs.dropWhile isBlank

/-- Drops the end of a line, if there is one. -/
def newline? : List Char → Option (List Char)
  | '\n' :: r => some r
  | '\r' :: '\n' :: r => some r
  | _ => none

/-- Drops a comment, if there is one; it holds no control characters. -/
def comment? : List Char → Option (List Char)
  | '#' :: cs =>
    let r := cs.dropWhile fun c => !isControl c
    match r with
    | [] => some []
    | _ => (newline? r).map fun _ => r
  | cs => some cs

/-- Drops blanks, comments and ends of lines. The first argument bounds their number. -/
def skipLines? : Nat → List Char → Option (List Char)
  | 0, cs => some cs
  | fuel + 1, cs =>
    (comment? (skipBlanks cs)).bind fun r =>
      match newline? r with
      | some r => skipLines? fuel r
      | none => some r

/-- The character that a scalar value of Unicode is. -/
def scalar? (n : Nat) : Option Char :=
  if n < 0xD800 ∨ (0xDFFF < n ∧ n < 0x110000) then some (Char.ofNat n) else none

/-- An escape behind its backslash, and what follows it. -/
def escape? : List Char → Option (Char × List Char)
  | 'b' :: r => some ('\x08', r)
  | 't' :: r => some ('\t', r)
  | 'n' :: r => some ('\n', r)
  | 'f' :: r => some ('\x0c', r)
  | 'r' :: r => some ('\r', r)
  | '"' :: r => some ('"', r)
  | '\\' :: r => some ('\\', r)
  | 'u' :: r => numbered 4 r
  | 'U' :: r => numbered 8 r
  | _ => none
where
  /-- An escape by number. -/
  numbered (n : Nat) (r : List Char) : Option (Char × List Char) :=
    if (r.take n).length = n then
      ((Text.hexNumber? (r.take n)).bind scalar?).map (·, r.drop n)
    else none

/-- The rest of a string in quotes. The first argument bounds its length. -/
def basic? : Nat → List Char → Option (List Char × List Char)
  | 0, _ => none
  | fuel + 1, cs =>
    match cs with
    | '"' :: r => some ([], r)
    | '\\' :: r =>
      (escape? r).bind fun (c, r) => (basic? fuel r).map fun (s, r) => (c :: s, r)
    | c :: r => if isControl c then none else (basic? fuel r).map fun (s, r) => (c :: s, r)
    | [] => none

/-- The rest of a string in apostrophes. -/
def literal? : List Char → Option (List Char × List Char)
  | '\'' :: r => some ([], r)
  | c :: r => if isControl c then none else (literal? r).map fun (s, r) => (c :: s, r)
  | [] => none

/-- The end of a long string: three of its quotes, and up to two more that belong to it. -/
def longEnd? (q : Char) (cs : List Char) : Option (List Char × List Char) :=
  let n := (cs.takeWhile (· = q)).length
  if n < 3 then none
  else
    let inside := min (n - 3) 2
    some (List.replicate inside q, cs.drop (inside + 3))

/-- The rest of a long string in quotes. A backslash at the end of a line drops it and the blanks
    behind it. -/
def longBasic? : Nat → List Char → Option (List Char × List Char)
  | 0, _ => none
  | fuel + 1, cs =>
    match longEnd? '"' cs with
    | some r => some r
    | none =>
      match cs with
      | '\\' :: r =>
        match newline? (skipBlanks r) with
        | some r => longBasic? fuel (r.dropWhile fun c => isBlank c || c = '\n' || c = '\r')
        | none =>
          (escape? r).bind fun (c, r) => (longBasic? fuel r).map fun (s, r) => (c :: s, r)
      | c :: r =>
        match newline? (c :: r) with
        | some rest =>
          let end' := (c :: r).take ((c :: r).length - rest.length)
          (longBasic? fuel rest).map fun (s, r) => (end' ++ s, r)
        | none =>
          if isControl c then none else (longBasic? fuel r).map fun (s, r) => (c :: s, r)
      | [] => none

/-- The rest of a long string in apostrophes. -/
def longLiteral? : Nat → List Char → Option (List Char × List Char)
  | 0, _ => none
  | fuel + 1, cs =>
    match longEnd? '\'' cs with
    | some r => some r
    | none =>
      match cs with
      | c :: r =>
        match newline? (c :: r) with
        | some rest =>
          let end' := (c :: r).take ((c :: r).length - rest.length)
          (longLiteral? fuel rest).map fun (s, r) => (end' ++ s, r)
        | none =>
          if isControl c then none else (longLiteral? fuel r).map fun (s, r) => (c :: s, r)
      | [] => none

/-- Drops the end of a line directly behind the opening of a long string. -/
def afterOpening (cs : List Char) : List Char := (newline? cs).getD cs

/-- A string in any of its forms, if one begins here. -/
def string? (cs : List Char) : Option (List Char × List Char) :=
  match cs with
  | '"' :: '"' :: '"' :: r => longBasic? (r.length + 1) (afterOpening r)
  | '"' :: r => basic? (r.length + 1) r
  | '\'' :: '\'' :: '\'' :: r => longLiteral? (r.length + 1) (afterOpening r)
  | '\'' :: r => literal? r
  | _ => none

/-- The characters of a key without quotes. -/
def isKeyChar (c : Char) : Bool := c.isAlphanum || c = '_' || c = '-'

/-- One part of a key. -/
def keyPart? (cs : List Char) : Option (String × List Char) :=
  match cs with
  | '"' :: r => (basic? (r.length + 1) r).map fun (s, r) => (String.ofList s, r)
  | '\'' :: r => (literal? r).map fun (s, r) => (String.ofList s, r)
  | _ =>
    let k := cs.takeWhile isKeyChar
    if k.isEmpty then none else some (String.ofList k, cs.dropWhile isKeyChar)

/-- A key, with blanks around it. The first argument bounds the number of its parts. -/
def path? : Nat → List Char → Option (Path × List Char)
  | 0, _ => none
  | fuel + 1, cs =>
    (keyPart? (skipBlanks cs)).bind fun (k, r) =>
      match skipBlanks r with
      | '.' :: r => (path? fuel r).map fun (ks, r) => (k :: ks, r)
      | r => some ([k], r)

/-- The characters that end a word. -/
def endsWord (c : Char) : Bool :=
  c = ',' || c = ']' || c = '\x7d' || c = '#' || c = ' ' || c = '\t' || c = '\n' || c = '\r'

/-- A word, and what follows it. A date takes the time behind a blank with it. -/
def wordSpan (cs : List Char) : List Char × List Char :=
  let w := cs.takeWhile (!endsWord ·)
  let r := cs.dropWhile (!endsWord ·)
  match r with
  | ' ' :: d :: rest =>
    if d.isDigit && (date? w).any (·.2.isEmpty) then
      (w ++ ' ' :: (d :: rest).takeWhile (!endsWord ·), (d :: rest).dropWhile (!endsWord ·))
    else (w, r)
  | _ => (w, r)

mutual

/-- A value. The first argument bounds its depth and its length. -/
def value? : Nat → List Char → Option (Expr × List Char)
  | 0, _ => none
  | fuel + 1, cs =>
    match cs with
    | '[' :: r => (items? fuel r).map fun (xs, r) => (.array xs, r)
    | '\x7b' :: r =>
      match skipBlanks r with
      | '\x7d' :: r => some (.inlineTable [], r)
      | r => (entries? fuel r).map fun (es, r) => (.inlineTable es, r)
    | c :: _ =>
      if c = '"' ∨ c = '\'' then
        (string? cs).map fun (s, r) => (.scalar (.text (String.ofList s)), r)
      else
        let (w, r) := wordSpan cs
        (word? w).map fun v => (.scalar v, r)
    | [] => none

/-- The items of an array up to its end. -/
def items? : Nat → List Char → Option (List Expr × List Char)
  | 0, _ => none
  | fuel + 1, cs =>
    (skipLines? cs.length cs).bind fun cs =>
      match cs with
      | ']' :: r => some ([], r)
      | _ =>
        (value? fuel cs).bind fun (x, r) =>
          (skipLines? r.length r).bind fun r =>
            match r with
            | ',' :: r => (items? fuel r).map fun (xs, r) => (x :: xs, r)
            | ']' :: r => some ([x], r)
            | _ => none

/-- The entries of an inline table up to its end, at least one. -/
def entries? : Nat → List Char → Option (List (Path × Expr) × List Char)
  | 0, _ => none
  | fuel + 1, cs =>
    (path? (cs.length + 1) cs).bind fun (k, r) =>
      match r with
      | '=' :: r =>
        (value? fuel (skipBlanks r)).bind fun (x, r) =>
          match skipBlanks r with
          | ',' :: r => (entries? fuel r).map fun (es, r) => ((k, x) :: es, r)
          | '\x7d' :: r => some ([(k, x)], r)
          | _ => none
      | _ => none

end

/-- A statement, if the line holds one, and what follows it. -/
def statement? (cs : List Char) : Option (Option Statement × List Char) :=
  match cs with
  | [] => some (none, [])
  | '[' :: '[' :: r =>
    (path? (r.length + 1) r).bind fun (p, r) =>
      match r with
      | ']' :: ']' :: r => some (some (.arrayHeader p), r)
      | _ => none
  | '[' :: r =>
    (path? (r.length + 1) r).bind fun (p, r) =>
      match r with
      | ']' :: r => some (some (.header p), r)
      | _ => none
  | '#' :: _ => some (none, cs)
  | _ =>
    match newline? cs with
    | some _ => some (none, cs)
    | none =>
      (path? (cs.length + 1) cs).bind fun (p, r) =>
        match r with
        | '=' :: r =>
          (value? (2 * r.length + 2) (skipBlanks r)).map fun (x, r) => (some (.assign p x), r)
        | _ => none

/-- The statements of a document. The first argument bounds the number of lines. -/
def statements? : Nat → List Char → Option (List Statement)
  | 0, _ => none
  | fuel + 1, cs =>
    (statement? (skipBlanks cs)).bind fun (s, r) =>
      (comment? (skipBlanks r)).bind fun r =>
        match r with
        | [] => some s.toList
        | _ => (newline? r).bind fun r => (statements? fuel r).map (s.toList ++ ·)

/-- The statements of a text; a byte order mark in front is passed over. -/
def ofChars? (cs : List Char) : Option (List Statement) :=
  let cs := match cs with
    | '\ufeff' :: r => r
    | r => r
  statements? (cs.length + 1) cs

end LoyaltyPoints.Toml
