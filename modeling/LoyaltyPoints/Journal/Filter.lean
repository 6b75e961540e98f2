import LoyaltyPoints.Journal.Basic
import LoyaltyPoints.Text.Blank
import LoyaltyPoints.Text.Digits

/-! # Journal: which entries are kept

    A filter is a list of directives between commas. `target=level` keeps what a part of the program
    tells down to a level; the longest target that fits decides. A level alone is for all targets, a
    target alone for all levels. `target[span{field}]=level` keeps the span with this name and these
    fields, and everything of that level inside of it. A filter without directives keeps errors. -/

namespace LoyaltyPoints.Journal

/-! ## Limits -/

/-- The least weighty level that is kept, if any is. -/
abbrev Limit := Option Level

namespace Limit

/-- The place of a limit: the rank of its level. -/
def rank (l : Limit) : Nat := (l.map Level.rank).getD 0

/-- Whether entries of a level are kept. -/
def admits (l : Limit) (x : Level) : Bool := decide (x.rank ≤ l.rank)

/-- The limit with this name or number. -/
def ofText? (s : String) : Option Limit :=
  let limits : List Limit := none :: Level.all.map some
  match Text.unsigned? 64 s.toList with
  | some n => limits[n]?
  | none =>
    let lower := String.ofList (Text.asciiLower s.toList)
    if lower = "off" then some none
    else (Level.all.find? fun l => l.name.toLower = lower).map some

end Limit

/-! ## Directives -/

/-- A field that a span has to have, and the value that it has to have. -/
structure FieldPattern where
  name : String
  value : Option String
deriving DecidableEq

/-- A directive. -/
structure Directive where
  target : Option String := none
  span : Option String := none
  fields : List FieldPattern := []
  limit : Limit := some .trace
deriving DecidableEq

namespace Directive

/-- Whether a directive is about spans. -/
def isDynamic (d : Directive) : Bool := d.span.isSome || !d.fields.isEmpty

/-- Whether a directive can be judged without a span. -/
def isStatic (d : Directive) : Bool := d.span.isNone && d.fields.all (·.value.isNone)

/-- Where a reader of directives stands; a text is kept with its last character first. -/
inductive Place where
  | start
  | name (text : List Char)
  | span (text : List Char)
  | field (text : List Char)
  | behindFields
  | behindSpan
  | level (text : List Char)

/-- The text of a place. -/
def ofReversed (text : List Char) : String := String.ofList text.reverse

/-- Reads a field. -/
def fieldPattern? (s : String) : Option FieldPattern :=
  match s.splitOn "=" with
  | [] | [""] => none
  | [name] => some ⟨name, none⟩
  | name :: value :: _ => some ⟨name, some value⟩

/-- Whether a name may begin with a character. -/
def canBegin (c : Char) : Bool := c.isAlphanum || 0x80 ≤ c.toNat || ['-', ':', '_'].contains c

/-- Reads one character: `c` is what it means, `shown` is what a text keeps of it. -/
def step (c shown : Char) : Directive × Place → Option (Directive × Place)
  | (d, .start) =>
    if c = '[' then some (d, .span [])
    else if canBegin c then some (d, .name [shown])
    else none
  | (d, .name text) =>
    if c = '=' then some ({ d with target := some (ofReversed text) }, .level [])
    else if c = '[' then some ({ d with target := some (ofReversed text) }, .span [])
    else some (d, .name (shown :: text))
  | (d, .span text) =>
    if c = ']' then some ({ d with span := some (ofReversed text) }, .behindSpan)
    else if c = '\x7b' then
      some ({ d with span := if text.isEmpty then none else some (ofReversed text) }, .field [])
    else some (d, .span (shown :: text))
  | (d, .field text) =>
    if c = '\x7d' then
      (fieldPattern? (ofReversed text)).map fun f =>
        ({ d with fields := d.fields ++ [f] }, .behindFields)
    else some (d, .field (shown :: text))
  | (d, .behindFields) => if c = ']' then some (d, .behindSpan) else none
  | (d, .behindSpan) => if c = '=' then some (d, .level []) else none
  | (d, .level text) => some (d, .level (shown :: text))

/-- The directive of a text whose end is reached; `rest` is what a text keeps beyond it. -/
def finish (rest : List Char) : Directive × Place → Option Directive
  | (d, .name text) =>
    let s := ofReversed (rest.reverse ++ text)
    match Limit.ofText? s with
    | some limit => some { d with limit }
    | none => some { d with target := some s, limit := some .trace }
  | (d, .level text) =>
    let s := ofReversed (rest.reverse ++ text)
    if s.isEmpty then some { d with limit := some .trace }
    else (Limit.ofText? s).map fun limit => { d with limit }
  | (d, .behindSpan) => some d
  | _ => none

/-- Reads a directive. The blanks at the ends do not count for its form, but texts are cut from
    where they would be without the blanks in front. -/
def ofText? (s : String) : Option Directive :=
  let all := s.toList
  let trimmed := Text.trim all
  ((trimmed.zip all).foldl (fun p (c, shown) => p.bind (step c shown))
    (some ({}, Place.start))).bind (finish (all.drop trimmed.length))

end Directive

/-! ## Filters -/

/-- A filter: its directives in order. -/
structure Filter where
  directives : List Directive
deriving DecidableEq

namespace Filter

/-- The filter that keeps everything down to a level. -/
def ofLevel (l : Level) : Filter := ⟨[{ limit := some l }]⟩

/-- Reads a filter. -/
def ofText? (s : String) : Option Filter :=
  (((s.splitOn ",").filter (!·.isEmpty)).mapM Directive.ofText?).map fun ds =>
    if ds.isEmpty then ofLevel .error else ⟨ds⟩

variable (f : Filter)

/-- The directives that are about spans. -/
def dynamics : List Directive := f.directives.filter (·.isDynamic)

/-- The directives that can be judged without a span: those about none come first. -/
def statics : List Directive :=
  f.directives.filter (!·.isDynamic) ++ f.dynamics.filter (·.isStatic)

/-- The least weighty level that any directive keeps. A directive that asks for a value could keep
    every level. -/
def loudest : Nat :=
  if f.dynamics.any fun d => d.fields.any (·.value.isSome) then Level.rank .trace
  else (f.dynamics ++ f.statics).foldl (fun n d => Nat.max n d.limit.rank) 0

/-- Whether a directive is about a target: the one it names, or one that begins so. -/
def fitsTarget (d : Directive) (target : String) : Bool :=
  d.target.all fun t => t.toList.isPrefixOf target.toList

/-- How much a directive says: whether it names a target, how long that is, and how many fields. -/
def weight (d : Directive) : Nat × Nat × Nat :=
  (if d.target.isSome then 1 else 0, (d.target.getD "").utf8ByteSize, d.fields.length)

/-- Whether a weight is at least another one. -/
def outweighs (a b : Nat × Nat × Nat) : Bool :=
  b.1 < a.1 || a.1 == b.1 && (b.2.1 < a.2.1 || a.2.1 == b.2.1 && b.2.2 ≤ a.2.2)

/-- The directive that decides: the weightiest, the last of equal ones. -/
def decisive? (ds : List Directive) : Option Directive :=
  ds.foldl (fun best d =>
    match best with
    | none => some d
    | some b => if outweighs (weight d) (weight b) then some d else some b) none

/-- Whether the static directives keep something of a level; `names` are the fields that it has to
    have, where fields count. -/
def admits (target : String) (level : Level) (names : Option (List String)) : Bool :=
  let fits (d : Directive) : Bool :=
    fitsTarget d target && names.all fun ns => d.fields.all fun p => ns.contains p.name
  match decisive? (f.statics.filter fits) with
  | some d => d.limit.admits level
  | none => false

/-- Whether a directive is about a span. -/
def fitsSpan (s : Span) (d : Directive) : Bool :=
  fitsTarget d s.target && d.span.all (· == s.name) &&
    d.fields.all fun p => s.fields.any (·.1 == p.name)

/-- Whether a value is the one that is asked for; a text may be asked for by its end. -/
def fitsValue (pattern : String) : Value → Bool
  | .flag b => pattern == toString b
  | .number n => Text.integer? pattern.toList == some n
  | .plain s | .quoted s =>
    (Text.integer? pattern.toList).isNone && pattern != "true" && pattern != "false" &&
      pattern.toList.isSuffixOf s.toList

/-- Whether the fields of a span have the values that a directive asks for. -/
def fitsValues (s : Span) (d : Directive) : Bool :=
  d.fields.all fun p => p.value.all fun v => s.fields.any fun (n, x) => n == p.name && fitsValue v x

/-- What is kept inside of a span for the sake of directives about it. -/
def limitInside (s : Span) : Nat :=
  (f.dynamics.filter fun d => fitsSpan s d && fitsValues s d).foldl
    (fun n d => Nat.max n d.limit.rank) 0

/-- Whether a span is kept. -/
def keepsSpan (s : Span) : Bool :=
  decide (s.level.rank ≤ f.loudest) &&
    (f.dynamics.any (fitsSpan s) || f.admits s.target s.level none)

/-- Whether an event is kept. -/
def keepsEvent (e : Event) (inside : Option Span) : Bool :=
  decide (e.level.rank ≤ f.loudest) &&
    ((inside.any fun s => f.keepsSpan s && decide (e.level.rank ≤ f.limitInside s)) ||
      f.admits e.target e.level (some ("message" :: e.fields.map (·.1))))

/-- What is left of an entry. An event is told without a span that is not kept. -/
def sift? : Entry → Option Entry
  | .event e inside =>
    if f.keepsEvent e inside then some (.event e (inside.filter f.keepsSpan)) else none
  | .closed s => if f.keepsSpan s then some (.closed s) else none

end Filter

end LoyaltyPoints.Journal
