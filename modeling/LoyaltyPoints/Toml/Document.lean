import LoyaltyPoints.Toml.Reader

/-! # TOML: the table that a document describes

    A table comes into being in one of three ways: on the way to a header below it, on the way of a
    dotted key, or by its own header. Its own header may come later than one below it, but only
    once, and not for a table that dotted keys made. Dotted keys may not reach into a table that has
    its own header. -/

namespace LoyaltyPoints.Toml

/-- How a table came into being. -/
inductive Origin where
  | implied
  | dotted
  | stated
deriving DecidableEq

/-- A node of a document that is being built. -/
inductive Node where
  | leaf (v : Setting)
  | table (origin : Origin) (entries : List (String × Node))
  /-- An array of tables; the last one is open. -/
  | tables (closed : List (List (String × Node))) (last : List (String × Node))
deriving Inhabited

/-- The entries of a table. -/
abbrev Entries := List (String × Node)

/-- The node of a key. -/
def find? (k : String) (es : Entries) : Option Node := (es.find? (·.1 == k)).map (·.2)

/-- Replaces the node of a key, or adds it. -/
def put (k : String) (n : Node) : Entries → Entries
  | [] => [(k, n)]
  | (j, m) :: es => if j == k then (j, n) :: es else (j, m) :: put k n es

/-- Goes down a path of keys, making what is missing, and changes the table at its end. -/
def descend (dotted : Bool) (f : Entries → Option Entries) : Path → Entries → Option Entries
  | [], es => f es
  | k :: ks, es =>
    match find? k es with
    | none =>
      (descend dotted f ks []).map fun inner =>
        put k (.table (if dotted then .dotted else .implied) inner) es
    | some (.leaf _) => none
    | some (.table origin inner) =>
      if dotted && origin == .stated then none
      else (descend dotted f ks inner).map fun inner => put k (.table origin inner) es
    | some (.tables closed last) =>
      (descend dotted f ks last).map fun last => put k (.tables closed last) es

/-- Opens a table by its header. -/
def openTable (k : String) (es : Entries) : Option Entries :=
  match find? k es with
  | none => some (put k (.table .stated []) es)
  | some (.table .implied inner) => some (put k (.table .stated inner) es)
  | _ => none

/-- Opens the next table of an array. -/
def openNext (k : String) (es : Entries) : Option Entries :=
  match find? k es with
  | none => some (put k (.tables [] []) es)
  | some (.tables closed last) => some (put k (.tables (closed ++ [last]) []) es)
  | _ => none

/-- Sets a new key. -/
def setNew (k : String) (v : Setting) (es : Entries) : Option Entries :=
  match find? k es with
  | none => some (put k (.leaf v) es)
  | some _ => none

/-- Changes the table at the end of a path without its last key. -/
def atLast (dotted : Bool) (f : String → Entries → Option Entries) (p : Path) (es : Entries) :
    Option Entries :=
  p.getLast?.bind fun k => descend dotted (f k) p.dropLast es

mutual

/-- The setting that a node stands for. -/
def Node.setting : Node → Setting
  | .leaf v => v
  | .table _ es => .table (entriesSetting es)
  | .tables closed last => .list (tablesSetting closed ++ [.table (entriesSetting last)])

/-- The settings of entries. -/
def entriesSetting : List (String × Node) → List (String × Setting)
  | [] => []
  | (k, n) :: es => (k, n.setting) :: entriesSetting es

/-- The settings of tables. -/
def tablesSetting : List (List (String × Node)) → List Setting
  | [] => []
  | es :: ts => .table (entriesSetting es) :: tablesSetting ts

end

mutual

/-- The setting that an expression stands for. -/
def Expr.setting? : Expr → Option Setting
  | .scalar v => some v
  | .array xs => (itemsSetting? xs).map .list
  | .inlineTable es => (inlineEntries? [] es).map fun es => .table (entriesSetting es)

/-- The settings of the items of an array. -/
def itemsSetting? : List Expr → Option (List Setting)
  | [] => some []
  | x :: xs => x.setting?.bind fun v => (itemsSetting? xs).map (v :: ·)

/-- The entries of an inline table, added to those before them. -/
def inlineEntries? (acc : List (String × Node)) :
    List (Path × Expr) → Option (List (String × Node))
  | [] => some acc
  | (p, x) :: es =>
    x.setting?.bind fun v =>
      (atLast true (fun k => setNew k v) p acc).bind fun acc => inlineEntries? acc es

end

/-- Carries out a statement on the document and the path of the open table. -/
def Statement.run (s : Statement) (st : Path × Entries) : Option (Path × Entries) :=
  match s with
  | .header p => (atLast false openTable p st.2).map (p, ·)
  | .arrayHeader p => (atLast false openNext p st.2).map (p, ·)
  | .assign p x =>
    if x.depth ≤ maxDepth then
      x.setting?.bind fun v =>
        (descend false (atLast true (fun k => setNew k v) p) st.1 st.2).map (st.1, ·)
    else none

/-- The table that a text describes. -/
def ofText? (s : String) : Option (List (String × Setting)) :=
  (ofChars? s.toList).bind fun ss =>
    (ss.foldlM (fun st (s : Statement) => s.run st) (([], []) : Path × Entries)).map fun st =>
      entriesSetting st.2

end LoyaltyPoints.Toml
