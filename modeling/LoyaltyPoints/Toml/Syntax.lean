import LoyaltyPoints.Settings.Value

/-! # TOML: statements

    A document is a list of statements: headers that open a table or the next table of an array, and
    assignments below them. Keys are paths. Inline tables are lists of assignments of their own. -/

namespace LoyaltyPoints.Toml

/-- A dotted key. -/
abbrev Path := List String

/-- The value of an assignment, as it is written. -/
inductive Expr where
  | scalar (v : Setting)
  | array (items : List Expr)
  | inlineTable (entries : List (Path × Expr))
deriving Inhabited

mutual

/-- How many arrays and inline tables stand around the innermost value. -/
def Expr.depth : Expr → Nat
  | .scalar _ => 0
  | .array xs => itemsDepth xs + 1
  | .inlineTable es => entriesDepth es + 1

/-- The depth of the deepest item. -/
def itemsDepth : List Expr → Nat
  | [] => 0
  | x :: xs => max x.depth (itemsDepth xs)

/-- The depth of the deepest entry. -/
def entriesDepth : List (Path × Expr) → Nat
  | [] => 0
  | (_, x) :: es => max x.depth (entriesDepth es)

end

/-- The depth that a value may have. -/
def maxDepth : Nat := 80

/-- A statement. -/
inductive Statement where
  | header (path : Path)
  | arrayHeader (path : Path)
  | assign (path : Path) (value : Expr)

end LoyaltyPoints.Toml
