import LoyaltyPoints.Journal.Basic
import LoyaltyPoints.Json.Printer
import LoyaltyPoints.Text.Quoted

/-! # Journal: its lines

    An entry is written as a line of text or as an object. Text leaves out the ends of spans.
    Neither form has the time here; that is for whoever prints the line. -/

namespace LoyaltyPoints.Journal

namespace Value

/-- The value in a line of text. -/
def toText : Value → String
  | .plain s => s
  | .quoted s => Text.quoted s
  | .number n => toString n
  | .flag b => toString b

/-- The value in an object. -/
def toJson : Value → Json
  | .plain s | .quoted s => .ofText s
  | .number n => .ofInt n
  | .flag b => .bool b

end Value

namespace Fields

/-- Fields in a line of text. -/
def toText (fs : Fields) : String :=
  String.intercalate " " (fs.map fun (n, v) => n ++ "=" ++ v.toText)

/-- Fields in an object. -/
def toMembers (fs : Fields) : List (String × Json) := fs.map fun (n, v) => (n, v.toJson)

end Fields

namespace Span

/-- A span in a line of text. -/
def toText (s : Span) : String :=
  let fields := if s.fields.isEmpty then "" else "\x7b" ++ Fields.toText s.fields ++ "\x7d"
  s.name ++ fields ++ ": "

/-- A span as an object. -/
def toJson (s : Span) : Json :=
  .ofMembers (Fields.toMembers s.fields ++ [("name", .ofText s.name)])

end Span

namespace Entry

/-- The line of an entry, if it has one. -/
def toText? : Entry → Option String
  | .closed _ => none
  | .event e inside =>
    let fields := if e.fields.isEmpty then "" else " " ++ Fields.toText e.fields
    some (e.level.name ++ " " ++ (inside.map Span.toText).getD "" ++ e.target ++ ": " ++
      e.message ++ fields)

/-- The object of an entry. -/
def toJson (x : Entry) : Json :=
  let (fields, spans) : List (String × Json) × List (String × Json) := match x with
    | .event e inside =>
      (("message", .ofText e.message) :: Fields.toMembers e.fields,
        match inside with
        | none => []
        | some s => [("span", s.toJson), ("spans", .array [s.toJson])])
    | .closed s => ([("message", .ofText "close")], [("span", s.toJson), ("spans", .array [])])
  .ofMembers ([("level", .ofText x.level.name), ("fields", .ofMembers fields),
    ("target", .ofText x.target)] ++ spans)

/-- The line that is printed for an entry, if there is one. -/
def line? (json : Bool) (x : Entry) : Option String :=
  if json then some x.toJson.toText else x.toText?

end Entry

end LoyaltyPoints.Journal
