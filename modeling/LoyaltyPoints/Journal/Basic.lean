/-! # Journal: what a program tells about its run

    An event says what happened, where, and how much it matters. A span is a piece of work; an event
    may happen inside of one, and the end of a span can be told too. -/

namespace LoyaltyPoints.Journal

/-- How much an entry matters. -/
inductive Level where
  | error
  | warn
  | info
  | debug
  | trace
deriving DecidableEq, Repr

namespace Level

/-- All levels, the weightiest first. -/
def all : List Level := [.error, .warn, .info, .debug, .trace]

/-- The place of a level; a lower one matters more. -/
def rank : Level → Nat
  | .error => 1
  | .warn => 2
  | .info => 3
  | .debug => 4
  | .trace => 5

/-- The name of a level. -/
def name : Level → String
  | .error => "ERROR"
  | .warn => "WARN"
  | .info => "INFO"
  | .debug => "DEBUG"
  | .trace => "TRACE"

end Level

/-- The value of a field. -/
inductive Value where
  /-- A text that is shown as it is. -/
  | plain (s : String)
  /-- A text that is shown in quotes. -/
  | quoted (s : String)
  | number (n : Int)
  | flag (b : Bool)
deriving DecidableEq

/-- Names and values, in the order in which they are shown. -/
abbrev Fields := List (String × Value)

/-- A piece of work. -/
structure Span where
  name : String
  target : String
  level : Level := .info
  fields : Fields := []
deriving DecidableEq

/-- Something that happened. -/
structure Event where
  level : Level
  /-- The part of the program that tells of it. -/
  target : String
  message : String
  fields : Fields := []
deriving DecidableEq

/-- An entry of the journal. -/
inductive Entry where
  | event (e : Event) (inside : Option Span)
  /-- The end of a span. -/
  | closed (s : Span)
deriving DecidableEq

namespace Entry

/-- An event outside of all spans. -/
def ofEvent (e : Event) : Entry := .event e none

/-- The level of an entry. -/
def level : Entry → Level
  | .event e _ => e.level
  | .closed s => s.level

/-- The part of the program that an entry is about. -/
def target : Entry → String
  | .event e _ => e.target
  | .closed s => s.target

end Entry

/-- The entries of a span: what happened inside of it, and its end. -/
def Span.enclose (s : Span) (es : List Event) : List Entry :=
  es.map (fun e => .event e (some s)) ++ [.closed s]

end LoyaltyPoints.Journal
