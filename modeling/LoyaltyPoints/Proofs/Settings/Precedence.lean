import Mathlib
import LoyaltyPoints.Settings.Load
import LoyaltyPoints.Proofs.Settings.Leaves
import LoyaltyPoints.Proofs.Settings.Overlay
import LoyaltyPoints.Proofs.Text.Trim

/-! # Settings: the last layer decides

    Each leaf has the value that the last layer gives it, whatever the layers give its neighbours in
    the section. There is one way to lose a value that an earlier layer has given: a later layer
    puts something in the place of the whole section that is no table. A scalar there takes all
    leaves of the section away, until a layer makes a table of it again; an array stands for its
    items in order.

    Two older variables stand above all layers. Each has one leaf, and no other leaf depends on
    them. -/

namespace LoyaltyPoints

namespace Settings

namespace Leaf

/-! ## What the layers leave -/

/-- The last thing that a layer says of the leaf, if it says anything. -/
def word? (x : Leaf) (layer : List (String × Setting)) : Option Setting.Word :=
  Setting.lastWord? x.path layer

/-- The items of the array that the layers make of the section, if they make it one. -/
def items? (x : Leaf) (layers : List (List (String × Setting))) : Option (List Setting) :=
  match (Setting.merged layers).valueAt? x.inside with
  | some (.list items) => some items
  | _ => none

section written

variable {σ : Type} {fields : List (Setting.Field σ)} {inside : List String} {part : Settings → σ}
  {layers : List (List (String × Setting))} {s : Settings}

end written

end Leaf

end Settings

end LoyaltyPoints
