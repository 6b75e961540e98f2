import LoyaltyPoints.Error

/-! # Program: how a failure is reported

    The text of the failure comes first, and below it the texts of what lies behind it, outermost
    first. They are numbered if there are several, and their further lines are set in like the
    first. -/

namespace LoyaltyPoints.Program

/-- The lines of one text, behind a mark; the others are set in as far as the mark is long. -/
def setIn (mark : String) (text : String) : List String :=
  match text.splitOn "\n" with
  | [] => [mark]
  | l :: ls => (mark ++ l) :: ls.map (String.ofList (List.replicate mark.length ' ') ++ ·)

/-- The mark of a cause with this number. -/
def numberMark (n : Nat) : String :=
  let digits := toString n
  String.ofList (List.replicate (5 - digits.length) ' ') ++ digits ++ ": "

/-- The lines of the causes. -/
def causeLines : List String → List String
  | [] => []
  | [cause] => setIn "    " cause
  | causes => causes.zipIdx.flatMap fun (cause, n) => setIn (numberMark n) cause

/-- The lines in which a failure is reported. -/
def failureLines (message : String) (causes : List String) : List String :=
  let head := ("Error: " ++ message).splitOn "\n"
  if causes.isEmpty then head else head ++ ["", "Caused by:"] ++ causeLines causes

end LoyaltyPoints.Program
