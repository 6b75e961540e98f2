import LoyaltyPoints.Metrics.Basic

/-! # Metrics: their text

    For each metric with values: what it is for, its kind, and a line for each series. A summary has
    the sum and the count of its samples. The lines are sorted. -/

namespace LoyaltyPoints

/-- The number of samples that are summed up together. -/
def Series.blockSize : Nat := 64

/-- Cuts a list into blocks of `size`, the last one first; `block` is the one being filled. -/
def Series.blocksFrom {α : Type} (size : Nat) : (done : List (List α)) → (block : List α) →
    List α → List (List α)
  | done, block, [] => if block.isEmpty then done else block :: done
  | done, block, x :: xs =>
    if block.length < size then blocksFrom size done (block ++ [x]) xs
    else blocksFrom size (block :: done) [x] xs

namespace Series

/-- The sum of the samples: the newest block goes first, and in a block the oldest sample. -/
def sum (s : Series) : Binary64 :=
  ((blocksFrom blockSize [] [] s.values).flatMap id).foldl Binary64.add .zero

end Series

namespace Exposition

/-- The name of a kind. -/
def kindName : MetricKind → String
  | .counter => "counter"
  | .gauge => "gauge"
  | .summary => "summary"

/-- The value of a label, escaped; `held` tells of a backslash that may escape what follows. -/
def escapeFrom : (held : Bool) → List Char → List Char
  | true, [] => ['\\', '\\']
  | false, [] => []
  | _, '\n' :: cs => '\\' :: 'n' :: escapeFrom false cs
  | _, '"' :: cs => '\\' :: '"' :: escapeFrom false cs
  | true, '\\' :: cs => '\\' :: '\\' :: escapeFrom false cs
  | false, '\\' :: cs => escapeFrom true cs
  | true, c :: cs => '\\' :: '\\' :: c :: escapeFrom false cs
  | false, c :: cs => c :: escapeFrom false cs

/-- A label in braces. -/
def labelText : Option (String × String) → String
  | none => ""
  | some (name, value) =>
    "\x7b" ++ name ++ "=\"" ++ String.ofList (escapeFrom false value.toList) ++ "\"\x7d"

/-- The line of one value. -/
def line (name : String) (s : Series) (value : String) : String :=
  name ++ labelText s.label ++ " " ++ value

/-- The lines of a series. -/
def seriesLines (s : Series) : List String :=
  let name := s.metric.name
  let count := toString s.values.length
  match s.metric.kind with
  | .counter => [line name s count]
  | .gauge => [line name s (((s.values.getLast?).getD .zero).toText)]
  | .summary => [line (name ++ "_sum") s s.sum.toText, line (name ++ "_count") s count]

/-- The lines that introduce a metric. -/
def headLines (m : Metric) : List String :=
  (m.help.map fun h => "# HELP " ++ m.name ++ " " ++ h).toList ++
    ["# TYPE " ++ m.name ++ " " ++ kindName m.kind]

/-- All lines of a metric. -/
def metricLines (r : Recorder) (m : Metric) : List String :=
  match r.filter (·.metric = m) with
  | [] => []
  | ss => headLines m ++ ss.flatMap seriesLines

/-- All lines, sorted. -/
def lines (r : Recorder) : List String :=
  (Metric.all.flatMap (metricLines r)).mergeSort fun a b => decide (a ≤ b)

end Exposition

end LoyaltyPoints
