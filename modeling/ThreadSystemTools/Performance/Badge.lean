import ThreadSystemTools.Performance.Json

/-! `update_performance_badge.py`: the badge takes the throughput of the first `Throughput`
benchmark, formats it, and picks a color by how far it stays below the baseline. The color
never drops as the throughput rises.
-/

namespace ThreadSystem.Performance

/-- The first benchmark whose name holds `Throughput` gives its `items_per_second`; with none,
0.
-/
def firstThroughput : List JsonValue → Except String JsonValue
  | [] => pure (.number 0)
  | bench :: rest => do
      if ← (← bench.get "name" (.string [])).has "Throughput".toList then
        bench.get "items_per_second" (.number 0)
      else firstThroughput rest

/-- `extract_throughput(benchmark_json)` on the loaded data. -/
def extractThroughput (data : JsonValue) : Except String JsonValue := do
  firstThroughput (← (← data.get "benchmarks" (.array [])).iterate)

/-- The badge's `format_throughput(value)`: thousands are shown without decimals. -/
def badgeThroughput (value : JsonValue) : Except String (List Char) := do
  let value ← value.numeric
  if value ≥ 1000000 then pure (formatFixed (value / 1000000) 2 ++ "M jobs/s".toList)
  else if value ≥ 1000 then pure (formatFixed (value / 1000) 0 ++ "K jobs/s".toList)
  else pure (formatFixed value 0 ++ " jobs/s".toList)

/-- The five colors `determine_color` returns. -/
inductive BadgeColor where
  | red
  | orange
  | yellow
  | green
  | brightgreen
  deriving DecidableEq, Repr

/-- The color's name in the badge JSON. -/
def BadgeColor.name : BadgeColor → String
  | .red => "red"
  | .orange => "orange"
  | .yellow => "yellow"
  | .green => "green"
  | .brightgreen => "brightgreen"

/-- The colors from worst to best. -/
def BadgeColor.rank : BadgeColor → Nat
  | .red => 0
  | .orange => 1
  | .yellow => 2
  | .green => 3
  | .brightgreen => 4

/-- The share of the baseline a color needs; red needs none. -/
def BadgeColor.share : BadgeColor → Option Rat
  | .red => none
  | .orange => some (80 / 100)
  | .yellow => some (90 / 100)
  | .green => some (95 / 100)
  | .brightgreen => some 1

/-- The default `baseline` of `determine_color`. -/
def badgeBaseline : Rat := 1240000

/-- `determine_color(value, baseline)`: the first threshold, from the baseline down to 80% of
it, that the value reaches.
-/
def determineColor (value baseline : Rat) : BadgeColor :=
  if value ≥ baseline then .brightgreen
  else if value ≥ baseline * (95 / 100) then .green
  else if value ≥ baseline * (90 / 100) then .yellow
  else if value ≥ baseline * (80 / 100) then .orange
  else .red

/-- The color a value gets needs a share of the baseline the value reaches. -/
theorem determineColor_reaches (value baseline : Rat)
    : ∀ share ∈ (determineColor value baseline).share, baseline * share ≤ value := by
  unfold determineColor
  split_ifs <;> simp_all [BadgeColor.share]

/-- A value that reaches a color's share of the baseline gets that color or a better one. -/
theorem rank_le_determineColor {color : BadgeColor} {share value baseline : Rat}
    (needs : color.share = some share) (reached : baseline * share ≤ value)
    : color.rank ≤ (determineColor value baseline).rank := by
  cases color <;> cases needs <;> unfold determineColor <;> split_ifs <;>
    first | decide | (rw [mul_one] at reached; contradiction)

/-- A higher throughput never gets a worse color, whatever the baseline: a value reaches every
share of the baseline a smaller value reaches.
-/
theorem determineColor_monotone (baseline : Rat) {value value' : Rat} (rises : value ≤ value')
    : (determineColor value baseline).rank ≤ (determineColor value' baseline).rank := by
  cases needs : (determineColor value baseline).share with
  | none =>
      cases color : determineColor value baseline <;> rw [color] at needs <;> cases needs
      exact Nat.zero_le _
  | some share =>
      exact rank_le_determineColor needs
        ((determineColor_reaches value baseline share needs).trans rises)

/-- The badge's color for 1.2 million jobs per second, and for 1.24 million, against the
default baseline.
-/
theorem determineColor_monotone_at_baseline
    : (1200000 : Rat) ≤ 1240000 ∧ (determineColor 1200000 badgeBaseline).rank
        ≤ (determineColor 1240000 badgeBaseline).rank :=
  ⟨by norm_num, determineColor_monotone badgeBaseline (by norm_num)⟩

/-- `main`: the badge's `message` and `color`; an exception of the extraction, the format or the
comparisons escapes.
-/
def badgeFields (data : JsonValue) : Except String (List Char × String) := do
  let throughput ← extractThroughput data
  let message ← badgeThroughput throughput
  pure (message, (determineColor (← throughput.numeric) badgeBaseline).name)

end ThreadSystem.Performance
