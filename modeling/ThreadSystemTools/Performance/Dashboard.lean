import Mathlib
import ThreadSystemTools.Performance.Json

/-! `load_historical_data` of `generate_performance_dashboard.py`: one pass over the last ten
`baseline.json` files, appending throughput and latency values per benchmark and one date per
file when the throughput series has outgrown the dates. An exception in a file is caught, and
what that file appended before it stays.
-/

namespace ThreadSystem.Performance

open ThreadSystem.Text

/-- The `history` dict: the dates and the two series `main` plots against them. -/
structure History where
  dates : List (List Char)
  throughput : List Rat
  latency : List Rat
  deriving DecidableEq, Repr

/-- A `baseline.json` that `glob` found: its path, and what `json.load` made of it or the
class of the exception it raised.
-/
structure BaselineFile where
  path : String
  document : Except String JsonValue

/-- `Path(path).parent.name`: the last directory of the path, empty when there is none. -/
def parentName (path : String) : List Char :=
  let parent := ((path.toList.reverse.dropWhile (· != '/')).drop 1).reverse
  (parent.reverse.takeWhile (· != '/')).reverse

/-- `if 'Throughput' in name`: the value `bench.get('items_per_second', 0) / 1_000_000` the
loop appends, if any.
-/
def throughputOf (bench name : JsonValue) : Except String (List Rat) := do
  if ← name.has "Throughput".toList then
    let value ← bench.get "items_per_second" (.number 0)
    pure [← value.divide 1000000]
  else pure []

/-- `if 'TaskSubmission' in name`: the value `bench.get('cpu_time', 0) / 1000.0` the loop
appends, if any.
-/
def latencyOf (bench name : JsonValue) : Except String (List Rat) := do
  if ← name.has "TaskSubmission".toList then
    let value ← bench.get "cpu_time" (.number 0)
    pure [← value.divide 1000]
  else pure []

/-- One benchmark of the inner loop: its name, then its throughput appended, then its latency;
an exception carries the history as it stood when it was raised.
-/
def benchStep (history : History) (bench : JsonValue) : Except (String × History) History :=
  match bench.get "name" (.string []) with
  | .error message => .error (message, history)
  | .ok name =>
      match throughputOf bench name with
      | .error message => .error (message, history)
      | .ok throughput =>
          let history := { history with throughput := history.throughput ++ throughput }
          match latencyOf bench name with
          | .error message => .error (message, history)
          | .ok latency => .ok { history with latency := history.latency ++ latency }

/-- `for bench in data.get('benchmarks', [])`: the history after the loop, and the exception
that stopped it, if any.
-/
def scanBenchmarks (history : History) : List JsonValue → History × Option String
  | [] => (history, none)
  | bench :: rest =>
      match benchStep history bench with
      | .ok next => scanBenchmarks next rest
      | .error (message, kept) => (kept, some message)

/-- The body of the loop over the files, with its `try`: load, scan the benchmarks, and add
the file's date when the throughput series is longer than the dates.
-/
def loadFile (history : History) (file : BaselineFile) : History :=
  match file.document.bind fun data => (data.get "benchmarks" (.array [])).bind JsonValue.iterate with
  | .error _ => history
  | .ok benches =>
      match scanBenchmarks history benches with
      | (kept, some _) => kept
      | (scanned, none) =>
          if scanned.throughput.length > scanned.dates.length then
            { scanned with dates := scanned.dates ++ [(parentName file.path).take 10] }
          else scanned

/-- `load_historical_data(data_dir)`, given the sorted `glob` result: the last ten files. -/
def loadHistoricalData (files : List BaselineFile) : History :=
  (files.drop (files.length - 10)).foldl loadFile ⟨[], [], []⟩

/-- The sample history `main` uses when no file gave a date. -/
def sampleHistory : History :=
  ⟨["2024-01".toList, "2024-02".toList, "2024-03".toList, "2024-04".toList, "2024-05".toList],
    [116 / 100, 118 / 100, 120 / 100, 122 / 100, 124 / 100],
    [1, 95 / 100, 90 / 100, 85 / 100, 80 / 100]⟩

/-- The `throughput_history` and `latency_history` that `main` hands the chart template: both
label their values with the one `dates` list.
-/
def chartSeries (history : History)
    : (List (List Char) × List Rat) × (List (List Char) × List Rat) :=
  let shown := if history.dates.isEmpty then sampleHistory else history
  ((shown.dates, shown.throughput), (shown.dates, shown.latency))

-----------------------------------------------------------------------------------------
-- The dates never outrun the throughput series
-----------------------------------------------------------------------------------------

/-- What a benchmark can do to the history: leave the dates, and only add to the series. -/
def Grows (before after : History) : Prop :=
  after.dates = before.dates ∧ before.throughput.length ≤ after.throughput.length

theorem Grows.refl (history : History) : Grows history history := ⟨rfl, le_refl _⟩

theorem Grows.trans {first second third : History} (early : Grows first second)
    (late : Grows second third) : Grows first third :=
  ⟨late.1.trans early.1, early.2.trans late.2⟩

theorem grows_append (history : History) (throughput latency : List Rat)
    : Grows history { history with
        throughput := history.throughput ++ throughput
        latency := history.latency ++ latency } :=
  ⟨rfl, by simp⟩

/-- The three ways a benchmark ends: raised before appending, raised after appending its
throughput, or appended both its values.
-/
theorem benchStep_cases (history : History) (bench : JsonValue)
    : (∃ message, benchStep history bench = .error (message, history))
      ∨ (∃ message values, benchStep history bench
          = .error (message, { history with throughput := history.throughput ++ values }))
      ∨ (∃ values more, benchStep history bench = .ok { history with
          throughput := history.throughput ++ values
          latency := history.latency ++ more }) := by
  unfold benchStep
  cases bench.get "name" (.string []) with
  | error message => exact .inl ⟨message, rfl⟩
  | ok name =>
      dsimp only
      cases throughputOf bench name with
      | error message => exact .inl ⟨message, rfl⟩
      | ok values =>
          dsimp only
          cases latencyOf bench name with
          | error message => exact .inr (.inl ⟨message, values, rfl⟩)
          | ok more => exact .inr (.inr ⟨values, more, rfl⟩)

/-- The step lemma of the inner loop: a benchmark leaves a history that grew, whether it
finishes or raises.
-/
theorem benchStep_grows (history : History) (bench : JsonValue)
    : match benchStep history bench with
      | .ok next => Grows history next
      | .error (_, kept) => Grows history kept := by
  rcases benchStep_cases history bench with ⟨message, same⟩ | ⟨message, values, same⟩
    | ⟨values, more, same⟩
  · rw [same]
    exact Grows.refl history
  · rw [same]
    exact ⟨rfl, by simp⟩
  · rw [same]
    exact grows_append history values more

theorem scanBenchmarks_grows (history : History) (benches : List JsonValue)
    : Grows history (scanBenchmarks history benches).1 := by
  induction benches generalizing history with
  | nil => exact Grows.refl history
  | cons bench rest ih =>
      have step := benchStep_grows history bench
      simp only [scanBenchmarks]
      split
      · rename_i next found
        rw [found] at step
        exact step.trans (ih next)
      · rename_i message kept found
        rw [found] at step
        exact step

/-- The step lemma of the outer loop: a file adds at most one date, and only while the
throughput series is longer than the dates.
-/
theorem loadFile_dates (history : History) (file : BaselineFile)
    (aligned : history.dates.length ≤ history.throughput.length)
    : (loadFile history file).dates.length ≤ (loadFile history file).throughput.length
      ∧ (loadFile history file).dates.length ≤ history.dates.length + 1 := by
  unfold loadFile
  split
  · exact ⟨aligned, Nat.le_succ _⟩
  · rename_i benches _
    have grown := scanBenchmarks_grows history benches
    split
    · rename_i kept message found
      rw [found] at grown
      exact ⟨grown.1 ▸ aligned.trans grown.2, by rw [grown.1]; omega⟩
    · rename_i scanned found
      rw [found] at grown
      dsimp only at grown
      have more := grown.2
      split
      · rename_i longer
        simp only [List.length_append, List.length_singleton]
        exact ⟨longer, by rw [grown.1]⟩
      · exact ⟨by rw [grown.1]; omega, by rw [grown.1]; omega⟩

/-- The run lemma: over any files, the dates stay within the throughput values, and each file
adds at most one.
-/
theorem foldl_loadFile_dates (files : List BaselineFile) (history : History)
    (aligned : history.dates.length ≤ history.throughput.length)
    : (files.foldl loadFile history).dates.length ≤ (files.foldl loadFile history).throughput.length
      ∧ (files.foldl loadFile history).dates.length ≤ history.dates.length + files.length := by
  induction files generalizing history with
  | nil => exact ⟨aligned, by simp⟩
  | cons file rest ih =>
      have step := loadFile_dates history file aligned
      have later := ih (loadFile history file) step.1
      simp only [List.foldl_cons, List.length_cons]
      exact ⟨later.1, by omega⟩

/-- Over any files, the dates never outnumber the throughput values or the files read. -/
theorem loadHistoricalData_dates (files : List BaselineFile)
    : (loadHistoricalData files).dates.length ≤ (loadHistoricalData files).throughput.length
      ∧ (loadHistoricalData files).dates.length ≤ min 10 files.length := by
  have total := foldl_loadFile_dates (files.drop (files.length - 10)) ⟨[], [], []⟩ (le_refl 0)
  simp only [List.length_drop, List.length_nil, Nat.zero_add] at total
  exact ⟨total.1, by rw [loadHistoricalData]; omega⟩

/-- One file with one `Throughput` benchmark and no `TaskSubmission` one gives one date, one
throughput value and no latency value, and `main` labels the empty latency series with that
date.
-/
theorem loadHistoricalData_misaligned
    : let history : History := loadHistoricalData [⟨"results/2024-05-01/baseline.json",
        .ok (.object [("benchmarks", .array [.object [("name", .string "BM_Throughput".toList),
          ("items_per_second", .number 1000000)]])])⟩]
      history.dates = ["2024-05-01".toList] ∧ history.throughput.length = 1
        ∧ history.latency = [] ∧ (chartSeries history).2 = (["2024-05-01".toList], []) := by
  decide

-----------------------------------------------------------------------------------------
-- The latest metrics and their change against the baseline
-----------------------------------------------------------------------------------------

/-- The entries of the dict `load_latest_metrics` returns that `calculate_changes` and the
template read: the two values as shown and the two raw ones.
-/
structure LatestMetrics where
  throughput : List Char
  throughputRaw : Rat
  latency : List Char
  latencyRaw : Rat

/-- The dict `load_latest_metrics` starts from. -/
def initialMetrics : LatestMetrics := ⟨"0 jobs/s".toList, 0, "0 μs".toList, 0⟩

/-- One benchmark of `load_latest_metrics`: a throughput under a million is shown in
thousands, however small.
-/
def latestStep (metrics : LatestMetrics) (bench : JsonValue) : Except String LatestMetrics := do
  let name ← bench.get "name" (.string [])
  let metrics ← if ← name.has "Throughput".toList then do
      let tput ← (← bench.get "items_per_second" (.number 0)).numeric
      pure { metrics with
        throughputRaw := tput
        throughput := if tput ≥ 1000000 then formatFixed (tput / 1000000) 2 ++ "M jobs/s".toList
          else formatFixed (tput / 1000) 0 ++ "K jobs/s".toList }
    else pure metrics
  if ← name.has "TaskSubmission".toList then do
    let lat ← (← bench.get "cpu_time" (.number 0)).divide 1000
    pure { metrics with
      latencyRaw := lat
      latency := formatFixed lat 2 ++ " μs".toList }
  else pure metrics

/-- `load_latest_metrics(data_dir)` on the `baseline.json` it picked, if it found one; an
exception of `json.load` or of the loop escapes.
-/
def loadLatestMetrics (baselineFile : Option (Except String JsonValue))
    : Except String LatestMetrics :=
  match baselineFile with
  | none => pure initialMetrics
  | some document => do
      let benches ← (← (← document).get "benchmarks" (.array [])).iterate
      benches.foldlM latestStep initialMetrics

/-- The baseline dict `main` builds; it holds both keys, so no `get` default is used. -/
structure DashboardBaseline where
  throughput : Rat
  latencyUs : Rat

/-- `{'throughput': 1_240_000, 'latency_us': 0.8}`: `main` parses no `BASELINE.md`. -/
def mainBaseline : DashboardBaseline := ⟨1240000, 8 / 10⟩

/-- `format(x, '+.Nf')` for a value held exactly. -/
def formatSigned (x : Rat) (places : Nat) : List Char :=
  (if x < 0 then [] else ['+']) ++ formatFixed x places

/-- The `metric-change` element of a change in percent. -/
def changeElement (cssClass : List Char) (changePct : Rat) : List Char :=
  "<div class=\"metric-change ".toList ++ cssClass ++ "\">".toList ++ formatSigned changePct 1
    ++ "% vs baseline</div>".toList

/-- `calculate_changes(current, baseline)`. The latency comparison assigns its element to
`throughput_change`, as the source does, and `latency_change` keeps its initial `""`.
-/
def calculateChanges (current : LatestMetrics) (baseline : DashboardBaseline)
    : List Char × List Char :=
  let throughputChange : List Char :=
    if current.throughputRaw > 0 ∧ baseline.throughput > 0 then
      let changePct := (current.throughputRaw - baseline.throughput) / baseline.throughput * 100
      if |changePct| > 1 then
        changeElement (if changePct > 0 then "positive" else "negative").toList changePct
      else []
    else []
  let latencyChange : List Char := []
  let throughputChange :=
    if current.latencyRaw > 0 ∧ baseline.latencyUs > 0 then
      let changePct := (current.latencyRaw - baseline.latencyUs) / baseline.latencyUs * 100
      if |changePct| > 1 then
        changeElement (if changePct < 0 then "positive" else "negative").toList changePct
      else throughputChange
    else throughputChange
  (throughputChange, latencyChange)

/-- When the latency moved by more than one percent, `calculate_changes` returns the latency's
element as the throughput change, whatever the throughput did, and no latency change.
-/
theorem calculateChanges_of_latency_moved (current : LatestMetrics) (baseline : DashboardBaseline)
    (measured : 0 < current.latencyRaw ∧ 0 < baseline.latencyUs)
    (moved : 1 < |(current.latencyRaw - baseline.latencyUs) / baseline.latencyUs * 100|)
    : calculateChanges current baseline
      = (changeElement
          (if (current.latencyRaw - baseline.latencyUs) / baseline.latencyUs * 100 < 0 then
            "positive" else "negative").toList
          ((current.latencyRaw - baseline.latencyUs) / baseline.latencyUs * 100), []) := by
  simp only [calculateChanges, gt_iff_lt, if_pos measured, if_pos moved]

/-- With the dashboard's baseline, a latency of 1 μs against 0.8 μs is 25% slower: its element
is returned as the throughput change.
-/
theorem calculateChanges_slower_latency
    : (0 < (1 : Rat) ∧ 0 < mainBaseline.latencyUs) ∧ 1 < |((1 : Rat) - mainBaseline.latencyUs)
        / mainBaseline.latencyUs * 100|
      ∧ calculateChanges ⟨"1.24M jobs/s".toList, 1240000, "1.00 μs".toList, 1⟩ mainBaseline
        = (changeElement "negative".toList 25, []) := by
  have measured : 0 < (1 : Rat) ∧ 0 < mainBaseline.latencyUs := by norm_num [mainBaseline]
  have moved : 1 < |((1 : Rat) - mainBaseline.latencyUs) / mainBaseline.latencyUs * 100| := by
    norm_num [mainBaseline, abs_of_pos]
  refine ⟨measured, moved, ?_⟩
  rw [calculateChanges_of_latency_moved ⟨_, 1240000, _, 1⟩ mainBaseline measured moved]
  norm_num [mainBaseline]

end ThreadSystem.Performance
