import ThreadSystemTools.Text.Regex
import ThreadSystemTools.Performance.Dashboard
import ThreadSystemTools.Performance.Badge

/-! `generate_performance_report.py`: the baselines `parse_baseline` reads from `BASELINE.md`
with three regex searches, the key metrics `extract_key_metrics` takes from `baseline.json`,
and the two parts of `generate_report` computed from them, the table of key metrics and the
recommendations. The badge takes the first `Throughput` benchmark; this report and the dashboard
take the last.
-/

namespace ThreadSystem.Performance

open ThreadSystem.Text

-----------------------------------------------------------------------------------------
-- `parse_baseline`
-----------------------------------------------------------------------------------------

/-- The value of a run of decimal digits, most significant first. -/
def digitsValue (U : UnicodeTable) (digits : List Char) : Nat :=
  digits.foldl (fun value c => value * 10 + (U.decimal c).getD 0) 0

/-- `float(text)` on the texts the three patterns capture: decimal digits, then possibly a
point and more digits. Other texts raise `ValueError` here; no capture is one of them.
-/
def numeralValue (U : UnicodeTable) (text : List Char) : Except String Rat :=
  let whole := text.takeWhile U.isDecimal
  match text.dropWhile U.isDecimal with
  | [] => if whole.isEmpty then .error "ValueError" else .ok (digitsValue U whole)
  | '.' :: fraction =>
      if !whole.isEmpty && !fraction.isEmpty && fraction.all U.isDecimal then
        .ok (digitsValue U whole + digitsValue U fraction / 10 ^ fraction.length)
      else .error "ValueError"
  | _ => .error "ValueError"

/-- `[\d,]`. -/
def decimalOrComma (U : UnicodeTable) (c : Char) : Bool := U.isDecimal c || c == ','

/-- `\d[\d,]+`. -/
def throughputNumber (U : UnicodeTable) : Regex :=
  .seq (.charClass U.isDecimal) (Regex.plus (decimalOrComma U))

/-- `r'Throughput.*?(\d[\d,]+)\s*jobs/second'`. -/
def throughputPattern (U : UnicodeTable) : Regex :=
  .seq (.literal "Throughput".toList) (.seq (.lazyStar Regex.notNewline)
    (.seq (.group (throughputNumber U)) (.seq (.greedyStar U.isSpace) (.literal "jobs/second".toList))))

/-- `\d+(?:\.\d+)?`. -/
def decimalNumber (U : UnicodeTable) : Regex :=
  .seq (Regex.plus U.isDecimal) (.optional (.seq (.literal ['.']) (Regex.plus U.isDecimal)))

/-- `r'Latency.*?<(\d+(?:\.\d+)?)\s*μs'`. -/
def latencyPattern (U : UnicodeTable) : Regex :=
  .seq (.literal "Latency".toList) (.seq (.lazyStar Regex.notNewline) (.seq (.literal ['<'])
    (.seq (.group (decimalNumber U)) (.seq (.greedyStar U.isSpace) (.literal "μs".toList)))))

/-- `r'Memory.*?(\d+(?:\.\d+)?)\s*MB\s*baseline'`. -/
def memoryPattern (U : UnicodeTable) : Regex :=
  .seq (.literal "Memory".toList) (.seq (.lazyStar Regex.notNewline)
    (.seq (.group (decimalNumber U)) (.seq (.greedyStar U.isSpace)
      (.seq (.literal "MB".toList) (.seq (.greedyStar U.isSpace) (.literal "baseline".toList))))))

/-- The dict `parse_baseline` returns; a key whose search fails is absent. -/
structure Baselines where
  throughput : Option Rat
  latencyUs : Option Rat
  memoryMb : Option Rat

/-- `float(m.group(1)...)` when the search matched, after `clean` (the throughput's
`replace(',', '')`).
-/
def readGroup (U : UnicodeTable) (searched : Option (List (List Char)))
    (clean : List Char → List Char) : Except String (Option Rat) :=
  match searched with
  | none => pure none
  | some groups => some <$> numeralValue U (clean (groups.headD []))

/-- `parse_baseline(baseline_file)` on the file's content. -/
def parseBaseline (U : UnicodeTable) (content : List Char) : Except String Baselines := do
  let throughput ← readGroup U ((throughputPattern U).search content)
    fun text => text.filter (· != ',')
  let latencyUs ← readGroup U ((latencyPattern U).search content) id
  let memoryMb ← readGroup U ((memoryPattern U).search content) id
  pure ⟨throughput, latencyUs, memoryMb⟩

-----------------------------------------------------------------------------------------
-- Every capture is a numeral
-----------------------------------------------------------------------------------------

section Numerals

variable (U : UnicodeTable)

theorem numeralValue_of_digits {whole : List Char} (nonempty : whole ≠ [])
    (digits : ∀ c ∈ whole, U.isDecimal c = true) : numeralValue U whole = .ok (digitsValue U whole) := by
  simp [numeralValue, List.takeWhile_eq_self_iff.mpr digits, List.dropWhile_eq_nil_iff.mpr digits,
    nonempty]

theorem numeralValue_of_point {whole fraction : List Char} (nonempty : whole ≠ [])
    (digits : ∀ c ∈ whole, U.isDecimal c = true) (nonemptyFraction : fraction ≠ [])
    (fractionDigits : ∀ c ∈ fraction, U.isDecimal c = true)
    : numeralValue U (whole ++ '.' :: fraction)
      = .ok (digitsValue U whole + digitsValue U fraction / 10 ^ fraction.length) := by
  have point : U.isDecimal '.' = false := by rw [U.isDecimal_of_ascii (by decide)]; decide
  simp [numeralValue, List.takeWhile_append_of_pos digits, List.dropWhile_append_of_pos digits,
    point, nonempty, nonemptyFraction]
  exact fractionDigits

/-- The three captures: the throughput's a digit then digits and commas, the others decimal
numbers.
-/
theorem throughputNumber_matches {number : List Char} {groups : List (List Char)}
    (matched : (throughputNumber U).Matches number groups)
    : groups = [] ∧ ∃ d e rest, number = d :: e :: rest ∧ U.isDecimal d = true
      ∧ ∀ c ∈ e :: rest, decimalOrComma U c = true := by
  simp only [throughputNumber, Regex.plus, Regex.matches_seq_iff, Regex.matches_charClass_iff,
    Regex.matches_greedyStar_iff] at matched
  obtain ⟨_, _, _, _, rfl, rfl, ⟨d, decimal, rfl, rfl⟩, _, rest, _, _, rfl, rfl,
    ⟨e, first, rfl, rfl⟩, more, rfl⟩ := matched
  exact ⟨rfl, d, e, rest, rfl, decimal, List.forall_mem_cons.mpr ⟨first, more⟩⟩

theorem decimalNumber_matches {number : List Char} {groups : List (List Char)}
    (matched : (decimalNumber U).Matches number groups)
    : groups = [] ∧ ∃ value, numeralValue U number = .ok value := by
  simp only [decimalNumber, Regex.plus, Regex.matches_seq_iff, Regex.matches_literal_iff,
    Regex.matches_optional_iff, Regex.matches_charClass_iff, Regex.matches_greedyStar_iff] at matched
  obtain ⟨_, _, _, _, rfl, rfl, ⟨_, digits, _, _, rfl, rfl, ⟨d, decimal, rfl, rfl⟩, more, rfl⟩,
    fraction⟩ := matched
  have whole : ∀ c ∈ d :: digits, U.isDecimal c = true := List.forall_mem_cons.mpr ⟨decimal, more⟩
  rcases fraction with ⟨_, _, _, _, rfl, rfl, ⟨rfl, rfl⟩, _, _, _, _, rfl, rfl,
    ⟨f, first, rfl, rfl⟩, rest, rfl⟩ | ⟨rfl, rfl⟩
  · exact ⟨rfl, _, numeralValue_of_point U (List.cons_ne_nil _ _) whole (List.cons_ne_nil _ _)
      (List.forall_mem_cons.mpr ⟨first, rest⟩)⟩
  · exact ⟨rfl, _, by simpa using numeralValue_of_digits U (List.cons_ne_nil _ _) whole⟩

/-- Without its commas the throughput's capture is a run of digits, which `float` reads. -/
theorem numeralValue_throughputNumber {number : List Char}
    (matched : (throughputNumber U).Matches number [])
    : numeralValue U (number.filter (· != ','))
      = .ok (digitsValue U (number.filter (· != ','))) := by
  obtain ⟨-, d, e, rest, rfl, decimal, more⟩ := throughputNumber_matches U matched
  have comma : U.isDecimal ',' = false := by rw [U.isDecimal_of_ascii (by decide)]; decide
  have apart : d ≠ ',' := fun same => by rw [same, comma] at decimal; cases decimal
  refine numeralValue_of_digits U (by simp [apart]) fun c member => ?_
  obtain ⟨present, kept⟩ := List.mem_filter.mp member
  rcases List.mem_cons.mp present with rfl | later
  · exact decimal
  · simpa [decimalOrComma, bne_iff_ne.mp kept] using more c later

end Numerals

-----------------------------------------------------------------------------------------
-- `parse_baseline` never raises
-----------------------------------------------------------------------------------------

section Parse

variable (U : UnicodeTable)

/-- A match of the throughput pattern: the word, the rest of its line up to the number, the
number, spaces and `jobs/second`.
-/
theorem throughputPattern_matches {front : List Char} {groups : List (List Char)}
    (matched : (throughputPattern U).Matches front groups)
    : ∃ middle number spaces,
        front = "Throughput".toList ++ middle ++ number ++ spaces ++ "jobs/second".toList
        ∧ groups = [number] ∧ (∀ c ∈ middle, c ≠ '\n') ∧ (throughputNumber U).Matches number []
        ∧ ∀ c ∈ spaces, U.isSpace c = true := by
  obtain ⟨_, _, rfl, word, label⟩ := Regex.matches_seq_of_plain (by rfl) matched
  obtain ⟨middle, _, rfl, sameLine, found⟩ := Regex.matches_seq_of_plain (by rfl) label
  obtain ⟨number, _, _, unit, rfl, rfl, captured, after⟩ := Regex.matches_seq_iff.mp found
  obtain ⟨inner, rfl, numeral⟩ := Regex.matches_group_iff.mp captured
  obtain ⟨rfl, -⟩ := throughputNumber_matches U numeral
  obtain ⟨spaces, _, rfl, spaced, tail⟩ := Regex.matches_seq_of_plain (by rfl) after
  obtain ⟨rfl, -⟩ := Regex.matches_literal_iff.mp word
  obtain ⟨rfl, rfl⟩ := Regex.matches_literal_iff.mp tail
  exact ⟨middle, number, spaces, by simp, rfl, fun c member => by
    simpa [Regex.notNewline] using (Regex.matches_lazyStar_iff.mp sameLine).1 c member, numeral,
    (Regex.matches_greedyStar_iff.mp spaced).1⟩

theorem latencyPattern_groups {front : List Char} {groups : List (List Char)}
    (matched : (latencyPattern U).Matches front groups)
    : ∃ number, groups = [number] ∧ ∃ value, numeralValue U number = .ok value := by
  obtain ⟨-, _, -, -, label⟩ := Regex.matches_seq_of_plain (by rfl) matched
  obtain ⟨-, _, -, -, opened⟩ := Regex.matches_seq_of_plain (by rfl) label
  obtain ⟨-, _, -, -, found⟩ := Regex.matches_seq_of_plain (by rfl) opened
  obtain ⟨number, _, _, unit, -, rfl, captured, after⟩ := Regex.matches_seq_iff.mp found
  obtain ⟨inner, rfl, numeral⟩ := Regex.matches_group_iff.mp captured
  obtain ⟨rfl, read⟩ := decimalNumber_matches U numeral
  rw [after.groups_eq_nil (by rfl)]
  exact ⟨number, rfl, read⟩

theorem memoryPattern_groups {front : List Char} {groups : List (List Char)}
    (matched : (memoryPattern U).Matches front groups)
    : ∃ number, groups = [number] ∧ ∃ value, numeralValue U number = .ok value := by
  obtain ⟨-, _, -, -, label⟩ := Regex.matches_seq_of_plain (by rfl) matched
  obtain ⟨-, _, -, -, found⟩ := Regex.matches_seq_of_plain (by rfl) label
  obtain ⟨number, _, _, unit, -, rfl, captured, after⟩ := Regex.matches_seq_iff.mp found
  obtain ⟨inner, rfl, numeral⟩ := Regex.matches_group_iff.mp captured
  obtain ⟨rfl, read⟩ := decimalNumber_matches U numeral
  rw [after.groups_eq_nil (by rfl)]
  exact ⟨number, rfl, read⟩

theorem readGroup_ok {searched : Option (List (List Char))} {clean : List Char → List Char}
    (numeral : ∀ groups, searched = some groups → ∃ value, numeralValue U (clean (groups.headD []))
      = .ok value)
    : ∃ value, readGroup U searched clean = .ok value := by
  cases searched with
  | none => exact ⟨none, rfl⟩
  | some groups =>
      obtain ⟨value, read⟩ := numeral groups rfl
      exact ⟨some value, by simp only [readGroup, read]; rfl⟩

theorem readGroup_throughput_ok (content : List Char)
    : ∃ value, readGroup U ((throughputPattern U).search content)
        (fun text => text.filter (· != ',')) = .ok value := by
  refine readGroup_ok U fun groups searched => ?_
  obtain ⟨-, front, -, -, matched, -⟩ := Regex.search_sound searched
  obtain ⟨_, number, _, -, rfl, -, numeral, -⟩ := throughputPattern_matches U matched
  exact ⟨_, numeralValue_throughputNumber U numeral⟩

theorem readGroup_latency_ok (content : List Char)
    : ∃ value, readGroup U ((latencyPattern U).search content) id = .ok value := by
  refine readGroup_ok U fun groups searched => ?_
  obtain ⟨-, front, -, -, matched, -⟩ := Regex.search_sound searched
  obtain ⟨number, rfl, read⟩ := latencyPattern_groups U matched
  exact read

theorem readGroup_memory_ok (content : List Char)
    : ∃ value, readGroup U ((memoryPattern U).search content) id = .ok value := by
  refine readGroup_ok U fun groups searched => ?_
  obtain ⟨-, front, -, -, matched, -⟩ := Regex.search_sound searched
  obtain ⟨number, rfl, read⟩ := memoryPattern_groups U matched
  exact read

/-- `parse_baseline` never raises once the file is read: what each pattern captures is a numeral
`float` accepts.
-/
theorem parseBaseline_ok (content : List Char) : ∃ baselines, parseBaseline U content = .ok baselines := by
  obtain ⟨throughput, readThroughput⟩ := readGroup_throughput_ok U content
  obtain ⟨latency, readLatency⟩ := readGroup_latency_ok U content
  obtain ⟨memory, readMemory⟩ := readGroup_memory_ok U content
  exact ⟨⟨throughput, latency, memory⟩, by
    simp [parseBaseline, readThroughput, readLatency, readMemory, bind, Except.bind, pure,
      Except.pure]⟩

/-- The other two searches never raise, so the throughput `parse_baseline` returns is what its
own search and `float` give.
-/
theorem parseBaseline_throughput (content : List Char)
    : (parseBaseline U content).map Baselines.throughput
      = readGroup U ((throughputPattern U).search content) fun text => text.filter (· != ',') := by
  obtain ⟨throughput, readThroughput⟩ := readGroup_throughput_ok U content
  obtain ⟨latency, readLatency⟩ := readGroup_latency_ok U content
  obtain ⟨memory, readMemory⟩ := readGroup_memory_ok U content
  rw [readThroughput]
  simp [parseBaseline, readThroughput, readLatency, readMemory, bind, Except.bind, pure,
    Except.pure, Except.map]

end Parse

-----------------------------------------------------------------------------------------
-- What the throughput search finds
-----------------------------------------------------------------------------------------

section Throughput

variable (U : UnicodeTable)

/-- The rest of the pattern after `.*?` fails where the line holds no digit. -/
theorem run_throughputNumber_of_not_decimal {c : Char} {s : List Char} {tail : Regex}
    {groups : List (List Char)} {α : Type} {k : List Char → List (List Char) → Option α}
    (notDecimal : U.isDecimal c = false)
    : (Regex.seq (.group (throughputNumber U)) tail).run (c :: s) groups k = none := by
  rw [Regex.run_seq, Regex.run_group, throughputNumber, Regex.run_seq,
    Regex.run_charClass_of_reject notDecimal]

/-- At the number, the greedy `[\d,]+` takes all of it, since what follows is a space or the
`j` of `jobs/second`, and the group captures the number.
-/
theorem run_throughputNumber_at {number spaces after : List Char}
    (numeral : (throughputNumber U).Matches number []) (spaced : ∀ c ∈ spaces, U.isSpace c = true)
    : (Regex.seq (.group (throughputNumber U))
        (.seq (.greedyStar U.isSpace) (.literal "jobs/second".toList))).run
        (number ++ spaces ++ "jobs/second".toList ++ after) [] Regex.found = some [number] := by
  obtain ⟨-, d, e, rest, rfl, decimal, more⟩ := throughputNumber_matches U numeral
  obtain ⟨first, restOk⟩ := List.forall_mem_cons.mp more
  have letter : U.isSpace 'j' = false ∧ decimalOrComma U 'j' = false := by
    rw [decimalOrComma, U.isSpace_of_ascii (by decide), U.isDecimal_of_ascii (by decide)]
    decide
  have stops : ∀ c ∈ (spaces ++ ("jobs/second".toList ++ after)).head?,
      decimalOrComma U c = false := by
    cases spaces with
    | nil => simpa using letter.2
    | cons c more =>
        have space := spaced c (List.mem_cons_self _ _)
        have comma : c ≠ ',' := by
          rintro rfl
          rw [U.isSpace_of_ascii (by decide)] at space
          cases space
        simpa [decimalOrComma, U.isDecimal_eq_false_of_isSpace space] using comma
  have spaceStops : ∀ c ∈ ("jobs/second".toList ++ after).head?, U.isSpace c = false := by
    simpa using letter.1
  have captured := Regex.take_sub_length (d :: e :: rest) (spaces ++ ("jobs/second".toList ++ after))
  simp only [List.cons_append] at captured
  simp only [Regex.run, Regex.plus, throughputNumber, List.append_assoc, List.cons_append, decimal,
    first, if_true]
  rw [Regex.greedyScan_longest restOk stops]
  rw [Regex.greedyScan_longest spaced spaceStops]
  rw [if_pos (List.isPrefixOf_iff_prefix.mpr (List.prefix_append _ _))]
  simp only [Regex.found, List.nil_append, captured]

/-- The search finds the first line that holds `Throughput`: when no earlier position starts
`Throughput`, the rest of that line up to a number holds no digit, and the number is followed by
spaces and `jobs/second`, the search captures that number.
-/
theorem throughputPattern_search {before middle number spaces after : List Char}
    (first : ∀ i < before.length, ¬ "Throughput".toList <+:
      (before ++ "Throughput".toList ++ middle ++ number ++ spaces ++ "jobs/second".toList
        ++ after).drop i)
    (sameLine : ∀ c ∈ middle, c ≠ '\n' ∧ U.isDecimal c = false)
    (numeral : (throughputNumber U).Matches number []) (spaced : ∀ c ∈ spaces, U.isSpace c = true)
    : (throughputPattern U).search
        (before ++ "Throughput".toList ++ middle ++ number ++ spaces ++ "jobs/second".toList ++ after)
      = some [number] := by
  have atNumber := @run_throughputNumber_at U number spaces after numeral spaced
  simp only [List.append_assoc] at first atNumber ⊢
  rw [Regex.search_skip fun i short => by
      rw [throughputPattern, Regex.run_seq, Regex.run_literal_of_not_prefix (first i short)]]
  apply Regex.search_of_run
  rw [throughputPattern, Regex.run_seq, Regex.run_literal_append, Regex.run_seq, Regex.run_lazyStar,
    Regex.lazyScan_skip (fun c member => by simpa [Regex.notNewline] using (sameLine c member).1)
      fun i short => ?_]
  · exact Regex.lazyScan_of_some atNumber
  · rw [List.drop_eq_getElem_cons short, List.cons_append]
    exact run_throughputNumber_of_not_decimal U (sameLine _ (List.getElem_mem _)).2

end Throughput

-----------------------------------------------------------------------------------------
-- `extract_key_metrics`
-----------------------------------------------------------------------------------------

/-- The dict `extract_key_metrics` returns: the `items_per_second` of a `Throughput` benchmark
as loaded, and the `cpu_time` of a `TaskSubmission` one in microseconds.
-/
structure KeyMetrics where
  throughputJobsPerSec : Option JsonValue
  latencyUs : Option Rat

/-- One benchmark of the loop; a later benchmark of either kind overwrites an earlier one. -/
def keyMetricsStep (metrics : KeyMetrics) (bench : JsonValue) : Except String KeyMetrics := do
  let name ← bench.get "name" (.string [])
  let metrics ← if ← name.has "Throughput".toList then
      pure { metrics with throughputJobsPerSec := some (← bench.get "items_per_second" (.number 0)) }
    else pure metrics
  if ← name.has "TaskSubmission".toList then
    pure { metrics with latencyUs := some (← (← bench.get "cpu_time" (.number 0)).divide 1000) }
  else pure metrics

/-- `extract_key_metrics(results)`, with `results` the loaded files by their distinct stems. -/
def extractKeyMetrics (results : List (String × JsonValue)) : Except String KeyMetrics :=
  match results.lookup "baseline" with
  | none => pure ⟨none, none⟩
  | some baseline => do
      (← (← baseline.get "benchmarks" (.array [])).iterate).foldlM keyMetricsStep ⟨none, none⟩

-----------------------------------------------------------------------------------------
-- The table of key metrics and the recommendations of `generate_report`
-----------------------------------------------------------------------------------------

/-- The two arrows, each an emoji and the variation selector U+FE0F. -/
def upArrow : List Char := "⬆️".toList

def downArrow : List Char := "⬇️".toList

/-- `calculate_change(current, baseline)`: the change in percent and its direction, `=` under
one percent either way and for a zero baseline. The current value is used as loaded.
-/
def calculateChange (current : JsonValue) (baseline : Rat) : Except String (Rat × List Char) :=
  if baseline = 0 then pure (0, "=".toList)
  else current.numeric.map fun current =>
    let changePct := (current - baseline) / baseline * 100
    (changePct, if |changePct| < 1 then "=".toList
      else if changePct > 0 then upArrow else downArrow)

/-- `format_number(value, unit)`. -/
def formatNumber (value : JsonValue) (unit : List Char) : Except String (List Char) :=
  value.numeric.map fun value =>
    if value ≥ 1000000 then formatFixed (value / 1000000) 2 ++ 'M' :: unit
    else if value ≥ 1000 then formatFixed (value / 1000) 2 ++ 'K' :: unit
    else formatFixed value 2 ++ unit

/-- The throughput row: the change is computed first, then both values are formatted. -/
def throughputRow (current : JsonValue) (baseline : Rat) : Except String (List Char) := do
  let (change, direction) ← calculateChange current baseline
  let currentText ← formatNumber current " jobs/s".toList
  let baselineText ← formatNumber (.number baseline) " jobs/s".toList
  pure ("| Throughput | ".toList ++ currentText ++ " | ".toList ++ baselineText ++ " | ".toList
    ++ direction ++ ' ' :: formatSigned change 2 ++ "% |\n".toList)

/-- The latency row: a lower latency is better, so the direction is the change's sign reversed,
with no band around zero.
-/
def latencyRow (current baseline : Rat) : Except String (List Char) := do
  let (change, _) ← calculateChange (.number current) baseline
  let direction := if change < 0 then upArrow else if change > 0 then downArrow else "=".toList
  pure ("| Latency (P50) | ".toList ++ formatFixed current 2 ++ " μs | ".toList
    ++ formatFixed baseline 2 ++ " μs | ".toList ++ direction ++ ' ' :: formatSigned change 2
    ++ "% |\n".toList)

/-- The `if` block of the throughput row. -/
def throughputBlock (metrics : KeyMetrics) (baselines : Baselines) : Except String (List Char) :=
  match metrics.throughputJobsPerSec, baselines.throughput with
  | some current, some baseline => throughputRow current baseline
  | _, _ => pure []

/-- The `if` block of the latency row. -/
def latencyBlock (metrics : KeyMetrics) (baselines : Baselines) : Except String (List Char) :=
  match metrics.latencyUs, baselines.latencyUs with
  | some current, some baseline => latencyRow current baseline
  | _, _ => pure []

/-- The section `## Key Performance Metrics` of the report: a row for each metric present both in
the results and in the baselines.
-/
def keyMetricsTable (metrics : KeyMetrics) (baselines : Baselines) : Except String (List Char) := do
  let throughput ← throughputBlock metrics baselines
  let latency ← latencyBlock metrics baselines
  pure ("## Key Performance Metrics\n".toList ++ "| Metric | Current | Baseline | Change |\n".toList
    ++ "|--------|---------|----------|--------|\n".toList ++ throughput ++ latency ++ "\n".toList)

def warningAdvice : List Char :=
  "⚠️ **Warning**: Throughput has decreased by more than 5%. Please review recent changes.\n\n".toList

def greatAdvice : List Char := "✅ **Great**: Throughput has improved by more than 10%!\n\n".toList

def recommendationsHeading : List Char := "## Performance Recommendations\n\n".toList

/-- The section `## Performance Recommendations`: a warning below -5%, a compliment above 10%. -/
def recommendations (metrics : KeyMetrics) (baselines : Baselines) : Except String (List Char) := do
  let advice ← match metrics.throughputJobsPerSec, baselines.throughput with
    | some current, some baseline => do
        let (change, _) ← calculateChange current baseline
        pure (if change < -5 then warningAdvice else if change > 10 then greatAdvice else [])
    | _, _ => pure []
  pure (recommendationsHeading ++ advice)

-----------------------------------------------------------------------------------------
-- The recommendations agree with the table
-----------------------------------------------------------------------------------------

/-- A change past either recommendation threshold is past the one-percent band, so it has an
arrow, and the current value was a number.
-/
theorem calculateChange_direction {current : JsonValue} {baseline change : Rat}
    {direction : List Char} (computed : calculateChange current baseline = .ok (change, direction))
    : (change < -5 → direction = downArrow ∧ ∃ x, current.numeric = .ok x)
      ∧ (10 < change → direction = upArrow ∧ ∃ x, current.numeric = .ok x) := by
  unfold calculateChange at computed
  split_ifs at computed with zero
  · cases computed
    exact ⟨fun low => absurd low (by norm_num), fun high => absurd high (by norm_num)⟩
  · cases number : current.numeric with
    | error message => simp [number, Except.map] at computed
    | ok x =>
        simp only [number, Except.map, Except.ok.injEq, Prod.mk.injEq] at computed
        obtain ⟨rfl, rfl⟩ := computed
        refine ⟨fun low => ⟨?_, x, rfl⟩, fun high => ⟨?_, x, rfl⟩⟩
        · rw [if_neg (by rw [abs_lt]; intro within; linarith [within.1]),
            if_neg (by linarith)]
        · rw [if_neg (by rw [abs_lt]; intro within; linarith [within.2]), if_pos (by linarith)]

/-- The latency row never raises: its values are numbers. -/
theorem latencyRow_ok (current baseline : Rat) : ∃ row, latencyRow current baseline = .ok row := by
  by_cases zero : baseline = 0 <;>
    simp [latencyRow, calculateChange, zero, JsonValue.numeric, Except.map, bind, Except.bind, pure,
      Except.pure]

/-- A throughput whose change was computed from a number is shown with that change and its
direction at the end of its row.
-/
theorem throughputRow_of_change {current : JsonValue} {baseline change : Rat}
    {direction : List Char} (computed : calculateChange current baseline = .ok (change, direction))
    (number : ∃ x, current.numeric = .ok x)
    : ∃ row, throughputRow current baseline = .ok row
      ∧ direction ++ ' ' :: formatSigned change 2 ++ "% |\n".toList <:+ row := by
  obtain ⟨x, number⟩ := number
  obtain ⟨currentText, currentShown⟩ : ∃ text, formatNumber current " jobs/s".toList = .ok text :=
    ⟨_, by rw [formatNumber, number]; rfl⟩
  obtain ⟨baselineText, baselineShown⟩ : ∃ text,
      formatNumber (.number baseline) " jobs/s".toList = .ok text := ⟨_, rfl⟩
  let front := "| Throughput | ".toList ++ currentText ++ " | ".toList ++ baselineText
    ++ " | ".toList
  refine ⟨front ++ direction ++ ' ' :: formatSigned change 2 ++ "% |\n".toList, ?_,
    ⟨front, by simp only [List.append_assoc]⟩⟩
  simp only [throughputRow, computed, currentShown, baselineShown, bind, Except.bind, pure,
    Except.pure]

/-- The table holds the throughput row whenever it can be computed. -/
theorem keyMetricsTable_of_row {metrics : KeyMetrics} {baselines : Baselines} {current : JsonValue}
    {baseline : Rat} {row : List Char} (measured : metrics.throughputJobsPerSec = some current)
    (known : baselines.throughput = some baseline) (shown : throughputRow current baseline = .ok row)
    : ∃ table, keyMetricsTable metrics baselines = .ok table ∧ row <:+: table := by
  obtain ⟨rows, latency⟩ : ∃ rows, latencyBlock metrics baselines = .ok rows := by
    unfold latencyBlock
    cases metrics.latencyUs <;> cases baselines.latencyUs
    all_goals first | exact ⟨[], rfl⟩ | exact latencyRow_ok _ _
  let heading := "## Key Performance Metrics\n".toList
    ++ "| Metric | Current | Baseline | Change |\n".toList
    ++ "|--------|---------|----------|--------|\n".toList
  refine ⟨heading ++ row ++ rows ++ "\n".toList, ?_, ⟨heading, rows ++ "\n".toList, by
    simp only [List.append_assoc]⟩⟩
  simp only [keyMetricsTable, throughputBlock, measured, known, shown, latency, bind, Except.bind,
    pure, Except.pure]

/-- When the report warns that the throughput fell by more than 5%, its table shows the
throughput with a down arrow and the same change; when it says the throughput rose by more than
10%, with an up arrow. The advice and the table never disagree.
-/
theorem recommendations_agree_with_table {metrics : KeyMetrics} {baselines : Baselines}
    {advice : List Char} (advised : recommendations metrics baselines
      = .ok (recommendationsHeading ++ advice)) (given : advice ≠ [])
    : ∃ change direction table, keyMetricsTable metrics baselines = .ok table
        ∧ direction ++ ' ' :: formatSigned change 2 ++ "% |\n".toList <:+: table
        ∧ (advice = warningAdvice ∧ change < -5 ∧ direction = downArrow
          ∨ advice = greatAdvice ∧ 10 < change ∧ direction = upArrow) := by
  cases measured : metrics.throughputJobsPerSec with
  | none =>
      simp [recommendations, measured, pure, Except.pure, bind, Except.bind] at advised
      exact absurd advised given
  | some current =>
      cases known : baselines.throughput with
      | none =>
          simp [recommendations, measured, known, pure, Except.pure, bind, Except.bind] at advised
          exact absurd advised given
      | some baseline =>
          cases computed : calculateChange current baseline with
          | error message =>
              simp [recommendations, measured, known, computed, bind, Except.bind] at advised
          | ok result =>
              obtain ⟨change, direction⟩ := result
              simp only [recommendations, measured, known, computed, bind, Except.bind, pure,
                Except.pure, Except.ok.injEq, List.append_cancel_left_eq] at advised
              obtain ⟨down, up⟩ := calculateChange_direction computed
              have table : ∀ x, current.numeric = .ok x → ∃ table,
                  keyMetricsTable metrics baselines = .ok table
                  ∧ direction ++ ' ' :: formatSigned change 2 ++ "% |\n".toList <:+: table := by
                intro x number
                obtain ⟨row, shown, ends⟩ := throughputRow_of_change computed ⟨x, number⟩
                obtain ⟨table, built, holds⟩ := keyMetricsTable_of_row measured known shown
                exact ⟨table, built, ends.isInfix.trans holds⟩
              by_cases low : change < -5
              · obtain ⟨arrow, x, number⟩ := down low
                obtain ⟨shown, built, holds⟩ := table x number
                exact ⟨change, direction, shown, built, holds,
                  .inl ⟨by rw [← advised, if_pos low], low, arrow⟩⟩
              · by_cases high : 10 < change
                · obtain ⟨arrow, x, number⟩ := up high
                  obtain ⟨shown, built, holds⟩ := table x number
                  exact ⟨change, direction, shown, built, holds,
                    .inr ⟨by rw [← advised, if_neg low, if_pos high], high, arrow⟩⟩
                · rw [if_neg low, if_neg high] at advised
                  exact absurd advised.symm given

/-- A throughput of one million jobs per second against the baseline of 1.24 million is 19%
slower: the report warns, and its table shows a down arrow.
-/
theorem recommendations_agree_with_table_slower
    : let metrics : KeyMetrics := ⟨some (.number 1000000), none⟩
      let baselines : Baselines := ⟨some 1240000, none, none⟩
      recommendations metrics baselines = .ok (recommendationsHeading ++ warningAdvice)
      ∧ warningAdvice ≠ []
      ∧ ∃ change direction table, keyMetricsTable metrics baselines = .ok table
        ∧ direction ++ ' ' :: formatSigned change 2 ++ "% |\n".toList <:+: table
        ∧ (warningAdvice = warningAdvice ∧ change < -5 ∧ direction = downArrow
          ∨ warningAdvice = greatAdvice ∧ 10 < change ∧ direction = upArrow) := by
  intro metrics baselines
  have advised : recommendations metrics baselines
      = .ok (recommendationsHeading ++ warningAdvice) := by
    norm_num [metrics, baselines, recommendations, calculateChange, JsonValue.numeric, Except.map,
      bind, Except.bind, pure, Except.pure]
  have given : warningAdvice ≠ [] := by simp [warningAdvice]
  exact ⟨advised, given, recommendations_agree_with_table advised given⟩

-----------------------------------------------------------------------------------------
-- Which `Throughput` benchmark each script reads
-----------------------------------------------------------------------------------------

/-- A benchmark as Google Benchmark writes it: a dict whose `name` is a string and whose
`items_per_second` and `cpu_time` are numbers where present.
-/
structure PlainBenchmark (bench : JsonValue) : Prop where
  named : ∃ name, bench.get "name" (.string []) = .ok (.string name)
  rated : ∃ rate, bench.get "items_per_second" (.number 0) = .ok (.number rate)
  timed : ∃ time, bench.get "cpu_time" (.number 0) = .ok (.number time)

/-- Whether a benchmark's name holds `Throughput`, the test all three scripts apply. -/
def namesThroughput (bench : JsonValue) : Bool :=
  match bench.get "name" (.string []) with
  | .ok (.string name) => contains "Throughput".toList name
  | _ => false

/-- A benchmark's `items_per_second`, 0 where absent. -/
def itemsPerSecondOf (bench : JsonValue) : Rat :=
  match bench.get "items_per_second" (.number 0) with
  | .ok (.number rate) => rate
  | _ => 0

/-- A loop whose step overwrites a value exactly at the `Throughput` benchmarks ends with the
value of the last of them, or its start value when there is none.
-/
theorem foldlM_last {σ β : Type} {f : σ → JsonValue → Except String σ} {proj : σ → β}
    {value : JsonValue → β} {benches : List JsonValue}
    (step : ∀ state, ∀ bench ∈ benches, ∃ next, f state bench = .ok next
      ∧ proj next = if namesThroughput bench then value bench else proj state)
    (start : σ)
    : ∃ final, benches.foldlM f start = .ok final
      ∧ proj final = (((benches.filter namesThroughput).map value).getLast?).getD (proj start) := by
  induction benches generalizing start with
  | nil => exact ⟨start, rfl, rfl⟩
  | cons bench rest ih =>
      obtain ⟨next, stepped, tracked⟩ := step start bench (List.mem_cons_self _ _)
      obtain ⟨final, run, last⟩ := ih (fun state bench member =>
        step state bench (List.mem_cons_of_mem _ member)) next
      refine ⟨final, by rw [List.foldlM_cons, stepped]; exact run, ?_⟩
      rw [last, tracked]
      by_cases named : namesThroughput bench <;> simp [named, List.filter_cons, List.getLast?_cons]

/-- The badge's loop stops at the first `Throughput` benchmark. -/
theorem firstThroughput_plain {benches : List JsonValue} (plain : ∀ bench ∈ benches, PlainBenchmark bench)
    : (firstThroughput benches).bind JsonValue.numeric
      = .ok (((benches.filter namesThroughput).map itemsPerSecondOf).headD 0) := by
  induction benches with
  | nil => rfl
  | cons bench rest ih =>
      obtain ⟨⟨name, named⟩, ⟨rate, rated⟩, -⟩ := plain bench (List.mem_cons_self _ _)
      have later := ih fun other member => plain other (List.mem_cons_of_mem _ member)
      have step : firstThroughput (bench :: rest) = if contains "Throughput".toList name = true
          then bench.get "items_per_second" (.number 0) else firstThroughput rest := by
        simp only [firstThroughput, named, JsonValue.has, bind, Except.bind]
      have filtered : namesThroughput bench = contains "Throughput".toList name := by
        simp only [namesThroughput, named]
      rw [step, List.filter_cons, filtered]
      by_cases found : contains "Throughput".toList name = true
      · rw [if_pos found, if_pos found, rated]
        simp only [List.map_cons, List.headD_cons, itemsPerSecondOf, rated]
        rfl
      · rw [if_neg found, if_neg found]
        exact later

theorem namesThroughput_of_name {bench : JsonValue} {name : List Char}
    (named : bench.get "name" (.string []) = .ok (.string name))
    : namesThroughput bench = contains "Throughput".toList name := by
  simp only [namesThroughput, named]

/-- The dashboard's step sets the raw throughput at a `Throughput` benchmark only. -/
theorem latestStep_plain {bench : JsonValue} (plain : PlainBenchmark bench) (metrics : LatestMetrics)
    : ∃ next, latestStep metrics bench = .ok next
      ∧ next.throughputRaw = if namesThroughput bench then itemsPerSecondOf bench else metrics.throughputRaw := by
  obtain ⟨⟨name, named⟩, ⟨rate, rated⟩, ⟨time, timed⟩⟩ := plain
  simp only [latestStep, namesThroughput_of_name named, itemsPerSecondOf, named, rated, timed,
    JsonValue.has, JsonValue.numeric, JsonValue.divide, bind, Except.bind, pure, Except.pure, Except.map]
  generalize contains "Throughput".toList name = found
  generalize contains "TaskSubmission".toList name = submits
  cases found <;> cases submits <;> simp

/-- The report's step sets the throughput at a `Throughput` benchmark only. -/
theorem keyMetricsStep_plain {bench : JsonValue} (plain : PlainBenchmark bench) (metrics : KeyMetrics)
    : ∃ next, keyMetricsStep metrics bench = .ok next
      ∧ next.throughputJobsPerSec = if namesThroughput bench then some (.number (itemsPerSecondOf bench))
        else metrics.throughputJobsPerSec := by
  obtain ⟨⟨name, named⟩, ⟨rate, rated⟩, ⟨time, timed⟩⟩ := plain
  simp only [keyMetricsStep, namesThroughput_of_name named, itemsPerSecondOf, named, rated, timed,
    JsonValue.has, JsonValue.numeric, JsonValue.divide, bind, Except.bind, pure, Except.pure, Except.map]
  generalize contains "Throughput".toList name = found
  generalize contains "TaskSubmission".toList name = submits
  cases found <;> cases submits <;> simp

end ThreadSystem.Performance
