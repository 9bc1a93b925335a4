import ThreadSystemTools.Text.Substitution
import ThreadSystemTools.Performance.Json

/-! `update_readme_performance.py`: `extract_metrics`, `format_throughput`, and `update_readme`,
which replaces every marked section of the README with a block built from the metrics. The
replacement is `re.sub` with the lazy DOTALL pattern `START.*?END`, run by the scanner of
`ThreadSystem.Text.subFrom`. The main result: an update applied to its own output changes
nothing, keeps the text before the first start marker, and leaves the block in the output
whenever the input had a start marker with an end marker after it.
-/

namespace ThreadSystem.Performance

open ThreadSystem.Text

-----------------------------------------------------------------------------------------
-- The metrics
-----------------------------------------------------------------------------------------

/-- `datetime.utcnow().strftime('%Y-%m-%d')`: a text of digits and dashes. -/
structure StampDate where
  text : List Char
  digits_or_dash : ∀ c ∈ text, c ∈ "0123456789-".toList

/-- The dict `extract_metrics` returns, without its `workers` entry, which nothing reads. -/
structure Metrics where
  throughput : JsonValue
  latencyP50 : Rat
  date : StampDate

/-- One benchmark of `extract_metrics`: a `Throughput` name sets the throughput to the
`items_per_second` value as it is, a `TaskSubmission` name sets the latency to `cpu_time`
over a thousand.
-/
def metricsStep (metrics : Metrics) (bench : JsonValue) : Except String Metrics := do
  let name ← bench.get "name" (.string [])
  let throughput ←
    if ← name.has "Throughput".toList then bench.get "items_per_second" (.number 0)
    else pure metrics.throughput
  let latencyP50 ←
    if ← name.has "TaskSubmission".toList then (← bench.get "cpu_time" (.number 0)).divide 1000
    else pure metrics.latencyP50
  pure { metrics with throughput := throughput, latencyP50 := latencyP50 }

/-- `extract_metrics(data)` on the date the clock gives; nothing catches its exceptions. -/
def extractMetrics (date : StampDate) (data : JsonValue) : Except String Metrics := do
  let benches ← (← data.get "benchmarks" (.array [])).iterate
  benches.foldlM metricsStep ⟨.number 0, 0, date⟩

-----------------------------------------------------------------------------------------
-- The block
-----------------------------------------------------------------------------------------

/-- `format_throughput(value)`: the comparisons raise unless the value is numeric. -/
def formatThroughput (value : JsonValue) : Except String (List Char) := do
  let value ← value.numeric
  if value ≥ 1000000 then pure (formatFixed (value / 1000000) 2 ++ "M jobs/s".toList)
  else if value ≥ 1000 then pure (formatFixed (value / 1000) 2 ++ "K jobs/s".toList)
  else pure (formatFixed value 0 ++ " jobs/s".toList)

-----------------------------------------------------------------------------------------
-- The section and its replacement
-----------------------------------------------------------------------------------------

def markerStart : List Char := "<!-- PERFORMANCE_METRICS_START -->".toList

def markerEnd : List Char := "<!-- PERFORMANCE_METRICS_END -->".toList

/-- The lines of the f-string `new_metrics` between its two markers. -/
def sectionBody (date throughput latency : List Char) : List Char :=
  "\n\n**Latest CI Performance (Ubuntu 22.04, Release build)**\n\n".toList
    ++ "*Last updated: ".toList ++ date ++ "*\n\n".toList
    ++ "| Metric | Value | Notes |\n".toList
    ++ "|--------|-------|-------|\n".toList
    ++ "| **Throughput** | ".toList ++ throughput ++ " | Jobs processed per second |\n".toList
    ++ "| **Latency (P50)** | ".toList ++ latency ++ " μs | Task submission latency |\n".toList
    ++ "| **Platform** | Ubuntu 22.04 | CI environment |\n".toList
    ++ "| **Build** | Release (-O3) | Optimized build |\n\n".toList
    ++ ("> 📊 These metrics are automatically measured in our CI pipeline. See "
      ++ "[BASELINE.md](BASELINE.md) for detailed performance analysis.\n\n").toList

/-- `new_metrics`, the block that replaces each section. -/
def newMetrics (metrics : Metrics) : Except String (List Char) := do
  let throughput ← formatThroughput metrics.throughput
  pure (markerStart ++ sectionBody metrics.date.text throughput (formatFixed metrics.latencyP50 2)
    ++ markerEnd)

/-- The shortest prefix of the text that ends with `needle`: what `.*?` followed by the needle
spans under DOTALL.
-/
def throughFirst (needle : List Char) : List Char → Option (List Char)
  | [] => if needle.isPrefixOf [] then some needle else none
  | c :: rest =>
      if needle.isPrefixOf (c :: rest) then some needle
      else (throughFirst needle rest).map (c :: ·)

/-- The match of `re.escape(marker_start) + '.*?' + re.escape(marker_end)` at the start of the
text: the start marker, then the text through the first end marker after it.
-/
def sectionAt (text : List Char) : Option (List Char) :=
  if markerStart.isPrefixOf text then
    (throughFirst markerEnd (text.drop markerStart.length)).map (markerStart ++ ·)
  else none

/-- The compiled `pattern`, for the scanner; it has no lookbehind and no group. -/
def sectionPattern (_before text : List Char) : Option Match :=
  (sectionAt text).map fun span => ⟨span, []⟩

/-- `update_readme(readme_path, metrics)` on the README's text: when both markers occur, every
section is replaced by `new_metrics`. The block holds no backslash, so `re.sub` inserts it as
it is.
-/
def updateReadme (content : List Char) (metrics : Metrics) : Except String (List Char) :=
  if contains markerStart content && contains markerEnd content then do
    let block ← newMetrics metrics
    pure (subFrom sectionPattern (fun _ => block) 0 [] content)
  else pure content

-----------------------------------------------------------------------------------------
-- What a block is made of
-----------------------------------------------------------------------------------------

/-- The characters a formatted number is written with. -/
def numeralChars : List Char := "-.0123456789".toList

/-- The characters a block holds between its markers: the date's, a number's, the units', and
the template's own.
-/
def bodyChars : List Char :=
  "0123456789-".toList ++ numeralChars ++ "MK jobs/s".toList ++ sectionBody [] [] []

theorem digitChar_numeral {d : Nat} (small : d < 10) : Nat.digitChar d ∈ numeralChars := by
  revert d
  decide

theorem toDigitsCore_numeral (fuel n : Nat) (acc : List Char)
    (clean : ∀ c ∈ acc, c ∈ numeralChars) : ∀ c ∈ Nat.toDigitsCore 10 fuel n acc, c ∈ numeralChars := by
  induction fuel generalizing n acc with
  | zero => exact clean
  | succ fuel ih =>
      have extended : ∀ c ∈ Nat.digitChar (n % 10) :: acc, c ∈ numeralChars :=
        List.forall_mem_cons.mpr ⟨digitChar_numeral (Nat.mod_lt n (by decide)), clean⟩
      simp only [Nat.toDigitsCore]
      split
      · exact extended
      · exact ih _ _ extended

theorem formatFixed_numeral (x : Rat) (places : Nat)
    : ∀ c ∈ formatFixed x places, c ∈ numeralChars := by
  have padded : ∀ k n, ∀ c ∈ List.replicate k '0' ++ Nat.toDigits 10 n, c ∈ numeralChars := by
    intro k n c member
    rcases List.mem_append.mp member with zero | digit
    · rw [List.eq_of_mem_replicate zero]
      decide
    · exact toDigitsCore_numeral _ _ [] (by simp) c digit
  intro c member
  simp only [formatFixed, List.mem_append] at member
  rcases member with sign | body
  · split_ifs at sign
    · rw [List.mem_singleton.mp sign]
      decide
    · simp at sign
  · split_ifs at body
    · exact padded _ _ c body
    · rcases List.mem_append.mp body with front | point
      · exact padded _ _ c (List.mem_of_mem_take front)
      · rcases List.mem_cons.mp point with rfl | back
        · decide
        · exact padded _ _ c (List.mem_of_mem_drop back)

theorem formatThroughput_chars {value : JsonValue} {text : List Char}
    (formatted : formatThroughput value = .ok text)
    : ∀ c ∈ text, c ∈ numeralChars ++ "MK jobs/s".toList := by
  have number : ∀ x places (unit : List Char), (∀ c ∈ unit, c ∈ "MK jobs/s".toList) →
      ∀ c ∈ formatFixed x places ++ unit, c ∈ numeralChars ++ "MK jobs/s".toList :=
    fun x places _ units => List.forall_mem_append.mpr
      ⟨fun c member => List.mem_append_left _ (formatFixed_numeral x places c member),
        fun c member => List.mem_append_right _ (units c member)⟩
  cases found : value.numeric with
  | error message => simp [formatThroughput, found, bind, Except.bind] at formatted
  | ok x =>
      simp only [formatThroughput, found, bind, Except.bind, pure, Except.pure] at formatted
      split_ifs at formatted <;> cases formatted <;> exact number _ _ _ (by decide)

/-- What holds of the template's characters and of the three values holds of the body. -/
theorem sectionBody_forall {p : Char → Prop} {date throughput latency : List Char}
    (template : ∀ c ∈ sectionBody [] [] [], p c) (dated : ∀ c ∈ date, p c)
    (formatted : ∀ c ∈ throughput, p c) (timed : ∀ c ∈ latency, p c)
    : ∀ c ∈ sectionBody date throughput latency, p c := by
  simp only [sectionBody, List.forall_mem_append, List.append_nil] at template ⊢
  casesm* _ ∧ _
  and_intros <;> assumption

/-- A block is the start marker, a body over `bodyChars`, and the end marker. -/
theorem newMetrics_body {metrics : Metrics} {block : List Char}
    (built : newMetrics metrics = .ok block)
    : ∃ body, block = markerStart ++ body ++ markerEnd ∧ ∀ c ∈ body, c ∈ bodyChars := by
  cases formatted : formatThroughput metrics.throughput with
  | error message => simp [newMetrics, formatted, bind, Except.bind] at built
  | ok throughput =>
      simp only [newMetrics, formatted, bind, Except.bind, pure, Except.pure, Except.ok.injEq]
        at built
      refine ⟨_, built.symm, sectionBody_forall ?_ ?_ ?_ ?_⟩
      · exact fun c member => List.mem_append_right _ member
      · exact fun c member => List.mem_append_left _ (List.mem_append_left _
          (List.mem_append_left _ (metrics.date.digits_or_dash c member)))
      · intro c member
        rcases List.mem_append.mp (formatThroughput_chars formatted c member) with numeral | unit
        · exact List.mem_append_left _ (List.mem_append_left _ (List.mem_append_right _ numeral))
        · exact List.mem_append_left _ (List.mem_append_right _ unit)
      · exact fun c member => List.mem_append_left _ (List.mem_append_left _
          (List.mem_append_right _ (formatFixed_numeral _ _ c member)))

theorem newMetrics_eq_error {metrics : Metrics} {message : String}
    : newMetrics metrics = .error message ↔ formatThroughput metrics.throughput = .error message := by
  cases formatted : formatThroughput metrics.throughput <;>
    simp [newMetrics, formatted, bind, Except.bind, pure, Except.pure]

theorem lt_not_mem_bodyChars : '<' ∉ bodyChars := by
  simp only [bodyChars, sectionBody, numeralChars, List.mem_append, List.append_nil, not_or]
  decide

/-- No block holds a backslash, so the replacement string of `pattern.sub` has no escape in it. -/
theorem backslash_not_mem_newMetrics {metrics : Metrics} {block : List Char}
    (built : newMetrics metrics = .ok block) : '\\' ∉ block := by
  obtain ⟨body, rfl, chars⟩ := newMetrics_body built
  have plain : '\\' ∉ bodyChars := by
    simp only [bodyChars, sectionBody, numeralChars, List.mem_append, List.append_nil, not_or]
    decide
  simp only [List.mem_append, not_or]
  exact ⟨⟨by decide, fun member => plain (chars _ member)⟩, by decide⟩

-----------------------------------------------------------------------------------------
-- Where the pattern matches
-----------------------------------------------------------------------------------------

/-- The lazy search returns a prefix of the text that ends with the needle. -/
theorem throughFirst_spans {needle text span : List Char}
    (found : throughFirst needle text = some span) : span <+: text ∧ needle <:+ span := by
  induction text generalizing span with
  | nil =>
      simp only [throughFirst] at found
      split at found <;> cases found
      exact ⟨List.isPrefixOf_iff_prefix.mp (by assumption), List.suffix_refl _⟩
  | cons c rest ih =>
      simp only [throughFirst] at found
      split at found
      · cases found
        exact ⟨List.isPrefixOf_iff_prefix.mp (by assumption), List.suffix_refl _⟩
      · obtain ⟨inner, later, rfl⟩ := Option.map_eq_some'.mp found
        obtain ⟨⟨tail, rfl⟩, suffix⟩ := ih later
        exact ⟨⟨tail, rfl⟩, suffix.trans (List.suffix_cons c inner)⟩

/-- The lazy search succeeds exactly on a text that holds the needle. -/
theorem throughFirst_isSome_iff {needle text : List Char}
    : (throughFirst needle text).isSome ↔ needle <:+: text := by
  constructor
  · intro found
    obtain ⟨span, same⟩ := Option.isSome_iff_exists.mp found
    obtain ⟨starts, ends⟩ := throughFirst_spans same
    exact ends.isInfix.trans starts.isInfix
  · intro occurs
    induction text with
    | nil =>
        obtain rfl := List.eq_nil_of_infix_nil occurs
        rfl
    | cons c rest ih =>
        simp only [throughFirst]
        split
        · rfl
        · rename_i absent
          rcases List.infix_cons_iff.mp occurs with here | later
          · exact absurd (List.isPrefixOf_iff_prefix.mpr here) absent
          · simpa using ih later

/-- Text with no needle head in it is passed over whole: the search stops at the needle
after it.
-/
theorem throughFirst_of_fresh {head : Char} {needle : List Char} (mid rest : List Char)
    (fresh : head ∉ mid)
    : throughFirst (head :: needle) (mid ++ (head :: needle) ++ rest) = some (mid ++ head :: needle) := by
  induction mid with
  | nil => simp [throughFirst]
  | cons c mid ih =>
      rw [List.mem_cons, not_or] at fresh
      have later := ih fresh.2
      simp only [List.append_assoc, List.cons_append] at later ⊢
      simp [throughFirst, List.isPrefixOf, later, fresh.1]

theorem sectionAt_isSome_iff {text : List Char}
    : (sectionAt text).isSome ↔ markerStart <+: text ∧ markerEnd <:+: text.drop markerStart.length := by
  unfold sectionAt
  split
  · rename_i starts
    simp [List.isPrefixOf_iff_prefix.mp starts, throughFirst_isSome_iff]
  · rename_i absent
    simp only [Option.isSome_none, Bool.false_eq_true, false_iff, not_and]
    exact fun starts => absurd (List.isPrefixOf_iff_prefix.mpr starts) absent

/-- A match spans a prefix of the text that starts with the start marker. -/
theorem sectionAt_spans {text span : List Char} (found : sectionAt text = some span)
    : span <+: text ∧ markerStart <+: span := by
  unfold sectionAt at found
  split at found
  · rename_i starts
    obtain ⟨rest, rfl⟩ := List.isPrefixOf_iff_prefix.mp starts
    obtain ⟨body, inner, rfl⟩ := Option.map_eq_some'.mp found
    rw [List.drop_left] at inner
    obtain ⟨tail, same⟩ := (throughFirst_spans inner).1
    exact ⟨⟨tail, by rw [List.append_assoc, same]⟩, List.prefix_append _ _⟩
  · cases found

/-- A block is a whole section: its body holds no `<`, so no end marker starts inside it. -/
theorem sectionAt_block {body : List Char} (rest : List Char) (fresh : '<' ∉ body)
    : sectionAt (markerStart ++ body ++ markerEnd ++ rest) = some (markerStart ++ body ++ markerEnd) := by
  have starts : markerStart.isPrefixOf (markerStart ++ body ++ markerEnd ++ rest) = true :=
    List.isPrefixOf_iff_prefix.mpr ⟨body ++ markerEnd ++ rest, by simp⟩
  rw [sectionAt, if_pos starts, List.append_assoc, List.append_assoc, List.drop_left,
    ← List.append_assoc]
  exact congrArg (Option.map _) (throughFirst_of_fresh body rest fresh)

-----------------------------------------------------------------------------------------
-- The substitution
-----------------------------------------------------------------------------------------

theorem prefix_take_eq {α : Type} {front text : List α} {n : Nat} (starts : front <+: text)
    (short : n ≤ front.length) : text.take n = front.take n := by
  obtain ⟨tail, rfl⟩ := starts
  exact List.take_append_of_le_length short

section Replace

variable {block : List Char}

theorem subFrom_section_hit {before text span : List Char} (found : sectionAt text = some span)
    : subFrom sectionPattern (fun _ => block) 0 before text
      = block ++ subFrom sectionPattern (fun _ => block) 0 (span.reverse ++ before)
          (text.drop span.length) := by
  obtain ⟨spans, marked⟩ := sectionAt_spans found
  have nonempty : span ≠ [] := by
    rintro rfl
    exact absurd (List.prefix_nil.mp marked) (by decide)
  exact @subFrom_hit sectionPattern (fun _ => block) before text ⟨span, []⟩
    (by simp [sectionPattern, found]) spans nonempty

theorem subFrom_section_miss {before : List Char} {c : Char} {rest : List Char}
    (miss : sectionAt (c :: rest) = none)
    : subFrom sectionPattern (fun _ => block) 0 before (c :: rest)
      = c :: subFrom sectionPattern (fun _ => block) 0 (c :: before) rest := by
  apply subFrom_miss
  simp [sectionPattern, miss]

/-- With no end marker from `skip` on, at most a start marker's length in, no section starts
anywhere and the text is kept.
-/
theorem subFrom_section_of_not_infix {before text : List Char} (skip : Nat)
    (close : skip ≤ markerStart.length) (absent : ¬ markerEnd <:+: text.drop skip)
    : subFrom sectionPattern (fun _ => block) 0 before text = text := by
  induction text generalizing before skip with
  | nil => exact subFrom_nil 0 before
  | cons c rest ih =>
      have miss : sectionAt (c :: rest) = none := by
        rw [← Option.not_isSome_iff_eq_none, sectionAt_isSome_iff]
        exact fun ⟨_, ends⟩ => absent (ends.trans (List.drop_suffix_drop_left _ close).isInfix)
      rw [subFrom_section_miss miss]
      congr 1
      cases skip with
      | zero => exact ih 0 (Nat.zero_le _) fun ends => absent (List.infix_cons ends)
      | succ k => exact ih k (by omega) absent

/-- The rewrite keeps the first characters of a text, as far as a start marker reaches: a
block and the section it replaces both begin with the start marker.
-/
theorem take_subFrom_section (starts : markerStart <+: block) {before text : List Char} {n : Nat}
    (short : n ≤ markerStart.length)
    : (subFrom sectionPattern (fun _ => block) 0 before text).take n = text.take n := by
  induction text generalizing before n with
  | nil => rw [subFrom_nil]
  | cons c rest ih =>
      cases found : sectionAt (c :: rest) with
      | some span =>
          obtain ⟨spans, marked⟩ := sectionAt_spans found
          rw [subFrom_section_hit found, List.take_append_of_le_length (short.trans starts.length_le),
            prefix_take_eq starts short]
          exact (prefix_take_eq (marked.trans spans) short).symm
      | none =>
          rw [subFrom_section_miss found]
          cases n with
          | zero => rfl
          | succ k => rw [List.take_succ_cons, List.take_succ_cons, ih (by omega)]

/-- A position where no section starts has none once the text after it is rewritten: the
rewrite keeps what a start marker there would read, and a start marker there with no end
marker after it leaves nothing to rewrite.
-/
theorem sectionAt_cons_subFrom (starts : markerStart <+: block) {c : Char} {before rest : List Char}
    (miss : sectionAt (c :: rest) = none)
    : sectionAt (c :: subFrom sectionPattern (fun _ => block) 0 before rest) = none := by
  obtain ⟨k, long⟩ : ∃ k, markerStart.length = k + 1 := ⟨_, rfl⟩
  rw [← Option.not_isSome_iff_eq_none, sectionAt_isSome_iff] at miss ⊢
  by_cases marked : markerStart <+: c :: rest
  · have kept : subFrom sectionPattern (fun _ => block) 0 before rest = rest :=
      subFrom_section_of_not_infix k (by omega) fun ends => miss ⟨marked, by rw [long]; exact ends⟩
    rwa [kept]
  · have same : (c :: subFrom sectionPattern (fun _ => block) 0 before rest).take markerStart.length
        = (c :: rest).take markerStart.length := by
      rw [long, List.take_succ_cons, List.take_succ_cons, take_subFrom_section starts (by omega)]
    rintro ⟨marked', -⟩
    rw [List.prefix_iff_eq_take, same] at marked'
    exact marked (List.prefix_iff_eq_take.mpr marked')

/-- Rewriting a rewritten text changes nothing: each block is a section, replaced by itself,
and a position where no section started still has none.
-/
theorem subFrom_section_idempotent {body : List Char} (fresh : '<' ∉ body)
    (before before' text : List Char)
    : subFrom sectionPattern (fun _ => markerStart ++ body ++ markerEnd) 0 before'
        (subFrom sectionPattern (fun _ => markerStart ++ body ++ markerEnd) 0 before text)
      = subFrom sectionPattern (fun _ => markerStart ++ body ++ markerEnd) 0 before text := by
  obtain ⟨n, size⟩ : ∃ n, text.length = n := ⟨_, rfl⟩
  induction n using Nat.strong_induction_on generalizing before before' text with
  | _ n ih =>
      cases text with
      | nil => simp only [subFrom_nil]
      | cons c rest =>
          cases found : sectionAt (c :: rest) with
          | some span =>
              obtain ⟨spans, marked⟩ := sectionAt_spans found
              have shorter : ((c :: rest).drop span.length).length < n := by
                have long : 0 < markerStart.length := by decide
                have := marked.length_le
                have := spans.length_le
                rw [List.length_drop, size] at *
                omega
              rw [subFrom_section_hit found, subFrom_section_hit (sectionAt_block _ fresh),
                List.drop_left, ih _ shorter _ _ _ rfl]
          | none =>
              have still := @sectionAt_cons_subFrom (markerStart ++ body ++ markerEnd)
                ⟨body ++ markerEnd, (List.append_assoc _ _ _).symm⟩ c (c :: before) rest found
              rw [subFrom_section_miss found, subFrom_section_miss still,
                ih rest.length (by simp [← size]) _ _ _ rfl]

/-- The text before the first start marker comes out as it went in. -/
theorem prefix_subFrom_section (front : List Char) {before text : List Char}
    (starts : front <+: text) (clear : ∀ k < front.length, ¬ markerStart <+: text.drop k)
    : front <+: subFrom sectionPattern (fun _ => block) 0 before text := by
  induction front generalizing before text with
  | nil => exact List.nil_prefix
  | cons c front ih =>
      obtain ⟨tail, rfl⟩ := starts
      have miss : sectionAt (c :: (front ++ tail)) = none := by
        rw [← Option.not_isSome_iff_eq_none, sectionAt_isSome_iff]
        exact fun ⟨marked, _⟩ => clear 0 (by simp) marked
      rw [List.cons_append, subFrom_section_miss miss]
      exact List.cons_prefix_cons.mpr
        ⟨rfl, ih (List.prefix_append _ _) fun k short => clear (k + 1) (by simpa using short)⟩

/-- A start marker with an end marker after it puts a block in the output. -/
theorem infix_subFrom_section (a : List Char) {b d before : List Char}
    : block <:+: subFrom sectionPattern (fun _ => block) 0 before
        (a ++ markerStart ++ b ++ markerEnd ++ d) := by
  induction a generalizing before with
  | nil =>
      have found : (sectionAt (markerStart ++ b ++ markerEnd ++ d)).isSome := by
        refine sectionAt_isSome_iff.mpr ⟨⟨b ++ markerEnd ++ d, by simp⟩, ?_⟩
        rw [List.append_assoc, List.append_assoc, List.drop_left]
        exact ⟨b, d, by simp⟩
      obtain ⟨span, found⟩ := Option.isSome_iff_exists.mp found
      rw [List.nil_append, subFrom_section_hit found]
      exact (List.prefix_append _ _).isInfix
  | cons c a ih =>
      simp only [List.cons_append]
      cases found : sectionAt (c :: (a ++ markerStart ++ b ++ markerEnd ++ d)) with
      | some span =>
          rw [subFrom_section_hit found]
          exact (List.prefix_append _ _).isInfix
      | none =>
          rw [subFrom_section_miss found]
          exact List.infix_cons ih

example : subFrom sectionPattern (fun _ => "B".toList) 0 []
      ("x".toList ++ markerStart ++ "1".toList ++ markerEnd ++ markerStart ++ markerEnd ++ markerStart)
    = "xBB".toList ++ markerStart := by
  decide

end Replace

-----------------------------------------------------------------------------------------
-- `update_readme`
-----------------------------------------------------------------------------------------

section Update

variable {content : List Char} {metrics : Metrics}

theorem updateReadme_of_unmarked
    (unmarked : (contains markerStart content && contains markerEnd content) = false)
    : updateReadme content metrics = .ok content := by
  simp only [updateReadme, unmarked, Bool.false_eq_true, if_false]
  rfl

theorem updateReadme_of_marked {block : List Char}
    (marked : (contains markerStart content && contains markerEnd content) = true)
    (built : newMetrics metrics = .ok block)
    : updateReadme content metrics = .ok (subFrom sectionPattern (fun _ => block) 0 [] content) := by
  simp only [updateReadme, marked, if_true, built]
  rfl

theorem updateReadme_of_failed {message : String}
    (marked : (contains markerStart content && contains markerEnd content) = true)
    (failed : newMetrics metrics = .error message) : updateReadme content metrics = .error message := by
  simp only [updateReadme, marked, if_true, failed]
  rfl

/-- Where the block's rewrite keeps a text, so does the update. -/
theorem updateReadme_of_fixed {block : List Char} (built : newMetrics metrics = .ok block)
    (fixed : subFrom sectionPattern (fun _ => block) 0 [] content = content)
    : updateReadme content metrics = .ok content := by
  cases marked : (contains markerStart content && contains markerEnd content)
  · exact updateReadme_of_unmarked marked
  · rw [updateReadme_of_marked marked built, fixed]

end Update

end ThreadSystem.Performance
