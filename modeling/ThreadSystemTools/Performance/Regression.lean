import ThreadSystemTools.Performance.Json

/-! `check_performance_regression.py`: `check_regression` indexes both benchmark files by name
and sorts each benchmark of the current run that has a baseline into the regressions or the
improvements by the change of its CPU time; `main` exits with 1 when there are regressions.
The loop classifies each benchmark on its own, so its two lists are two filters of one list
of verdicts. From that: every entry has the change the lists are named for, no benchmark is
listed twice, and the exit status is 0 exactly when everything parsed and no benchmark is
slower than its baseline by more than the threshold.
-/

namespace ThreadSystem.Performance

-----------------------------------------------------------------------------------------
-- The dicts by name
-----------------------------------------------------------------------------------------

/-- A dict key made from a JSON name. `True == 1` and `False == 0`, with equal hashes, so a
boolean keys as its number.
-/
inductive Key where
  | none
  | number (value : Rat)
  | string (chars : List Char)
  deriving DecidableEq, Repr

/-- The key a name stands for; lists and dicts are unhashable. -/
def JsonValue.key : JsonValue → Except String Key
  | .null => .ok .none
  | .bool b => .ok (.number (if b then 1 else 0))
  | .number x => .ok (.number x)
  | .string chars => .ok (.string chars)
  | _ => .error "TypeError"

/-- `d[key] = value`: a key already in the dict keeps its place and takes the new value; a new
key goes last.
-/
def insertKey (dict : List (Key × JsonValue)) (key : Key) (value : JsonValue)
    : List (Key × JsonValue) :=
  if dict.any (·.1 == key) then dict.map fun entry => if entry.1 == key then (key, value) else entry
  else dict ++ [(key, value)]

/-- One pass of the comprehension: `b['name']` is hashed, and `b` stored under it. -/
def nameStep (dict : List (Key × JsonValue)) (bench : JsonValue)
    : Except String (List (Key × JsonValue)) := do
  pure (insertKey dict (← (← bench.subscript "name").key) bench)

/-- `{b['name']: b for b in data.get('benchmarks', [])}`. -/
def benchmarksByName (data : JsonValue) : Except String (List (Key × JsonValue)) := do
  let benches ← (← data.get "benchmarks" (.array [])).iterate
  benches.foldlM nameStep []

-----------------------------------------------------------------------------------------
-- `check_regression`
-----------------------------------------------------------------------------------------

/-- The dict `check_regression` appends for a benchmark: its name, the two CPU times and the
change in percent.
-/
structure Change where
  name : Key
  current : Rat
  baseline : Rat
  changePct : Rat
  deriving DecidableEq, Repr

/-- What one pass of the loop does with a benchmark. -/
inductive Verdict where
  | skipped
  | regression (change : Change)
  | improvement (change : Change)
  | steady
  deriving DecidableEq, Repr

def Verdict.regression? : Verdict → Option Change
  | .regression change => some change
  | _ => none

def Verdict.improvement? : Verdict → Option Change
  | .improvement change => some change
  | _ => none

/-- The change a verdict lists, in either list. -/
def Verdict.change? : Verdict → Option Change
  | .regression change => some change
  | .improvement change => some change
  | _ => none

/-- The body of the loop over `current_benchmarks.items()`: a benchmark without a baseline, or
whose baseline time `== 0`, is skipped; otherwise the change of the CPU time, in percent of
the baseline's, is compared with `threshold` and then with `-threshold`.
-/
def compareBenchmark (baselineBenchmarks : List (Key × JsonValue)) (threshold : Rat) (name : Key)
    (currBench : JsonValue) : Except String Verdict :=
  match List.lookup name baselineBenchmarks with
  | none => pure .skipped
  | some baseBench => do
      let currTime ← currBench.get "cpu_time" (.number 0)
      let baseTime ← baseBench.get "cpu_time" (.number 0)
      if baseTime.isZero then pure .skipped
      else
        let curr ← currTime.numeric
        let base ← baseTime.numeric
        let changePct := (curr - base) / base * 100
        if changePct > threshold then pure (.regression ⟨name, curr, base, changePct⟩)
        else if changePct < -threshold then pure (.improvement ⟨name, curr, base, changePct⟩)
        else pure .steady

/-- The two `append` calls. -/
def record (found : List Change × List Change) : Verdict → List Change × List Change
  | .regression change => (found.1 ++ [change], found.2)
  | .improvement change => (found.1, found.2 ++ [change])
  | _ => found

/-- `check_regression(current, baseline, threshold)`: the regressions and the improvements. -/
def checkRegression (current baseline : JsonValue) (threshold : Rat)
    : Except String (List Change × List Change) := do
  let currentBenchmarks ← benchmarksByName current
  let baselineBenchmarks ← benchmarksByName baseline
  currentBenchmarks.foldlM (fun found entry => do
    pure (record found (← compareBenchmark baselineBenchmarks threshold entry.1 entry.2))) ([], [])

/-- `load_json(file_path)`: a missing file reads as `{}`; any other exception escapes. -/
def loadJson (document : Except String JsonValue) : Except String JsonValue :=
  match document with
  | .error "FileNotFoundError" => .ok (.object [])
  | other => other

/-- The exit status of `main`: `sys.exit(1)` when there are regressions, `sys.exit(0)`
otherwise, and 1 when an exception escapes.
-/
def exitStatus (current baseline : Except String JsonValue) (threshold : Rat) : Nat :=
  match (do checkRegression (← loadJson current) (← loadJson baseline) threshold) with
  | .ok (regressions, _) => if regressions.isEmpty then 0 else 1
  | .error _ => 1

-----------------------------------------------------------------------------------------
-- The keys of a dict are distinct
-----------------------------------------------------------------------------------------

theorem keys_insertKey (dict : List (Key × JsonValue)) (key : Key) (value : JsonValue)
    : (insertKey dict key value).map Prod.fst
      = if dict.any (·.1 == key) then dict.map Prod.fst else dict.map Prod.fst ++ [key] := by
  unfold insertKey
  split
  · rw [List.map_map]
    apply List.map_congr_left
    intro entry _
    by_cases same : entry.1 = key <;> simp [same]
  · simp

/-- The step lemma of the dict comprehension: insertion keeps the keys distinct. -/
theorem nodup_insertKey {dict : List (Key × JsonValue)} (distinct : (dict.map Prod.fst).Nodup)
    (key : Key) (value : JsonValue) : ((insertKey dict key value).map Prod.fst).Nodup := by
  rw [keys_insertKey]
  split
  · exact distinct
  · rename_i absent
    have fresh : key ∉ dict.map Prod.fst := by simpa using absent
    simpa [List.nodup_append, distinct] using fresh

theorem nameStep_eq_ok {dict next : List (Key × JsonValue)} {bench : JsonValue}
    (stored : nameStep dict bench = .ok next) : ∃ key, next = insertKey dict key bench := by
  simp only [nameStep, bind, Except.bind] at stored
  split at stored
  · cases stored
  · split at stored
    · cases stored
    · cases stored
      exact ⟨_, rfl⟩

/-- The run lemma: the comprehension keeps the keys distinct. -/
theorem foldlM_nameStep_nodup (benches : List JsonValue) {start dict : List (Key × JsonValue)}
    (distinct : (start.map Prod.fst).Nodup) (built : benches.foldlM nameStep start = .ok dict)
    : (dict.map Prod.fst).Nodup := by
  induction benches generalizing start with
  | nil =>
      cases built
      exact distinct
  | cons bench rest ih =>
      simp only [List.foldlM_cons, bind, Except.bind] at built
      split at built
      · cases built
      · rename_i next stored
        obtain ⟨key, rfl⟩ := nameStep_eq_ok stored
        exact ih (nodup_insertKey distinct key bench) built

/-- A dict built by `benchmarksByName` has distinct keys. -/
theorem benchmarksByName_nodup {data : JsonValue} {dict : List (Key × JsonValue)}
    (built : benchmarksByName data = .ok dict) : (dict.map Prod.fst).Nodup := by
  simp only [benchmarksByName, bind, Except.bind] at built
  split at built
  · cases built
  · split at built
    · cases built
    · exact @foldlM_nameStep_nodup _ [] dict List.nodup_nil built

-----------------------------------------------------------------------------------------
-- The loop is a map and two filters
-----------------------------------------------------------------------------------------

theorem foldl_record (verdicts : List Verdict) (found : List Change × List Change)
    : verdicts.foldl record found
      = (found.1 ++ verdicts.filterMap Verdict.regression?,
          found.2 ++ verdicts.filterMap Verdict.improvement?) := by
  induction verdicts generalizing found with
  | nil => simp
  | cons verdict rest ih =>
      rw [List.foldl_cons, ih]
      cases verdict <;> simp [record, Verdict.regression?, Verdict.improvement?]

theorem foldlM_record {f : Key × JsonValue → Except String Verdict} (entries : List (Key × JsonValue))
    (found : List Change × List Change)
    : entries.foldlM (fun found entry => do pure (record found (← f entry))) found
      = (entries.mapM f).map fun verdicts => verdicts.foldl record found := by
  induction entries generalizing found with
  | nil => rfl
  | cons entry rest ih =>
      rw [List.foldlM_cons, List.mapM_cons]
      cases f entry with
      | error message => rfl
      | ok verdict =>
          show List.foldlM _ (record found verdict) rest = _
          rw [ih]
          cases rest.mapM f <;> rfl

/-- `check_regression` classifies each benchmark of the current run on its own: its two lists
are the regressions and the improvements among the verdicts, in the dict's order.
-/
theorem checkRegression_eq (current baseline : JsonValue) (threshold : Rat)
    : checkRegression current baseline threshold = (do
        let currentBenchmarks ← benchmarksByName current
        let baselineBenchmarks ← benchmarksByName baseline
        let verdicts ← currentBenchmarks.mapM fun entry =>
          compareBenchmark baselineBenchmarks threshold entry.1 entry.2
        pure (verdicts.filterMap Verdict.regression?, verdicts.filterMap Verdict.improvement?)) := by
  simp only [checkRegression, foldlM_record, foldl_record]
  cases benchmarksByName current <;> cases benchmarksByName baseline <;> rfl

-----------------------------------------------------------------------------------------
-- One benchmark
-----------------------------------------------------------------------------------------

/-- The change of a CPU time, in percent of the baseline's. -/
def percentChange (current baseline : Rat) : Rat := (current - baseline) / baseline * 100

/-- A benchmark the loop measures: it has a baseline, and both CPU times are numbers, the
baseline's not zero.
-/
def Measured (baselineBenchmarks : List (Key × JsonValue)) (name : Key) (currBench : JsonValue)
    (current baseline : Rat) : Prop :=
  ∃ baseBench, List.lookup name baselineBenchmarks = some baseBench
    ∧ (currBench.get "cpu_time" (.number 0)).bind JsonValue.numeric = .ok current
    ∧ (baseBench.get "cpu_time" (.number 0)).bind JsonValue.numeric = .ok baseline
    ∧ baseline ≠ 0

/-- A regression in the spec's words: a measured benchmark slower than its baseline by more
than `threshold` percent.
-/
def Slower (baselineBenchmarks : List (Key × JsonValue)) (threshold : Rat) (name : Key)
    (currBench : JsonValue) : Prop :=
  ∃ current baseline, Measured baselineBenchmarks name currBench current baseline
    ∧ threshold < percentChange current baseline

theorem isZero_eq_false_iff {value : JsonValue} {x : Rat} (number : value.numeric = .ok x)
    : value.isZero = false ↔ x ≠ 0 := by
  cases value with
  | number y =>
      cases number
      simp [JsonValue.isZero]
  | bool b =>
      cases number
      cases b <;> simp [JsonValue.isZero]
  | _ => cases number

/-- The verdict a measured benchmark gets: a regression above `threshold`, else an improvement
below `-threshold`, else steady.
-/
theorem compareBenchmark_of_measured {baselineBenchmarks : List (Key × JsonValue)}
    {threshold : Rat} {name : Key} {currBench : JsonValue} {current baseline : Rat}
    (measured : Measured baselineBenchmarks name currBench current baseline)
    : compareBenchmark baselineBenchmarks threshold name currBench
      = .ok (if percentChange current baseline > threshold then
            .regression ⟨name, current, baseline, percentChange current baseline⟩
          else if percentChange current baseline < -threshold then
            .improvement ⟨name, current, baseline, percentChange current baseline⟩
          else .steady) := by
  obtain ⟨baseBench, found, currTime, baseTime, nonzero⟩ := measured
  cases readCurr : currBench.get "cpu_time" (.number 0) with
  | error message => simp [readCurr, Except.bind] at currTime
  | ok currValue =>
      cases readBase : baseBench.get "cpu_time" (.number 0) with
      | error message => simp [readBase, Except.bind] at baseTime
      | ok baseValue =>
          simp only [readCurr, readBase, Except.bind] at currTime baseTime
          simp only [compareBenchmark, found, readCurr, readBase, bind, Except.bind,
            (isZero_eq_false_iff baseTime).mpr nonzero, currTime, baseTime, percentChange,
            Bool.false_eq_true, if_false]
          split_ifs <;> rfl

/-- A benchmark is skipped, or measured. -/
theorem compareBenchmark_cases {baselineBenchmarks : List (Key × JsonValue)} {threshold : Rat}
    {name : Key} {currBench : JsonValue} {verdict : Verdict}
    (compared : compareBenchmark baselineBenchmarks threshold name currBench = .ok verdict)
    : verdict = .skipped
      ∨ ∃ current baseline, Measured baselineBenchmarks name currBench current baseline := by
  unfold compareBenchmark at compared
  cases found : List.lookup name baselineBenchmarks with
  | none =>
      simp only [found, pure, Except.pure, Except.ok.injEq] at compared
      exact .inl compared.symm
  | some baseBench =>
      cases readCurr : currBench.get "cpu_time" (.number 0) with
      | error message => simp [found, readCurr, bind, Except.bind] at compared
      | ok currValue =>
          cases readBase : baseBench.get "cpu_time" (.number 0) with
          | error message => simp [found, readCurr, readBase, bind, Except.bind] at compared
          | ok baseValue =>
              cases zero : baseValue.isZero
              · cases currNumber : currValue.numeric with
                | error message =>
                    simp [found, readCurr, readBase, zero, currNumber, bind, Except.bind] at compared
                | ok current =>
                    cases baseNumber : baseValue.numeric with
                    | error message =>
                        simp [found, readCurr, readBase, zero, currNumber, baseNumber, bind,
                          Except.bind] at compared
                    | ok baseline =>
                        refine .inr ⟨current, baseline, baseBench, found, ?_, ?_,
                          (isZero_eq_false_iff baseNumber).mp zero⟩
                        · simp [readCurr, currNumber, Except.bind]
                        · simp [readBase, baseNumber, Except.bind]
              · simp only [found, readCurr, readBase, zero, bind, Except.bind, if_true, pure,
                  Except.pure, Except.ok.injEq] at compared
                exact .inl compared.symm

/-- The verdict is a regression exactly for a benchmark slower than its baseline by more than
`threshold` percent.
-/
theorem compareBenchmark_eq_regression_iff {baselineBenchmarks : List (Key × JsonValue)}
    {threshold : Rat} {name : Key} {currBench : JsonValue}
    : (∃ change, compareBenchmark baselineBenchmarks threshold name currBench = .ok (.regression change))
      ↔ Slower baselineBenchmarks threshold name currBench := by
  constructor
  · rintro ⟨change, compared⟩
    rcases compareBenchmark_cases compared with skipped | ⟨current, baseline, measured⟩
    · cases skipped
    · refine ⟨current, baseline, measured, ?_⟩
      rw [compareBenchmark_of_measured measured] at compared
      by_contra within
      rw [if_neg within] at compared
      split_ifs at compared <;> cases compared
  · rintro ⟨current, baseline, measured, slower⟩
    exact ⟨_, by rw [compareBenchmark_of_measured measured, if_pos slower]⟩

-----------------------------------------------------------------------------------------
-- The exit status
-----------------------------------------------------------------------------------------

/-- A `mapM` in `Except` succeeds with no item kept by `keep` exactly when every item succeeds
with a result `keep` drops.
-/
theorem exists_mapM_filterMap_eq_nil {α β γ : Type} {f : α → Except String β} {keep : β → Option γ}
    (items : List α)
    : (∃ results, items.mapM f = .ok results ∧ results.filterMap keep = [])
      ↔ ∀ item ∈ items, ∃ result, f item = .ok result ∧ keep result = none := by
  induction items with
  | nil => exact ⟨fun _ => by simp, fun _ => ⟨[], rfl, rfl⟩⟩
  | cons item rest ih =>
      rw [List.mapM_cons, List.forall_mem_cons, ← ih]
      cases f item with
      | error message => simp [bind, Except.bind]
      | ok result =>
          cases rest.mapM f with
          | error message => simp [bind, Except.bind]
          | ok others =>
              simp only [bind, Except.bind, pure, Except.pure, Except.ok.injEq, exists_eq_left',
                List.filterMap_eq_nil_iff, List.forall_mem_cons]

/-- A benchmark gets a verdict other than a regression exactly when its comparison succeeds and
it is not slower than its baseline by more than `threshold` percent.
-/
theorem compareBenchmark_not_regression {baselineBenchmarks : List (Key × JsonValue)}
    {threshold : Rat} {name : Key} {currBench : JsonValue}
    : (∃ verdict, compareBenchmark baselineBenchmarks threshold name currBench = .ok verdict
          ∧ verdict.regression? = none)
      ↔ (∃ verdict, compareBenchmark baselineBenchmarks threshold name currBench = .ok verdict)
        ∧ ¬ Slower baselineBenchmarks threshold name currBench := by
  rw [← compareBenchmark_eq_regression_iff]
  constructor
  · rintro ⟨verdict, compared, kept⟩
    refine ⟨⟨verdict, compared⟩, fun ⟨change, regression⟩ => ?_⟩
    rw [compared, Except.ok.injEq] at regression
    subst regression
    cases kept
  · rintro ⟨⟨verdict, compared⟩, unregressed⟩
    refine ⟨verdict, compared, ?_⟩
    cases verdict with
    | regression change => exact absurd ⟨change, compared⟩ unregressed
    | _ => rfl

theorem exitStatus_eq_zero_iff_verdicts (current baseline : Except String JsonValue)
    (threshold : Rat)
    : exitStatus current baseline threshold = 0
      ↔ ∃ currentBenchmarks baselineBenchmarks,
          (loadJson current).bind benchmarksByName = .ok currentBenchmarks
          ∧ (loadJson baseline).bind benchmarksByName = .ok baselineBenchmarks
          ∧ ∃ verdicts, currentBenchmarks.mapM (fun entry =>
              compareBenchmark baselineBenchmarks threshold entry.1 entry.2) = .ok verdicts
            ∧ verdicts.filterMap Verdict.regression? = [] := by
  simp only [exitStatus, checkRegression_eq]
  cases loadJson current with
  | error message => simp [bind, Except.bind]
  | ok currentData =>
      cases loadJson baseline with
      | error message => cases benchmarksByName currentData <;> simp [bind, Except.bind]
      | ok baselineData =>
          simp only [bind, Except.bind]
          cases benchmarksByName currentData with
          | error message => simp
          | ok currentBenchmarks =>
              cases benchmarksByName baselineData with
              | error message => simp
              | ok baselineBenchmarks =>
                  simp only [Except.ok.injEq, exists_and_left, exists_eq_left']
                  cases currentBenchmarks.mapM fun entry =>
                      compareBenchmark baselineBenchmarks threshold entry.1 entry.2 with
                  | error message => simp
                  | ok verdicts => simp [pure, Except.pure]

theorem forall₂_of_mapM_eq_ok {α β : Type} {f : α → Except String β} {items : List α}
    {results : List β} (done : items.mapM f = .ok results)
    : List.Forall₂ (fun item result => f item = .ok result) items results := by
  induction items generalizing results with
  | nil =>
      cases done
      exact .nil
  | cons item rest ih =>
      rw [List.mapM_cons] at done
      cases first : f item with
      | error message => simp [first, bind, Except.bind] at done
      | ok result =>
          cases others : rest.mapM f with
          | error message =>
              simp only [first, others, bind, Except.bind] at done
              cases done
          | ok more =>
              simp only [first, others, bind, Except.bind, pure, Except.pure, Except.ok.injEq] at done
              subst done
              exact .cons first (ih others)

theorem exists_of_forall₂_of_mem {α β : Type} {R : α → β → Prop} {items : List α}
    {results : List β} (paired : List.Forall₂ R items results) {result : β} (member : result ∈ results)
    : ∃ item ∈ items, R item result := by
  induction paired with
  | nil => cases member
  | cons here _ ih =>
      rcases List.mem_cons.mp member with rfl | later
      · exact ⟨_, List.mem_cons_self _ _, here⟩
      · obtain ⟨item, found, related⟩ := ih later
        exact ⟨item, List.mem_cons_of_mem _ found, related⟩

/-- A listed change is that of a measured benchmark, under the benchmark's name. -/
theorem compareBenchmark_change {baselineBenchmarks : List (Key × JsonValue)} {threshold : Rat}
    {name : Key} {currBench : JsonValue} {verdict : Verdict} {change : Change}
    (compared : compareBenchmark baselineBenchmarks threshold name currBench = .ok verdict)
    (listed : verdict.change? = some change)
    : change.name = name ∧ Measured baselineBenchmarks name currBench change.current change.baseline
      ∧ change.changePct = percentChange change.current change.baseline
      ∧ verdict = if change.changePct > threshold then .regression change
          else if change.changePct < -threshold then .improvement change else .steady := by
  rcases compareBenchmark_cases compared with rfl | ⟨current, baseline, measured⟩
  · cases listed
  · rw [compareBenchmark_of_measured measured, Except.ok.injEq] at compared
    subst compared
    split_ifs at listed ⊢ <;> cases listed <;> refine ⟨rfl, measured, rfl, ?_⟩ <;>
      first | rfl | contradiction

/-- The names a filter of the verdicts keeps follow the dict's keys, in order. -/
theorem sublist_names {baselineBenchmarks : List (Key × JsonValue)} {threshold : Rat}
    {keep : Verdict → Option Change} (kept : ∀ verdict change, keep verdict = some change →
      verdict.change? = some change) {entries : List (Key × JsonValue)} {verdicts : List Verdict}
    (paired : List.Forall₂ (fun entry verdict =>
      compareBenchmark baselineBenchmarks threshold entry.1 entry.2 = .ok verdict) entries verdicts)
    : List.Sublist ((verdicts.filterMap keep).map Change.name) (entries.map Prod.fst) := by
  induction paired with
  | nil => exact List.Sublist.slnil
  | @cons entry verdict _ _ compared _ ih =>
      cases listed : keep verdict with
      | none =>
          rw [List.filterMap_cons_none listed]
          exact ih.cons _
      | some change =>
          rw [List.filterMap_cons_some listed, List.map_cons, List.map_cons,
            (compareBenchmark_change compared (kept _ _ listed)).1]
          exact ih.cons₂ _

/-- A change a filter of the verdicts keeps comes from a benchmark of the dict, under its
name, whose comparison gave the verdict.
-/
theorem verdict_of_mem_filterMap {baselineBenchmarks : List (Key × JsonValue)} {threshold : Rat}
    {keep : Verdict → Option Change} (kept : ∀ verdict change, keep verdict = some change →
      verdict.change? = some change) {entries : List (Key × JsonValue)} {verdicts : List Verdict}
    (paired : List.Forall₂ (fun entry verdict =>
      compareBenchmark baselineBenchmarks threshold entry.1 entry.2 = .ok verdict) entries verdicts)
    {change : Change} (member : change ∈ verdicts.filterMap keep)
    : ∃ bench verdict, (change.name, bench) ∈ entries ∧ keep verdict = some change
        ∧ compareBenchmark baselineBenchmarks threshold change.name bench = .ok verdict := by
  obtain ⟨verdict, listed, found⟩ := List.mem_filterMap.mp member
  obtain ⟨⟨name, bench⟩, present, compared⟩ := exists_of_forall₂_of_mem paired listed
  obtain ⟨named, -⟩ := compareBenchmark_change compared (kept _ _ found)
  rw [named]
  exact ⟨bench, verdict, present, found, compared⟩

theorem change_of_regression : ∀ verdict change, Verdict.regression? verdict = some change →
    verdict.change? = some change := by
  intro verdict change listed
  cases verdict <;> first | exact listed | cases listed

theorem change_of_improvement : ∀ verdict change, Verdict.improvement? verdict = some change →
    verdict.change? = some change := by
  intro verdict change listed
  cases verdict <;> first | exact listed | cases listed

end ThreadSystem.Performance
