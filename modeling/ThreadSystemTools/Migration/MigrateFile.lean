import ThreadSystemTools.Migration.Include
import ThreadSystemTools.Migration.LineChanges

/-! `migrate_file` once the file is read: the loop over `enumerate(lines)` that rewrites each
line and records the changed ones, then the include trigger. The loop is a fold of one step;
its spec says the rewritten lines are the map of `migrate_line` and the change list a
`filterMap` over the enumerated lines, and every later result is stated from that spec.
-/

namespace ThreadSystem.Migration

open ThreadSystem.Text

-----------------------------------------------------------------------------------------
-- The skip test and the result record
-----------------------------------------------------------------------------------------

/-- `SKIP_PATTERNS`, as the regex sources the code writes. -/
def skipPatterns : List String := ["logger_interface\\.h", "thread_logger\\.h"]

/-- The text a regex of plain and `\`-escaped characters matches, as each skip pattern is. -/
def regexLiteral : List Char → List Char
  | '\\' :: c :: rest => c :: regexLiteral rest
  | c :: rest => c :: regexLiteral rest
  | [] => []

/-- `os.path.basename(path)`: what follows the last `/`. -/
def basename (path : String) : List Char :=
  (path.toList.reverse.takeWhile (· != '/')).reverse

/-- `should_skip_file(filepath)`: the first skip pattern found in the base name, if any. -/
def shouldSkipFile (filepath : String) : Bool × String :=
  match skipPatterns.find? (fun pattern => contains (regexLiteral pattern.toList) (basename filepath)) with
  | some pattern => (true, "Matches skip pattern: " ++ pattern)
  | none => (false, "")

example : shouldSkipFile "include/impl/thread_logger.h"
    = (true, "Matches skip pattern: thread_logger\\.h") := by decide

/-- `MigrationResult(path)`: the fields and their initial values. -/
structure MigrationResult where
  path : String
  originalContent : List Char := []
  newContent : List Char := []
  changes : List (Nat × List Char × List Char) := []
  skipped : Bool := false
  skipReason : String := ""
  error : Option String := none
  deriving DecidableEq, Repr

-----------------------------------------------------------------------------------------
-- The line loop
-----------------------------------------------------------------------------------------

variable (U : UnicodeTable)

/-- The record `(i + 1, line.strip(), new_line.strip())` that the loop appends for line `i`,
when `migrate_line` changed it.
-/
def changeOf (entry : Nat × List Char) : Option (Nat × List Char × List Char) :=
  let (newLine, changed) := migrateLine (createMigrationPattern U) entry.2
  if changed then some (entry.1 + 1, strip U entry.2, strip U newLine) else none

/-- One pass of `for i, line in enumerate(lines)`: append the rewritten line to `new_lines`,
and its change record to `result.changes` when the line changed.
-/
def lineStep (state : List (List Char) × List (Nat × List Char × List Char))
    (entry : Nat × List Char) : List (List Char) × List (Nat × List Char × List Char) :=
  let (newLine, changed) := migrateLine (createMigrationPattern U) entry.2
  (state.1 ++ [newLine],
    if changed then state.2 ++ [(entry.1 + 1, strip U entry.2, strip U newLine)] else state.2)

/-- `migrate_file` from line 177 on, for a file that was not skipped and whose text `content`
was read: the loop, the join, and the include trigger.
-/
def migrateContent (filepath : String) (content : List Char) : MigrationResult :=
  let (newLines, changes) := (splitLines content).enum.foldl (lineStep U) ([], [])
  let newContent := joinLines newLines
  { path := filepath, originalContent := content, changes := changes,
    newContent := if !changes.isEmpty && needsIncludeUpdate U newContent
      then addLogLevelInclude U newContent else newContent }

/-- `new_lines`: every line of the content through `migrate_line`. -/
def newLines (content : List Char) : List (List Char) :=
  (splitLines content).map fun line => (migrateLine (createMigrationPattern U) line).1

variable {U}

theorem changeOf_eq_some {entry : Nat × List Char} {change : Nat × List Char × List Char}
    : changeOf U entry = some change
      ↔ rewriteFrom U [] entry.2 ≠ entry.2
        ∧ change = (entry.1 + 1, strip U entry.2, strip U (rewriteFrom U [] entry.2)) := by
  simp only [changeOf, migrateLine_fst, migrateLine_snd]
  by_cases changed : rewriteFrom U [] entry.2 = entry.2 <;> simp [changed, eq_comm]

theorem changeOf_eq_none {entry : Nat × List Char}
    : changeOf U entry = none ↔ rewriteFrom U [] entry.2 = entry.2 := by
  simp only [changeOf, migrateLine_fst, migrateLine_snd]
  by_cases changed : rewriteFrom U [] entry.2 = entry.2 <;> simp [changed]

theorem lineStep_eq (state : List (List Char) × List (Nat × List Char × List Char))
    (entry : Nat × List Char)
    : lineStep U state entry
      = (state.1 ++ [rewriteFrom U [] entry.2], state.2 ++ (changeOf U entry).toList) := by
  simp only [lineStep, changeOf, migrateLine_fst, migrateLine_snd]
  split <;> simp

/-- The spec of the loop: the rewritten lines are appended in order, and the change records
of the changed lines. -/
theorem foldl_lineStep (entries : List (Nat × List Char))
    (state : List (List Char) × List (Nat × List Char × List Char))
    : entries.foldl (lineStep U) state
      = (state.1 ++ entries.map (fun entry => rewriteFrom U [] entry.2),
          state.2 ++ entries.filterMap (changeOf U)) := by
  induction entries generalizing state with
  | nil => simp
  | cons entry rest ih =>
      rw [List.foldl_cons, ih, lineStep_eq]
      cases hit : changeOf U entry <;> simp [hit]

@[simp] theorem migrateContent_changes (filepath : String) (content : List Char)
    : (migrateContent U filepath content).changes = (splitLines content).enum.filterMap (changeOf U) := by
  simp [migrateContent, foldl_lineStep]

@[simp] theorem migrateContent_originalContent (filepath : String) (content : List Char)
    : (migrateContent U filepath content).originalContent = content := rfl

theorem migrateContent_newContent (filepath : String) (content : List Char)
    : (migrateContent U filepath content).newContent
      = if (migrateContent U filepath content).changes ≠ []
          ∧ needsIncludeUpdate U (joinLines (newLines U content)) = true
        then addLogLevelInclude U (joinLines (newLines U content))
        else joinLines (newLines U content) := by
  have lines : (splitLines content).enum.map (fun entry => rewriteFrom U [] entry.2)
      = newLines U content := by
    conv_rhs => rw [newLines, ← List.enum_map_snd (splitLines content), List.map_map]
    rfl
  simp only [migrateContent, foldl_lineStep, List.nil_append, lines, migrateContent_changes]
  by_cases empty : (splitLines content).enum.filterMap (changeOf U) = [] <;> simp [empty]

-----------------------------------------------------------------------------------------
-- The rewritten lines
-----------------------------------------------------------------------------------------

theorem mem_newLines {content line : List Char}
    : line ∈ newLines U content ↔ ∃ old ∈ splitLines content, rewriteFrom U [] old = line := by
  simp [newLines]

/-- The rewritten lines come back from their join: no rewrite adds a newline. -/
theorem splitLines_joinLines_newLines (content : List Char)
    : splitLines (joinLines (newLines U content)) = newLines U content := by
  apply splitLines_joinLines
  · intro line member
    obtain ⟨old, oldMember, rfl⟩ := mem_newLines.mp member
    exact not_mem_rewriteFrom _ _ (newline_not_mem_of_mem_splitLines oldMember) (by decide)
  · simpa [newLines] using splitLines_ne_nil content

theorem newLines_eq_iff (content : List Char)
    : newLines U content = splitLines content
      ↔ ∀ line ∈ splitLines content, rewriteFrom U [] line = line := by
  simp only [newLines, migrateLine_fst]
  conv => lhs; rhs; rw [← List.map_id (splitLines content)]
  exact List.map_eq_map_iff

theorem changes_eq_nil_iff (filepath : String) (content : List Char)
    : (migrateContent U filepath content).changes = []
      ↔ ∀ line ∈ splitLines content, rewriteFrom U [] line = line := by
  rw [migrateContent_changes, List.filterMap_eq_nil_iff]
  constructor
  · intro none line member
    obtain ⟨i, found⟩ := List.mem_iff_getElem?.mp member
    exact changeOf_eq_none.mp (none (i, line) (List.mem_enum_iff_getElem?.mpr found))
  · intro fixed entry member
    exact changeOf_eq_none.mpr (fixed _ (List.mem_iff_getElem?.mpr
      ⟨_, List.mem_enum_iff_getElem?.mp member⟩))

/-- A content whose every line `migrate_line` keeps gets no change and is returned as read. -/
theorem migrateContent_of_fixed (filepath : String) {content : List Char}
    (fixed : ∀ line ∈ splitLines content, rewriteFrom U [] line = line)
    : (migrateContent U filepath content).changes = []
      ∧ (migrateContent U filepath content).newContent = content := by
  have none := (changes_eq_nil_iff filepath content).mpr fixed
  refine ⟨none, ?_⟩
  rw [migrateContent_newContent, none, (newLines_eq_iff content).mpr fixed, joinLines_splitLines]
  simp

/-- The lines of the new content: the rewritten lines, with the declaration inserted once at
`insertIndexOf` when the include trigger fires and the line is not there yet.
-/
theorem splitLines_newContent (filepath : String) (content : List Char)
    : splitLines (migrateContent U filepath content).newContent = newLines U content
      ∨ (search (declarationAt U) (joinLines (newLines U content)) = false
        ∧ (migrateContent U filepath content).changes ≠ []
        ∧ splitLines (migrateContent U filepath content).newContent
          = (newLines U content).insertIdx (insertIndexOf U (newLines U content)).toNat
              includeLine) := by
  rw [migrateContent_newContent]
  split
  · rename_i trigger
    obtain ⟨changed, needs⟩ := trigger
    rw [splitLines_addLogLevelInclude, splitLines_joinLines_newLines]
    split
    · exact .inl rfl
    · rename_i absent
      have declared : search (declarationAt U) (joinLines (newLines U content)) = false := by
        simp only [needsIncludeUpdate] at needs
        split at needs
        · simpa using needs
        · cases needs
      exact .inr ⟨declared, changed, rfl⟩
  · exact .inl (splitLines_joinLines_newLines content)

-----------------------------------------------------------------------------------------
-- The change list
-----------------------------------------------------------------------------------------

theorem pairwise_enumFrom_fst (start : Nat) (lines : List (List Char))
    : (lines.enumFrom start).Pairwise (fun a b => a.1 < b.1) := by
  induction lines generalizing start with
  | nil => exact List.Pairwise.nil
  | cons line rest ih =>
      rw [List.enumFrom_cons, List.pairwise_cons]
      refine ⟨fun ⟨i, later⟩ member => ?_, ih (start + 1)⟩
      have := (List.mem_enumFrom member).1
      dsimp only
      omega

/-- The entries of the change list: one per line `migrate_line` changed, in the loop's words. -/
theorem mem_changes_iff {filepath : String} {content : List Char}
    {change : Nat × List Char × List Char}
    : change ∈ (migrateContent U filepath content).changes
      ↔ ∃ i line, (splitLines content)[i]? = some line ∧ rewriteFrom U [] line ≠ line
        ∧ change = (i + 1, strip U line, strip U (rewriteFrom U [] line)) := by
  rw [migrateContent_changes, List.mem_filterMap]
  constructor
  · rintro ⟨⟨i, line⟩, member, found⟩
    exact ⟨i, line, List.mem_enum_iff_getElem?.mp member, changeOf_eq_some.mp found⟩
  · rintro ⟨i, line, found, changed, rfl⟩
    exact ⟨(i, line), List.mem_enum_iff_getElem?.mpr found, changeOf_eq_some.mpr ⟨changed, rfl⟩⟩

theorem changes_indices_increasing (filepath : String) (content : List Char)
    : ((migrateContent U filepath content).changes.map Prod.fst).Pairwise (· < ·) := by
  rw [migrateContent_changes, List.pairwise_map]
  refine List.Pairwise.filterMap (changeOf U) ?_ (pairwise_enumFrom_fst 0 _)
  intro a a' before b found b' found'
  rw [Option.mem_def, changeOf_eq_some] at found found'
  rw [found.2, found'.2]
  exact Nat.succ_lt_succ before

/-- A change makes the new content differ from the old: either a rewritten line differs, or
the inserted declaration adds a line.
-/
theorem newContent_ne_of_changes_ne_nil {filepath : String} {content : List Char}
    (changed : (migrateContent U filepath content).changes ≠ [])
    : (migrateContent U filepath content).newContent ≠ content := by
  intro same
  have moved : newLines U content ≠ splitLines content := fun equal =>
    changed ((changes_eq_nil_iff filepath content).mpr ((newLines_eq_iff content).mp equal))
  rcases splitLines_newContent filepath content with lines | ⟨-, -, lines⟩
  · rw [same] at lines
    exact moved lines.symm
  · rw [same] at lines
    have size := congrArg List.length lines
    rw [List.length_insertIdx _ _ (insertIndexOf_le _)] at size
    simp [newLines] at size

theorem changes_eq_nil_iff_newContent (filepath : String) (content : List Char)
    : (migrateContent U filepath content).changes = []
      ↔ (migrateContent U filepath content).newContent
        = (migrateContent U filepath content).originalContent := by
  rw [migrateContent_originalContent]
  refine ⟨fun none => ?_, fun same => ?_⟩
  · exact (migrateContent_of_fixed filepath ((changes_eq_nil_iff filepath content).mp none)).2
  · by_contra changed
    exact newContent_ne_of_changes_ne_nil changed same

/-- The change list of `migrate_file` for a readable, non-skipped file: its line numbers
increase, they are exactly the lines `migrate_line` changes, each entry holds the stripped
old and new line, which differ, and it is empty exactly when the content is returned as read.
-/
theorem migrateContent_change_list (U : UnicodeTable) (filepath : String) (content : List Char)
    : let result := migrateContent U filepath content
      let lines := splitLines content
      (result.changes.map Prod.fst).Pairwise (· < ·)
      ∧ (∀ n, n ∈ result.changes.map Prod.fst
          ↔ ∃ i line, lines[i]? = some line ∧ n = i + 1
            ∧ (migrateLine (createMigrationPattern U) line).1 ≠ line)
      ∧ (∀ change ∈ result.changes, ∃ i line, lines[i]? = some line
          ∧ change = (i + 1, strip U line, strip U (migrateLine (createMigrationPattern U) line).1)
          ∧ strip U line ≠ strip U (migrateLine (createMigrationPattern U) line).1)
      ∧ (result.changes = [] ↔ result.newContent = result.originalContent) := by
  refine ⟨changes_indices_increasing filepath content, fun n => ?_, fun change member => ?_,
    changes_eq_nil_iff_newContent filepath content⟩
  · simp only [List.mem_map, mem_changes_iff, migrateLine_fst]
    constructor
    · rintro ⟨_, ⟨i, line, found, changed, rfl⟩, rfl⟩
      exact ⟨i, line, found, rfl, changed⟩
    · rintro ⟨i, line, found, rfl, changed⟩
      exact ⟨_, ⟨i, line, found, changed, rfl⟩, rfl⟩
  · obtain ⟨i, line, found, changed, rfl⟩ := mem_changes_iff.mp member
    exact ⟨i, line, found, rfl, strip_ne_of_rewriteFrom_ne changed⟩

-----------------------------------------------------------------------------------------
-- The include trigger and the fixed point
-----------------------------------------------------------------------------------------

/-- A changed content uses `log_level_v2::` once rewritten, so the trigger only asks whether
it declares `log_level.h`.
-/
theorem needsIncludeUpdate_of_changes {filepath : String} {content : List Char}
    (changed : (migrateContent U filepath content).changes ≠ [])
    : needsIncludeUpdate U (joinLines (newLines U content))
      = !search (declarationAt U) (joinLines (newLines U content)) := by
  obtain ⟨line, member, moved⟩ : ∃ line ∈ splitLines content, rewriteFrom U [] line ≠ line := by
    by_contra fixed
    push_neg at fixed
    exact changed ((changes_eq_nil_iff filepath content).mpr fixed)
  have holds : contains newQualifier (joinLines (newLines U content)) = true :=
    (contains_iff _ _).mpr ((newQualifier_infix_of_rewriteFrom_ne moved).trans
      (infix_joinLines (mem_newLines.mpr ⟨line, member, rfl⟩)))
  simp [needsIncludeUpdate, holds]

theorem newContent_of_changes {filepath : String} {content : List Char}
    (changed : (migrateContent U filepath content).changes ≠ [])
    : (migrateContent U filepath content).newContent
      = if search (declarationAt U) (joinLines (newLines U content))
        then joinLines (newLines U content)
        else addLogLevelInclude U (joinLines (newLines U content)) := by
  rw [migrateContent_newContent, needsIncludeUpdate_of_changes changed]
  cases search (declarationAt U) (joinLines (newLines U content)) <;>
    simp only [ne_eq, changed, not_false_eq_true, true_and, Bool.not_true, Bool.not_false,
      Bool.false_eq_true, if_true, if_false]

/-- The include step of `migrate_file`: for a changed content whose rewritten text `joined`
declares no `log_level.h`, the declaration is inserted as one line among the others, kept in
order; otherwise the rewritten text is returned. Either way the result declares it.
-/
theorem migrateContent_declares_log_level (U : UnicodeTable) (filepath : String)
    (content : List Char) (changed : (migrateContent U filepath content).changes ≠ [])
    : let joined := joinLines (newLines U content)
      let newContent := (migrateContent U filepath content).newContent
      (search (declarationAt U) joined = false →
          (insertIndexOf U (splitLines joined)).toNat ≤ (splitLines joined).length
          ∧ splitLines newContent
            = (splitLines joined).insertIdx (insertIndexOf U (splitLines joined)).toNat includeLine)
      ∧ (search (declarationAt U) joined = true → newContent = joined)
      ∧ search (declarationAt U) newContent = true := by
  intro joined newContent
  have shape := newContent_of_changes changed
  have inserted : search (declarationAt U) joined = false → splitLines newContent
      = (splitLines joined).insertIdx (insertIndexOf U (splitLines joined)).toNat includeLine := by
    intro absent
    have missing : contains includeLine joined = false := by
      cases holds : contains includeLine joined
      · rfl
      · have declared := @search_declaration_of_contains U _ holds
        rw [absent] at declared
        cases declared
    simp only [newContent, shape, absent, Bool.false_eq_true, if_false,
      splitLines_addLogLevelInclude, missing]
  refine ⟨fun absent => ⟨insertIndexOf_le _, inserted absent⟩,
    fun present => by simp only [newContent, shape, present, if_true], ?_⟩
  cases present : search (declarationAt U) joined
  · have member : includeLine ∈ splitLines newContent := by
      rw [inserted present]
      exact (List.mem_insertIdx (insertIndexOf_le _)).mpr (.inl rfl)
    exact search_of_infix (joinLines_splitLines newContent ▸ infix_joinLines member)
      declarationAt_includeLine
  · simp only [newContent, shape, present, if_true]

theorem migrateContent_declares_log_level_one_line
    : (migrateContent UnicodeTable.ascii "a.cpp" "auto l = log_level::warning;".toList).changes ≠ []
      ∧ search (declarationAt UnicodeTable.ascii)
          (migrateContent UnicodeTable.ascii "a.cpp" "auto l = log_level::warning;".toList).newContent
        = true :=
  have changed : (migrateContent UnicodeTable.ascii "a.cpp"
      "auto l = log_level::warning;".toList).changes ≠ [] := by decide
  ⟨changed, (migrateContent_declares_log_level _ _ _ changed).2.2⟩

/-- The new content is a fixed point of the migration: each of its lines is a rewritten line,
which `migrate_line` keeps, or the declaration, which holds no `log_level::`.
-/
theorem migrateContent_newContent_fixed (filepath filepath' : String) (content : List Char)
    : (migrateContent U filepath' (migrateContent U filepath content).newContent).changes = []
      ∧ (migrateContent U filepath' (migrateContent U filepath content).newContent).newContent
        = (migrateContent U filepath content).newContent := by
  apply migrateContent_of_fixed
  have kept : ∀ line ∈ newLines U content, rewriteFrom U [] line = line := by
    intro line member
    obtain ⟨old, -, rfl⟩ := mem_newLines.mp member
    exact rewriteFrom_rewriteFrom [] [] old (.inl rfl)
  intro line member
  rcases splitLines_newContent filepath content with lines | ⟨-, -, lines⟩
  · exact kept line (lines ▸ member)
  · rw [lines] at member
    rcases (List.mem_insertIdx (insertIndexOf_le _)).mp member with rfl | member
    · exact rewriteFrom_eq_self_of_not_infix fun found =>
        absurd ((contains_iff _ _).mpr found) (by decide)
    · exact kept line member

/-- A character that neither the content, a replacement, a line break nor the declaration
holds is not in the new content.
-/
theorem not_mem_newContent {c : Char} (filepath : String) {content : List Char}
    (clean : c ∉ content) (apart : c ≠ '\n')
    (fresh : levelKeys.all (fun key => !(replaceMatch ⟨legacyQualifier ++ key, key⟩).contains c)
      = true)
    (notDeclared : c ∉ includeLine) : c ∉ (migrateContent U filepath content).newContent := by
  have rewritten : ∀ line ∈ newLines U content, c ∉ line := by
    intro line member
    obtain ⟨old, oldMember, rfl⟩ := mem_newLines.mp member
    refine not_mem_rewriteFrom _ _ (fun inside => clean ?_) fresh
    simpa using (infix_joinLines oldMember).subset inside
  rw [← joinLines_splitLines (migrateContent U filepath content).newContent]
  refine not_mem_joinLines apart fun line member => ?_
  rcases splitLines_newContent filepath content with lines | ⟨-, -, lines⟩
  · exact rewritten line (lines ▸ member)
  · rw [lines] at member
    rcases (List.mem_insertIdx (insertIndexOf_le _)).mp member with rfl | member
    · exact notDeclared
    · exact rewritten line member

end ThreadSystem.Migration
