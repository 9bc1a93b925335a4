import ThreadSystemTools.Text.Substitution

/-! The rewrite rule of `tools/migrate_log_levels.py`: `LEVEL_MAPPINGS`, the regex built by
`create_migration_pattern` tried at one scan position, and `migrate_line` as its `sub`.
One spec lemma says when the regex matches; the scan lemmas below are stated from it.
-/

namespace ThreadSystem.Migration

open ThreadSystem.Text

-----------------------------------------------------------------------------------------
-- The table and the regex
-----------------------------------------------------------------------------------------

/-- `LEVEL_MAPPINGS`: each legacy level name and its `log_level_v2` name, in dict order. -/
def levelMappings : List (String × String) :=
  [("trace", "trace"), ("debug", "debug"), ("info", "info"), ("warning", "warn"),
    ("error", "error"), ("critical", "critical")]

/-- `LEVEL_MAPPINGS.keys()`, the alternatives of the pattern's group, in dict order. -/
def levelKeys : List (List Char) := levelMappings.map fun entry => entry.1.toList

/-- `log_level::`, the qualifier the pattern matches literally. -/
def legacyQualifier : List Char := "log_level::".toList

/-- `log_level_v2::`, the first lookbehind and the head of every replacement. -/
def newQualifier : List Char := "log_level_v2::".toList

/-- `_v2::`, the second lookbehind. -/
def v2Suffix : List Char := "_v2::".toList

/-- Python's `\b` between the characters on either side of a position, `none` at an end. -/
def wordBoundary (U : UnicodeTable) (left right : Option Char) : Bool :=
  left.any U.isWord != right.any U.isWord

/-- The lookbehinds `(?<!log_level_v2::)(?<!_v2::)` against the reversed text before. -/
def lookbehindsPass (before : List Char) : Bool :=
  !newQualifier.reverse.isPrefixOf before && !v2Suffix.reverse.isPrefixOf before

/-- The group `(trace|debug|info|warning|error|critical)\b` at the start of `rest`: the
first key, in dict order, that starts `rest` and is followed by `\b`.
-/
def levelAt (U : UnicodeTable) (rest : List Char) : Option (List Char) :=
  levelKeys.find? fun key =>
    key.isPrefixOf rest && wordBoundary U key.getLast? (rest.drop key.length).head?

/-- `create_migration_pattern()`, the regex
`(?<!log_level_v2::)(?<!_v2::)\blog_level::(trace|debug|info|warning|error|critical)\b`,
tried where the reversed `before` ends and `rest` starts.
-/
def createMigrationPattern (U : UnicodeTable) (before rest : List Char) : Option Match :=
  if lookbehindsPass before && wordBoundary U before.head? rest.head?
      && legacyQualifier.isPrefixOf rest then
    (levelAt U (rest.drop legacyQualifier.length)).map fun key => ⟨legacyQualifier ++ key, key⟩
  else none

/-- `LEVEL_MAPPINGS.get(old_level, old_level)`. -/
def mappedLevel (level : List Char) : List Char :=
  ((levelMappings.lookup (String.mk level)).map String.toList).getD level

/-- `replace_match` in `migrate_line`: `log_level_v2::` and the mapped level. -/
def replaceMatch (found : Match) : List Char := newQualifier ++ mappedLevel found.group

/-- `migrate_line(line, pattern)`: `pattern.sub(replace_match, line)` and whether it changed
the line.
-/
def migrateLine (pattern : List Char → List Char → Option Match) (line : List Char)
    : List Char × Bool :=
  let newLine := subFrom pattern replaceMatch 0 [] line
  (newLine, newLine != line)

/-- The substitution of `migrate_line` from a scan position with `before` behind it. -/
def rewriteFrom (U : UnicodeTable) (before text : List Char) : List Char :=
  subFrom (createMigrationPattern U) replaceMatch 0 before text

@[simp] theorem migrateLine_fst (U : UnicodeTable) (line : List Char)
    : (migrateLine (createMigrationPattern U) line).1 = rewriteFrom U [] line := rfl

@[simp] theorem migrateLine_snd (U : UnicodeTable) (line : List Char)
    : (migrateLine (createMigrationPattern U) line).2 = decide (rewriteFrom U [] line ≠ line) := by
  simp only [migrateLine, rewriteFrom, bne, Bool.not_eq_eq_eq_not, Bool.not_not]
  exact Bool.eq_iff_iff.mpr (by simp)

-----------------------------------------------------------------------------------------
-- When the regex matches
-----------------------------------------------------------------------------------------

/-- The position can open a match: neither `_v2::` nor a word character ends the text
before it.
-/
def Opens (U : UnicodeTable) (before : List Char) : Bool :=
  !v2Suffix.reverse.isPrefixOf before && !before.head?.any U.isWord

/-- The regex matches `log_level::key` at this position. -/
structure Accepts (U : UnicodeTable) (before rest key : List Char) : Prop where
  opens : Opens U before = true
  spans : legacyQualifier ++ key <+: rest
  closes : (rest.drop (legacyQualifier ++ key).length).head?.any U.isWord = false

theorem levelKeys_prefix_free
    : levelKeys.all (fun first => levelKeys.all fun second =>
        !first.isPrefixOf second || first == second) = true := by
  decide

theorem levelKeys_end_in_word : levelKeys.all (fun key => key.getLast?.any asciiWord) = true := by
  decide

/-- Two keys that both start a text are the same key, as no key is a prefix of another. -/
theorem levelKey_unique {first second text : List Char} (firstKey : first ∈ levelKeys)
    (secondKey : second ∈ levelKeys) (firstStarts : first <+: text) (secondStarts : second <+: text)
    : first = second := by
  have free := List.all_eq_true.mp (List.all_eq_true.mp levelKeys_prefix_free first firstKey)
  rcases List.prefix_or_prefix_of_prefix firstStarts secondStarts with pre | pre
  · simpa [List.isPrefixOf_iff_prefix.mpr pre] using free second secondKey
  · have back := List.all_eq_true.mp (List.all_eq_true.mp levelKeys_prefix_free second secondKey)
    exact (by simpa [List.isPrefixOf_iff_prefix.mpr pre] using back first firstKey : second = first).symm

theorem levelKey_last_isWord (U : UnicodeTable) {key : List Char} (member : key ∈ levelKeys)
    : key.getLast?.any U.isWord = true := by
  have ends := List.all_eq_true.mp levelKeys_end_in_word key member
  cases last : key.getLast? with
  | none => rw [last] at ends; exact absurd ends (by decide)
  | some c => rw [last] at ends; exact U.isWord_of_asciiWord ends

/-- The group matches exactly the key that starts the text with no word character after it. -/
theorem levelAt_eq_some {U : UnicodeTable} {rest key : List Char}
    : levelAt U rest = some key
      ↔ key ∈ levelKeys ∧ key <+: rest ∧ (rest.drop key.length).head?.any U.isWord = false := by
  have test : ∀ candidate ∈ levelKeys,
      (candidate.isPrefixOf rest
        && wordBoundary U candidate.getLast? (rest.drop candidate.length).head?) = true
      ↔ candidate <+: rest ∧ (rest.drop candidate.length).head?.any U.isWord = false := by
    intro candidate member
    simp [wordBoundary, levelKey_last_isWord U member, List.isPrefixOf_iff_prefix]
  rw [levelAt, find?_eq_some_iff_of_unique]
  · exact ⟨fun ⟨member, pass⟩ => ⟨member, (test key member).mp pass⟩,
      fun ⟨member, pass⟩ => ⟨member, (test key member).mpr pass⟩⟩
  · intro first firstKey second secondKey firstPass secondPass
    exact levelKey_unique firstKey secondKey ((test first firstKey).mp firstPass).1
      ((test second secondKey).mp secondPass).1

theorem lookbehindsPass_eq (before : List Char)
    : lookbehindsPass before = !v2Suffix.reverse.isPrefixOf before := by
  have nested : v2Suffix.reverse <+: newQualifier.reverse := by decide
  cases short : v2Suffix.reverse.isPrefixOf before
  · have long : newQualifier.reverse.isPrefixOf before = false := by
      rw [Bool.eq_false_iff]
      intro pre
      rw [List.isPrefixOf_iff_prefix] at pre
      simp [List.isPrefixOf_iff_prefix.mpr (nested.trans pre)] at short
    simp [lookbehindsPass, short, long]
  · simp [lookbehindsPass, short]

theorem prefix_append_iff {first second text : List Char}
    : first ++ second <+: text ↔ first <+: text ∧ second <+: text.drop first.length := by
  constructor
  · rintro ⟨tail, rfl⟩
    exact ⟨⟨second ++ tail, by simp⟩, by simp⟩
  · rintro ⟨⟨tail, rfl⟩, pre⟩
    simpa using pre

/-- The spec of `create_migration_pattern()`: it matches at a position exactly when it
accepts one key there, and then spans `log_level::key` with that key as its group.
-/
theorem createMigrationPattern_eq_some {U : UnicodeTable} {before rest : List Char}
    {found : Match}
    : createMigrationPattern U before rest = some found
      ↔ ∃ key ∈ levelKeys, found = ⟨legacyQualifier ++ key, key⟩ ∧ Accepts U before rest key := by
  unfold createMigrationPattern
  split
  · rename_i pass
    simp only [Bool.and_eq_true, List.isPrefixOf_iff_prefix] at pass
    obtain ⟨⟨lookbehind, boundary⟩, qualifier⟩ := pass
    have headL : rest.head? = some 'l' := by
      obtain ⟨tail, rfl⟩ := qualifier
      rfl
    have wordL : U.isWord 'l' = true := rfl
    have opens : Opens U before = true := by
      simp only [lookbehindsPass_eq, wordBoundary, headL, Option.any_some, wordL] at lookbehind boundary
      simp only [Opens, lookbehind, Bool.true_and]
      revert boundary
      cases before.head?.any U.isWord <;> simp
    simp only [Option.map_eq_some', levelAt_eq_some]
    constructor
    · rintro ⟨key, ⟨member, starts, closes⟩, rfl⟩
      refine ⟨key, member, rfl, opens, prefix_append_iff.mpr ⟨qualifier, starts⟩, ?_⟩
      simpa [List.drop_drop, Nat.add_comm] using closes
    · rintro ⟨key, member, rfl, accepts⟩
      refine ⟨key, ⟨member, (prefix_append_iff.mp accepts.spans).2, ?_⟩, rfl⟩
      simpa [List.drop_drop, Nat.add_comm] using accepts.closes
  · rename_i fail
    simp only [reduceCtorEq, false_iff, not_exists, not_and]
    rintro key - - ⟨opens, spans, -⟩
    apply fail
    have qualifier := (prefix_append_iff.mp spans).1
    obtain ⟨tail, rfl⟩ := qualifier
    simp only [Opens, Bool.and_eq_true, Bool.not_eq_true'] at opens
    simp [lookbehindsPass_eq, opens.1, wordBoundary, opens.2, legacyQualifier,
      UnicodeTable.isWord, asciiWord]

end ThreadSystem.Migration
