import ThreadSystemTools.Migration.Scan

/-! `migrate_line` is idempotent: its output holds no position the pattern accepts.
A replacement cannot be matched again, and text it leaves alone keeps the context that
made the first pass skip it.
-/

namespace ThreadSystem.Migration

open ThreadSystem.Text

variable {U : UnicodeTable}

-----------------------------------------------------------------------------------------
-- What each key contributes
-----------------------------------------------------------------------------------------

/-- `og_level::`, the legacy qualifier after its first `l`. -/
def legacyTail : List Char := "og_level::".toList

/-- `og_level_v2::`, the new qualifier after its first `l`. -/
def newTail : List Char := "og_level_v2::".toList

theorem legacyQualifier_eq : legacyQualifier = 'l' :: legacyTail := rfl

theorem replaceMatch_eq (found : Match)
    : replaceMatch found = 'l' :: (newTail ++ mappedLevel found.group) := rfl

/-- What the scan proofs need of every key, checked on the table: after its first `l`, a
match and its replacement are quiet, and both end in a stop character.
-/
def KeyFacts (key : List Char) : Bool :=
  quiet (some 'l') (legacyTail ++ key) && quiet (some 'l') (newTail ++ mappedLevel key)
    && (legacyTail ++ key).getLast?.any stop && (newTail ++ mappedLevel key).getLast?.any stop

theorem keyFacts_of_mem {key : List Char} (member : key ∈ levelKeys) : KeyFacts key = true :=
  List.all_eq_true.mp (by decide : levelKeys.all KeyFacts = true) key member

/-- No replacement starts with the legacy qualifier: they part at `log_level` + `_`. -/
theorem createMigrationPattern_replacement (before : List Char) (found : Match)
    (rest : List Char) : createMigrationPattern U before (replaceMatch found ++ rest) = none := by
  rw [Option.eq_none_iff_forall_not_mem]
  intro other hit
  obtain ⟨key, -, -, accepts⟩ := createMigrationPattern_eq_some.mp (Option.mem_def.mp hit)
  have qualifier := (prefix_append_iff.mp accepts.spans).1
  rw [replaceMatch, List.append_assoc] at qualifier
  exact absurd (List.prefix_of_prefix_length_le qualifier (List.prefix_append _ _) (by decide))
    (by decide)

/-- A replacement passes through a later scan unchanged. -/
theorem rewriteFrom_replacement {key : List Char} (member : key ∈ levelKeys)
    (before rest : List Char)
    : rewriteFrom U before (replaceMatch ⟨legacyQualifier ++ key, key⟩ ++ rest)
      = replaceMatch ⟨legacyQualifier ++ key, key⟩
        ++ rewriteFrom U ((replaceMatch ⟨legacyQualifier ++ key, key⟩).reverse ++ before) rest := by
  have facts := keyFacts_of_mem member
  simp only [KeyFacts, Bool.and_eq_true] at facts
  have miss := @createMigrationPattern_replacement U before ⟨legacyQualifier ++ key, key⟩ rest
  rw [replaceMatch_eq, List.cons_append] at miss
  rw [replaceMatch_eq, List.cons_append, rewriteFrom_miss miss,
    @rewriteFrom_append_of_quiet U ('l' :: before) _ rest facts.1.1.2]
  simp

-----------------------------------------------------------------------------------------
-- A skipped position stays skipped
-----------------------------------------------------------------------------------------

/-- Where the pattern fails in the input, it fails at the same place of the output, in any
context that agrees: the window it would read is quiet text the scan copied.
-/
theorem createMigrationPattern_output_none {before before' : List Char}
    (agree : Agree before before') {c : Char} {rest : List Char}
    (miss : createMigrationPattern U before (c :: rest) = none)
    : createMigrationPattern U before' (c :: rewriteFrom U (c :: before) rest) = none := by
  rw [Option.eq_none_iff_forall_not_mem]
  intro found hit
  obtain ⟨key, member, rfl, accepts⟩ := createMigrationPattern_eq_some.mp (Option.mem_def.mp hit)
  have facts := keyFacts_of_mem member
  simp only [KeyFacts, Bool.and_eq_true] at facts
  have spans := accepts.spans
  rw [legacyQualifier_eq, List.cons_append, List.cons_prefix_cons] at spans
  obtain ⟨rfl, window⟩ := spans
  obtain ⟨tail, rfl⟩ := @prefix_of_prefix_rewriteFrom U ('l' :: before) _ _ facts.1.1.1 window
  rw [@rewriteFrom_append_of_quiet U ('l' :: before) _ tail facts.1.1.1] at accepts
  have closes := accepts.closes
  rw [legacyQualifier_eq] at closes
  simp only [List.cons_append, List.length_cons, List.drop_succ_cons,
    List.drop_left, head?_rewriteFrom] at closes
  have again : createMigrationPattern U before ('l' :: (legacyTail ++ key ++ tail))
      = some ⟨legacyQualifier ++ key, key⟩ := by
    refine createMigrationPattern_eq_some.mpr ⟨key, member, rfl, ?_, ?_, ?_⟩
    · rw [opens_eq_of_agree agree]; exact accepts.opens
    · rw [legacyQualifier_eq]; simp
    · rw [legacyQualifier_eq]; simpa using closes
  rw [again] at miss
  exact absurd miss (by simp)

/-- The substitution is idempotent from any pair of agreeing contexts, by induction along
the scan: a replacement is copied, and a skipped character stays skipped.
-/
theorem rewriteFrom_rewriteFrom (before before' text : List Char) (agree : Agree before before')
    : rewriteFrom U before' (rewriteFrom U before text) = rewriteFrom U before text := by
  obtain ⟨n, size⟩ : ∃ n, text.length = n := ⟨_, rfl⟩
  induction n using Nat.strong_induction_on generalizing text before before' with
  | _ n ih =>
      cases text with
      | nil => simp [rewriteFrom]
      | cons c rest =>
          cases hit : createMigrationPattern U before (c :: rest) with
          | none =>
              rw [rewriteFrom_miss hit, rewriteFrom_miss (createMigrationPattern_output_none agree hit),
                ih rest.length (by simp [← size]) _ _ rest (agree.cons c) rfl]
          | some found =>
              obtain ⟨key, member, rfl, -⟩ := createMigrationPattern_eq_some.mp hit
              have facts := keyFacts_of_mem member
              simp only [KeyFacts, Bool.and_eq_true] at facts
              rw [rewriteFrom_hit hit, rewriteFrom_replacement member]
              congr 1
              apply ih _ _ _ _ _ _ rfl
              · simp only [← size, legacyQualifier_eq, List.length_drop, List.length_append,
                  List.length_cons]
                omega
              · rw [legacyQualifier_eq, replaceMatch_eq]
                simpa [List.reverse_cons] using
                  Agree.of_stops facts.1.2 facts.2 (['l'] ++ before) (['l'] ++ before')

/-- `migrate_line` applied to its own output changes nothing. -/
theorem migrateLine_migrateLine (line : List Char)
    : migrateLine (createMigrationPattern U) (migrateLine (createMigrationPattern U) line).1
      = ((migrateLine (createMigrationPattern U) line).1, false) := by
  refine Prod.ext ?_ ?_ <;>
    simp [rewriteFrom_rewriteFrom [] [] line (.inl rfl)]

end ThreadSystem.Migration
