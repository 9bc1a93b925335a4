import ThreadSystemTools.Migration.LineIdempotence

/-! What a rewritten line looks like: `migrate_line` either keeps the line or copies the text
before a first match and replaces that match. From this one decomposition: no rewrite adds a
newline, a line without `log_level::` is kept, and a changed line still differs after `strip()`.
-/

namespace ThreadSystem.Migration

open ThreadSystem.Text

variable {U : UnicodeTable}

/-- The substitution keeps its text, or has a first match: the text before it is copied, the
match `log_level::key` is replaced, and the scan resumes after it.
-/
theorem rewriteFrom_eq_or_first_hit (before text : List Char)
    : rewriteFrom U before text = text
      ∨ ∃ front key rest, key ∈ levelKeys ∧ text = front ++ (legacyQualifier ++ key) ++ rest
          ∧ rewriteFrom U before text = front ++ replaceMatch ⟨legacyQualifier ++ key, key⟩
              ++ rewriteFrom U ((legacyQualifier ++ key).reverse ++ front.reverse ++ before) rest := by
  induction text generalizing before with
  | nil => exact .inl rfl
  | cons c rest ih =>
      cases hit : createMigrationPattern U before (c :: rest) with
      | some found =>
          obtain ⟨key, member, rfl, accepts⟩ := createMigrationPattern_eq_some.mp hit
          obtain ⟨tail, same⟩ := accepts.spans
          refine .inr ⟨[], key, tail, member, by simp [same], ?_⟩
          rw [rewriteFrom_hit hit, ← same]
          simp
      | none =>
          rw [rewriteFrom_miss hit]
          rcases ih (c :: before) with same | ⟨front, key, tail, member, split, out⟩
          · exact .inl (by rw [same])
          · refine .inr ⟨c :: front, key, tail, member, by simp [split], ?_⟩
            rw [out]
            simp

/-- A character no replacement holds, such as a line break, is in the output of the
substitution only where it was in its input.
-/
theorem not_mem_rewriteFrom {c : Char} (before text : List Char) (clean : c ∉ text)
    (fresh : levelKeys.all (fun key => !(replaceMatch ⟨legacyQualifier ++ key, key⟩).contains c)
      = true)
    : c ∉ rewriteFrom U before text := by
  obtain ⟨n, size⟩ : ∃ n, text.length = n := ⟨_, rfl⟩
  induction n using Nat.strong_induction_on generalizing before text with
  | _ n ih =>
      rcases rewriteFrom_eq_or_first_hit before text with same | ⟨front, key, rest, member, rfl, out⟩
      · rwa [same]
      · have replacement : c ∉ replaceMatch ⟨legacyQualifier ++ key, key⟩ := by
          simpa using List.all_eq_true.mp fresh key member
        have shorter : rest.length < n := by
          simp only [← size, List.length_append, legacyQualifier]
          simp only [String.toList, List.length]
          omega
        simp only [List.mem_append, not_or] at clean
        rw [out]
        simp only [List.mem_append, not_or]
        exact ⟨⟨clean.1.1, replacement⟩, ih _ shorter _ rest clean.2 rfl⟩

/-- A text without `log_level::` in it passes through unchanged. -/
theorem rewriteFrom_eq_self_of_not_infix {before text : List Char}
    (absent : ¬ legacyQualifier <:+: text) : rewriteFrom U before text = text := by
  rcases rewriteFrom_eq_or_first_hit before text with same | ⟨front, key, rest, -, rfl, -⟩
  · exact same
  · exact absurd ⟨front, key ++ rest, by simp⟩ absent

/-- `str.strip()` keeps a changed line changed. At the first match, `log_level::` has `:` where
`log_level_v2::` has `_`; both follow the same copied front, and neither is a space.
-/
theorem strip_ne_of_rewriteFrom_ne {line : List Char} (changed : rewriteFrom U [] line ≠ line)
    : strip U line ≠ strip U (rewriteFrom U [] line) := by
  rcases rewriteFrom_eq_or_first_hit [] line with same | ⟨front, key, rest, -, split, out⟩
  · exact absurd same changed
  · intro equal
    have place := congrArg (·[(front.dropWhile U.isSpace).length + 9]?) equal
    have lineAt : (line.dropWhile U.isSpace)[(front.dropWhile U.isSpace).length + 9]? = some ':' := by
      rw [split, List.append_assoc, @dropWhile_append_of_head U.isSpace front (legacyQualifier ++ key ++ rest) rfl,
        List.getElem?_append_right (by omega), Nat.add_sub_cancel_left]
      rfl
    have outAt : ((rewriteFrom U [] line).dropWhile U.isSpace)[(front.dropWhile U.isSpace).length
        + 9]? = some '_' := by
      rw [out, List.append_assoc, @dropWhile_append_of_head U.isSpace front (replaceMatch _ ++ _) rfl,
        List.getElem?_append_right (by omega), Nat.add_sub_cancel_left]
      rfl
    simp only [strip, @getElem?_rstrip U.isSpace _ _ _ lineAt rfl,
      @getElem?_rstrip U.isSpace _ _ _ outAt rfl] at place
    exact absurd place (by decide)

/-- A changed line holds `log_level_v2::`: the replacement of its first match. -/
theorem newQualifier_infix_of_rewriteFrom_ne {before line : List Char}
    (changed : rewriteFrom U before line ≠ line) : newQualifier <:+: rewriteFrom U before line := by
  rcases rewriteFrom_eq_or_first_hit before line with same | ⟨front, key, rest, -, -, out⟩
  · exact absurd same changed
  · rw [out]
    exact ⟨front, mappedLevel key
      ++ rewriteFrom U ((legacyQualifier ++ key).reverse ++ front.reverse ++ before) rest,
      by simp [replaceMatch]⟩

end ThreadSystem.Migration
