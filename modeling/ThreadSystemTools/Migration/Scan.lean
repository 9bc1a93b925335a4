import ThreadSystemTools.Migration.Pattern

/-! How `migrate_line`'s substitution moves along a line: text where no match can start
passes through unchanged in both directions, the first character is kept, and two scan
contexts that end alike open the same positions.
-/

namespace ThreadSystem.Migration

open ThreadSystem.Text

variable {U : UnicodeTable}

-----------------------------------------------------------------------------------------
-- Hits, misses and the first character
-----------------------------------------------------------------------------------------

theorem rewriteFrom_miss {before rest : List Char} {c : Char}
    (miss : createMigrationPattern U before (c :: rest) = none)
    : rewriteFrom U before (c :: rest) = c :: rewriteFrom U (c :: before) rest :=
  subFrom_miss miss

/-- A match is replaced by `log_level_v2::` and the mapped level; the scan resumes after it. -/
theorem rewriteFrom_hit {before text : List Char} {found : Match}
    (hit : createMigrationPattern U before text = some found)
    : rewriteFrom U before text
      = replaceMatch found ++ rewriteFrom U (found.span.reverse ++ before)
          (text.drop found.span.length) := by
  obtain ⟨key, -, rfl, accepts⟩ := createMigrationPattern_eq_some.mp hit
  exact subFrom_hit hit accepts.spans (by simp [legacyQualifier])

theorem head_eq_l_of_hit {before : List Char} {c : Char} {rest : List Char} {found : Match}
    (hit : createMigrationPattern U before (c :: rest) = some found) : c = 'l' := by
  obtain ⟨key, -, -, accepts⟩ := createMigrationPattern_eq_some.mp hit
  obtain ⟨tail, same⟩ := accepts.spans
  simpa [legacyQualifier] using (congrArg List.head? same).symm

theorem replaceMatch_head (found : Match) : (replaceMatch found).head? = some 'l' := rfl

/-- The substitution keeps a line's first character: a match and its replacement both
start with `l`.
-/
theorem head?_rewriteFrom (before text : List Char)
    : (rewriteFrom U before text).head? = text.head? := by
  cases text with
  | nil => rfl
  | cons c rest =>
      cases hit : createMigrationPattern U before (c :: rest) with
      | none => rw [rewriteFrom_miss hit]; rfl
      | some found =>
          rw [rewriteFrom, subFrom_found hit, List.head?_append, replaceMatch_head,
            head_eq_l_of_hit hit]
          rfl

theorem rewriteFrom_eq_nil_iff (before text : List Char)
    : rewriteFrom U before text = [] ↔ text = [] := by
  rw [← List.head?_eq_none_iff, head?_rewriteFrom, List.head?_eq_none_iff]

-----------------------------------------------------------------------------------------
-- Text in which no match can start
-----------------------------------------------------------------------------------------

/-- No position of `text` can open a match whatever follows it: every `l` in it comes right
after an ASCII word character. `left` is the character before `text`.
-/
def quiet : Option Char → List Char → Bool
  | _, [] => true
  | left, c :: rest => (c != 'l' || left.any asciiWord) && quiet (some c) rest

theorem any_isWord_of_any_asciiWord {left : Option Char} (word : left.any asciiWord = true)
    : left.any U.isWord = true := by
  cases left with
  | none => exact absurd word (by decide)
  | some c => exact U.isWord_of_asciiWord word

/-- The pattern fails at a character other than `l` and after a word character. -/
theorem createMigrationPattern_eq_none {before : List Char} {c : Char} {rest : List Char}
    (closed : (c != 'l' || before.head?.any asciiWord) = true)
    : createMigrationPattern U before (c :: rest) = none := by
  rw [Option.eq_none_iff_forall_not_mem]
  intro found hit
  rw [Option.mem_def] at hit
  obtain ⟨key, -, -, accepts⟩ := createMigrationPattern_eq_some.mp hit
  have opens := accepts.opens
  simp only [head_eq_l_of_hit hit, bne_self_eq_false, Bool.false_or] at closed
  simp [Opens, any_isWord_of_any_asciiWord closed] at opens

theorem misses_of_quiet {before text rest : List Char} (calm : quiet before.head? text = true)
    : Misses (createMigrationPattern U) before text rest := by
  induction text generalizing before with
  | nil => trivial
  | cons c cs ih =>
      simp only [quiet, Bool.and_eq_true] at calm
      exact ⟨createMigrationPattern_eq_none calm.1, ih calm.2⟩

/-- Quiet text passes through the substitution unchanged. -/
theorem rewriteFrom_append_of_quiet {before text : List Char} (rest : List Char)
    (calm : quiet before.head? text = true)
    : rewriteFrom U before (text ++ rest)
      = text ++ rewriteFrom U (text.reverse ++ before) rest :=
  subFrom_append_of_misses (misses_of_quiet calm)

/-- Quiet text at the start of a substitution's output was there in its input. -/
theorem prefix_of_prefix_rewriteFrom {before text quietText : List Char}
    (calm : quiet before.head? quietText = true) (starts : quietText <+: rewriteFrom U before text)
    : quietText <+: text := by
  induction quietText generalizing before text with
  | nil => exact List.nil_prefix
  | cons a rest ih =>
      simp only [quiet, Bool.and_eq_true] at calm
      cases text with
      | nil => simp [rewriteFrom] at starts
      | cons c cs =>
          obtain ⟨tail, same⟩ := starts
          have heads := congrArg List.head? same
          rw [head?_rewriteFrom] at heads
          obtain rfl : a = c := by simpa using heads
          rw [rewriteFrom_miss (createMigrationPattern_eq_none calm.1)] at same
          exact List.cons_prefix_cons.mpr
            ⟨rfl, @ih (a :: before) cs calm.2 ⟨tail, by simpa using same⟩⟩

-----------------------------------------------------------------------------------------
-- Contexts that the pattern reads alike
-----------------------------------------------------------------------------------------

/-- A character that ends a match or a replacement: an ASCII word character that does not
occur in `_v2::`.
-/
def stop (c : Char) : Bool := asciiWord c && decide (c ∉ v2Suffix)

/-- Two scan contexts the pattern reads alike: they are equal, or they share their most
recent text back to a stop character on each side.
-/
def Agree (before before' : List Char) : Prop :=
  before = before'
    ∨ ∃ recent a b older older', before = recent ++ a :: older
        ∧ before' = recent ++ b :: older' ∧ stop a = true ∧ stop b = true

theorem Agree.cons {before before' : List Char} (agree : Agree before before') (c : Char)
    : Agree (c :: before) (c :: before') := by
  rcases agree with rfl | ⟨recent, a, b, older, older', rfl, rfl, sa, sb⟩
  · exact .inl rfl
  · exact .inr ⟨c :: recent, a, b, older, older', rfl, rfl, sa, sb⟩

/-- Texts that end in stop characters agree after them, whatever came before. -/
theorem Agree.of_stops {first second : List Char}
    (firstStop : first.getLast?.any stop = true) (secondStop : second.getLast?.any stop = true)
    (before before' : List Char) : Agree (first.reverse ++ before) (second.reverse ++ before') := by
  rw [← List.head?_reverse] at firstStop secondStop
  cases hf : first.reverse with
  | nil => simp [hf] at firstStop
  | cons a older =>
      cases hs : second.reverse with
      | nil => simp [hs] at secondStop
      | cons b older' =>
          rw [hf] at firstStop
          rw [hs] at secondStop
          exact .inr ⟨[], a, b, older ++ before, older' ++ before', rfl, rfl, firstStop, secondStop⟩

/-- A prefix test of a text that avoids two characters cannot tell them apart. -/
theorem isPrefixOf_append_cons (probe recent older older' : List Char) {a b : Char}
    (avoidA : a ∉ probe) (avoidB : b ∉ probe)
    : probe.isPrefixOf (recent ++ a :: older) = probe.isPrefixOf (recent ++ b :: older') := by
  induction recent generalizing probe with
  | nil =>
      cases probe with
      | nil => rfl
      | cons p ps =>
          have pa : (p == a) = false := by
            rw [beq_eq_false_iff_ne]; rintro rfl; exact avoidA (List.mem_cons_self _ _)
          have pb : (p == b) = false := by
            rw [beq_eq_false_iff_ne]; rintro rfl; exact avoidB (List.mem_cons_self _ _)
          simp only [List.nil_append, List.isPrefixOf_cons₂, pa, pb, Bool.false_and]
  | cons c recent ih =>
      cases probe with
      | nil => rfl
      | cons p ps =>
          rw [List.cons_append, List.cons_append, List.isPrefixOf_cons₂, List.isPrefixOf_cons₂,
            ih ps (fun m => avoidA (List.mem_cons_of_mem _ m))
              (fun m => avoidB (List.mem_cons_of_mem _ m))]

/-- Contexts that agree open the same positions. -/
theorem opens_eq_of_agree {before before' : List Char} (agree : Agree before before')
    : Opens U before = Opens U before' := by
  rcases agree with rfl | ⟨recent, a, b, older, older', rfl, rfl, sa, sb⟩
  · rfl
  · simp only [stop, Bool.and_eq_true, decide_eq_true_eq] at sa sb
    have lookbehind := isPrefixOf_append_cons v2Suffix.reverse recent older older'
      (by simpa using sa.2) (by simpa using sb.2)
    cases recent with
    | nil =>
        simp [Opens, U.isWord_of_asciiWord sa.1, U.isWord_of_asciiWord sb.1]
    | cons c recent =>
        simp only [List.cons_append] at lookbehind
        simp only [Opens, lookbehind, List.cons_append, List.head?_cons]

end ThreadSystem.Migration
