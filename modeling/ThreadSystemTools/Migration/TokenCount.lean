import ThreadSystemTools.Migration.LineIdempotence

/-! `migrate_line` conserves tokens: each accepted legacy occurrence becomes exactly one
new-form token with the table's spelling, and new-form tokens already in the line are
neither lost nor merged with a replacement. Counted along the scan.
-/

namespace ThreadSystem.Migration

open ThreadSystem.Text

variable {U : UnicodeTable}

/-- Occurrences of `token` in `text` that no word character follows; they may overlap. -/
def countToken (U : UnicodeTable) (token : List Char) : List Char → Nat
  | [] => 0
  | c :: rest =>
      (if token.isPrefixOf (c :: rest)
          && !((c :: rest).drop token.length).head?.any U.isWord then 1 else 0)
        + countToken U token rest

/-- Positions of `text` where the migration pattern matches with `key` as its group, the
lookbehinds and `\b` reading the whole text (`before` is what precedes it, reversed).
-/
def countAccepted (U : UnicodeTable) (key : List Char) (before : List Char) : List Char → Nat
  | [] => 0
  | c :: rest =>
      (if (createMigrationPattern U before (c :: rest)).map Match.group = some key then 1 else 0)
        + countAccepted U key (c :: before) rest

-----------------------------------------------------------------------------------------
-- Text that cannot hold a token start
-----------------------------------------------------------------------------------------

/-- No `l` of `text` is followed by `o`; `next` is the character after `text`. -/
def loFree : List Char → Option Char → Bool
  | [], _ => true
  | c :: rest, next => (c != 'l' || rest.head?.or next != some 'o') && loFree rest next

theorem loFree_of_none {text : List Char} {next : Option Char} (free : loFree text none = true)
    (notO : next ≠ some 'o') : loFree text next = true := by
  induction text with
  | nil => rfl
  | cons c rest ih =>
      simp only [loFree, Bool.and_eq_true] at free ⊢
      refine ⟨?_, ih free.2⟩
      cases rest with
      | nil => simp [notO]
      | cons d ds => simpa using free.1

/-- Positions of `lo`-free text start no token beginning with `lo`. -/
theorem countToken_append_of_loFree {more text rest : List Char}
    (free : loFree text rest.head? = true)
    : countToken U ('l' :: 'o' :: more) (text ++ rest) = countToken U ('l' :: 'o' :: more) rest := by
  induction text with
  | nil => rfl
  | cons c cs ih =>
      simp only [loFree, Bool.and_eq_true] at free
      have start : List.isPrefixOf ('l' :: 'o' :: more) (c :: (cs ++ rest)) = false := by
        rw [Bool.eq_false_iff]
        intro pre
        obtain ⟨tail, same⟩ := List.isPrefixOf_iff_prefix.mp pre
        simp only [List.cons_append, List.cons.injEq] at same
        obtain ⟨rfl, next⟩ := same
        have nextO := congrArg List.head? next
        rw [List.head?_append] at nextO
        simp [← nextO] at free
      rw [List.cons_append, countToken, start, Bool.false_and, ih free.2]
      simp

/-- No position inside quiet text is accepted. -/
theorem countAccepted_append_of_quiet {key before text : List Char} (rest : List Char)
    (calm : quiet before.head? text = true)
    : countAccepted U key before (text ++ rest)
      = countAccepted U key (text.reverse ++ before) rest := by
  induction text generalizing before with
  | nil => rfl
  | cons c cs ih =>
      simp only [quiet, Bool.and_eq_true] at calm
      rw [List.cons_append, countAccepted, createMigrationPattern_eq_none calm.1,
        @ih (c :: before) calm.2]
      simp

-----------------------------------------------------------------------------------------
-- The table's facts
-----------------------------------------------------------------------------------------

/-- The table maps each key to its own value, and no two keys to the same one. -/
theorem mappedLevel_eq_iff {entry : String × String} (entryMember : entry ∈ levelMappings)
    {key : List Char} (keyMember : key ∈ levelKeys)
    : mappedLevel key = entry.2.toList ↔ key = entry.1.toList := by
  have table : levelMappings.all (fun entry => levelKeys.all fun key =>
      (mappedLevel key == entry.2.toList) == (key == entry.1.toList)) = true := by decide
  have fact := List.all_eq_true.mp (List.all_eq_true.mp table entry entryMember) key keyMember
  simpa using fact

theorem key_mem_of_entry {entry : String × String} (member : entry ∈ levelMappings)
    : entry.1.toList ∈ levelKeys :=
  List.mem_map.mpr ⟨entry, member, rfl⟩

/-- What the counting needs of every key: after the first `l`, a match and its replacement
are `lo`-free, and no value is a prefix of another.
-/
def ValueFacts (key : List Char) : Bool :=
  loFree (newTail ++ mappedLevel key) none && loFree (legacyTail ++ key) none
    && levelKeys.all fun other =>
      !(mappedLevel key).isPrefixOf (mappedLevel other) || mappedLevel key == mappedLevel other

theorem valueFacts_of_mem {key : List Char} (member : key ∈ levelKeys) : ValueFacts key = true :=
  List.all_eq_true.mp (by decide : levelKeys.all ValueFacts = true) key member

theorem mappedLevel_unique {key other text : List Char} (keyMember : key ∈ levelKeys)
    (otherMember : other ∈ levelKeys) (keyStarts : mappedLevel key <+: text)
    (otherStarts : mappedLevel other <+: text) : mappedLevel key = mappedLevel other := by
  have free : ∀ k ∈ levelKeys, ∀ x ∈ levelKeys, mappedLevel k <+: mappedLevel x →
      mappedLevel k = mappedLevel x := by
    intro k m x mx pre
    have facts := valueFacts_of_mem m
    simp only [ValueFacts, Bool.and_eq_true, List.all_eq_true] at facts
    simpa [List.isPrefixOf_iff_prefix.mpr pre] using facts.2 x mx
  rcases List.prefix_or_prefix_of_prefix keyStarts otherStarts with pre | pre
  · exact free key keyMember other otherMember pre
  · exact (free other otherMember key keyMember pre).symm

/-- No new-form token starts a legacy occurrence: they part at `log_level` + `:`/`_`. -/
theorem newQualifier_isPrefixOf_legacy (more rest : List Char)
    : (newQualifier ++ more).isPrefixOf (legacyQualifier ++ rest) = false := by
  rw [Bool.eq_false_iff]
  intro pre
  have within := List.prefix_of_prefix_length_le (List.prefix_append legacyQualifier rest)
    ((List.prefix_append newQualifier more).trans (List.isPrefixOf_iff_prefix.mp pre))
    (by decide)
  exact absurd within (by decide)

-----------------------------------------------------------------------------------------
-- Counting along the scan
-----------------------------------------------------------------------------------------

/-- A quiet window reads the same in the substitution's output as in its input, and so
does the character after it.
-/
theorem window_rewriteFrom {before : List Char} {c : Char} {window rest : List Char}
    (calm : quiet (some c) window = true) (after : Option Char → Bool)
    : (window.isPrefixOf (rewriteFrom U (c :: before) rest)
        && after ((rewriteFrom U (c :: before) rest).drop window.length).head?)
      = (window.isPrefixOf rest && after (rest.drop window.length).head?) := by
  cases pre : window.isPrefixOf rest
  · have absent : window.isPrefixOf (rewriteFrom U (c :: before) rest) = false := by
      rw [Bool.eq_false_iff]
      intro found
      have back := @prefix_of_prefix_rewriteFrom U (c :: before) rest window calm
        (List.isPrefixOf_iff_prefix.mp found)
      simp [List.isPrefixOf_iff_prefix.mpr back] at pre
    simp [absent]
  · obtain ⟨tail, rfl⟩ := List.isPrefixOf_iff_prefix.mp pre
    rw [@rewriteFrom_append_of_quiet U (c :: before) window tail calm]
    simp [head?_rewriteFrom]

theorem value_eq_mappedLevel {entry : String × String} (member : entry ∈ levelMappings)
    : entry.2.toList = mappedLevel entry.1.toList :=
  ((mappedLevel_eq_iff member (key_mem_of_entry member)).mpr rfl).symm

/-- Whether a token starts at a copied character is the same before and after the scan. -/
theorem tokenStart_rewriteFrom {entry : String × String} (member : entry ∈ levelMappings)
    (before : List Char) (c : Char) (rest : List Char)
    : ((newQualifier ++ entry.2.toList).isPrefixOf (c :: rewriteFrom U (c :: before) rest)
        && !((c :: rewriteFrom U (c :: before) rest).drop
          (newQualifier ++ entry.2.toList).length).head?.any U.isWord)
      = ((newQualifier ++ entry.2.toList).isPrefixOf (c :: rest)
        && !((c :: rest).drop (newQualifier ++ entry.2.toList).length).head?.any U.isWord) := by
  have facts := keyFacts_of_mem (key_mem_of_entry member)
  simp only [KeyFacts, Bool.and_eq_true, ← value_eq_mappedLevel member] at facts
  have shape : newQualifier ++ entry.2.toList = 'l' :: (newTail ++ entry.2.toList) := rfl
  rw [shape, List.isPrefixOf_cons₂, List.isPrefixOf_cons₂, List.length_cons, List.drop_succ_cons,
    List.drop_succ_cons]
  by_cases first : c = 'l'
  · subst first
    simp only [beq_self_eq_true, Bool.true_and]
    exact window_rewriteFrom facts.1.1.2 (fun next => !next.any U.isWord)
  · have other : ('l' == c) = false := beq_eq_false_iff_ne.mpr (Ne.symm first)
    simp [other]

/-- At a replacement, a token of `value` starts exactly when the replaced key maps to it. -/
theorem tokenStart_replacement {entry : String × String} (entryMember : entry ∈ levelMappings)
    {key : List Char} (keyMember : key ∈ levelKeys) {rest : List Char}
    (closes : rest.head?.any U.isWord = false)
    : ((newQualifier ++ entry.2.toList).isPrefixOf (newQualifier ++ mappedLevel key ++ rest)
        && !((newQualifier ++ mappedLevel key ++ rest).drop
          (newQualifier ++ entry.2.toList).length).head?.any U.isWord)
      = decide (key = entry.1.toList) := by
  by_cases same : key = entry.1.toList
  · subst same
    rw [← value_eq_mappedLevel entryMember]
    simp [List.isPrefixOf_iff_prefix, closes]
  · have absent : (newQualifier ++ entry.2.toList).isPrefixOf
        (newQualifier ++ mappedLevel key ++ rest) = false := by
      rw [Bool.eq_false_iff]
      intro pre
      rw [List.isPrefixOf_iff_prefix, List.append_assoc, List.prefix_append_right_inj,
        value_eq_mappedLevel entryMember] at pre
      have equal := mappedLevel_unique (key_mem_of_entry entryMember) keyMember pre
        (List.prefix_append _ _)
      exact same ((mappedLevel_eq_iff entryMember keyMember).mp
        (equal ▸ value_eq_mappedLevel entryMember).symm)
    rw [absent]
    simpa using same

theorem not_o_of_closes {rest : List Char} (closes : rest.head?.any U.isWord = false)
    : rest.head? ≠ some 'o' := by
  intro isO
  rw [isO] at closes
  exact absurd closes (by simp [UnicodeTable.isWord, asciiWord])

/-- A replacement holds one token: that of its own key's value. -/
theorem countToken_replacement {entry : String × String} (entryMember : entry ∈ levelMappings)
    {key : List Char} (keyMember : key ∈ levelKeys) {rest : List Char}
    (closes : rest.head?.any U.isWord = false)
    : countToken U (newQualifier ++ entry.2.toList) (replaceMatch ⟨legacyQualifier ++ key, key⟩ ++ rest)
      = (if key = entry.1.toList then 1 else 0) + countToken U (newQualifier ++ entry.2.toList) rest := by
  have facts := valueFacts_of_mem keyMember
  simp only [ValueFacts, Bool.and_eq_true] at facts
  have tail : countToken U (newQualifier ++ entry.2.toList) ((newTail ++ mappedLevel key) ++ rest)
      = countToken U (newQualifier ++ entry.2.toList) rest :=
    countToken_append_of_loFree (loFree_of_none facts.1.1 (not_o_of_closes closes))
  have shape : replaceMatch ⟨legacyQualifier ++ key, key⟩ ++ rest
      = 'l' :: ((newTail ++ mappedLevel key) ++ rest) := rfl
  have start := tokenStart_replacement entryMember keyMember closes
  rw [shape, countToken, tail]
  rw [show 'l' :: (newTail ++ mappedLevel key ++ rest) = newQualifier ++ mappedLevel key ++ rest
    from rfl, start]
  by_cases same : key = entry.1.toList <;> simp [same]

/-- A legacy occurrence holds no new-form token. -/
theorem countToken_span {entry : String × String} {key : List Char} (keyMember : key ∈ levelKeys)
    {rest : List Char} (closes : rest.head?.any U.isWord = false)
    : countToken U (newQualifier ++ entry.2.toList) (legacyQualifier ++ key ++ rest)
      = countToken U (newQualifier ++ entry.2.toList) rest := by
  have facts := valueFacts_of_mem keyMember
  simp only [ValueFacts, Bool.and_eq_true] at facts
  have tail : countToken U (newQualifier ++ entry.2.toList) ((legacyTail ++ key) ++ rest)
      = countToken U (newQualifier ++ entry.2.toList) rest :=
    countToken_append_of_loFree (loFree_of_none facts.1.2 (not_o_of_closes closes))
  have shape : legacyQualifier ++ key ++ rest = 'l' :: ((legacyTail ++ key) ++ rest) := rfl
  rw [shape, countToken, tail, ← shape, List.append_assoc, newQualifier_isPrefixOf_legacy]
  simp

/-- A match counts once, for its own key, and nothing inside it is accepted again. -/
theorem countAccepted_hit {key before text : List Char} {found : Match}
    (hit : createMigrationPattern U before text = some found)
    : countAccepted U key before text
      = (if found.group = key then 1 else 0)
        + countAccepted U key (found.span.reverse ++ before) (text.drop found.span.length) := by
  obtain ⟨other, member, rfl, accepts⟩ := createMigrationPattern_eq_some.mp hit
  obtain ⟨rest, rfl⟩ := accepts.spans
  have facts := keyFacts_of_mem member
  simp only [KeyFacts, Bool.and_eq_true] at facts
  have shape : legacyQualifier ++ other ++ rest = 'l' :: ((legacyTail ++ other) ++ rest) := rfl
  rw [shape] at hit ⊢
  rw [countAccepted, hit, @countAccepted_append_of_quiet U key ('l' :: before) _ rest facts.1.1.1]
  simp [legacyQualifier_eq]

/-- Token conservation along the scan, from any position, by induction on the text. -/
theorem countToken_rewriteFrom {entry : String × String} (member : entry ∈ levelMappings)
    (before text : List Char)
    : countToken U (newQualifier ++ entry.2.toList) (rewriteFrom U before text)
      = countToken U (newQualifier ++ entry.2.toList) text
        + countAccepted U entry.1.toList before text := by
  obtain ⟨n, size⟩ : ∃ n, text.length = n := ⟨_, rfl⟩
  induction n using Nat.strong_induction_on generalizing text before with
  | _ n ih =>
      cases text with
      | nil => simp [rewriteFrom, countToken, countAccepted]
      | cons c rest =>
          cases hit : createMigrationPattern U before (c :: rest) with
          | none =>
              rw [rewriteFrom_miss hit, countToken, countToken, countAccepted, hit,
                tokenStart_rewriteFrom member, ih rest.length (by simp [← size]) _ rest rfl]
              simp only [Option.map_none', reduceCtorEq, if_false]
              omega
          | some found =>
              obtain ⟨key, keyMember, rfl, accepts⟩ := createMigrationPattern_eq_some.mp hit
              obtain ⟨tail, same⟩ := accepts.spans
              have closes := accepts.closes
              rw [← same, List.drop_left] at closes
              rw [← same] at hit ⊢
              rw [rewriteFrom_hit hit, countAccepted_hit hit, List.drop_left,
                countToken_span keyMember closes,
                countToken_replacement member keyMember (by rw [head?_rewriteFrom]; exact closes),
                ih tail.length (by simp [← size, ← same, legacyQualifier_eq]; omega) _ tail rfl]
              dsimp only
              omega

/-- `migrate_line` conserves tokens: the new-form tokens of a key's value in its output are
those of the input plus one for each position where the pattern accepts that key.
-/
theorem migrateLine_conserves_tokens (U : UnicodeTable) (line : List Char)
    {entry : String × String} (member : entry ∈ levelMappings)
    : countToken U (newQualifier ++ entry.2.toList) (migrateLine (createMigrationPattern U) line).1
      = countToken U (newQualifier ++ entry.2.toList) line
        + countAccepted U entry.1.toList [] line := by
  rw [migrateLine_fst, countToken_rewriteFrom member]

theorem migrateLine_conserves_warn_tokens
    : ("warning", "warn") ∈ levelMappings
      ∧ countToken UnicodeTable.ascii (newQualifier ++ "warn".toList)
          (migrateLine (createMigrationPattern UnicodeTable.ascii)
            "f(log_level::warning, log_level_v2::warn)".toList).1
        = countToken UnicodeTable.ascii (newQualifier ++ "warn".toList)
            "f(log_level::warning, log_level_v2::warn)".toList
          + countAccepted UnicodeTable.ascii "warning".toList []
            "f(log_level::warning, log_level_v2::warn)".toList :=
  ⟨by decide, @migrateLine_conserves_tokens UnicodeTable.ascii _ ("warning", "warn") (by decide)⟩

end ThreadSystem.Migration
