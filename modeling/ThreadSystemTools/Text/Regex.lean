import ThreadSystemTools.Text.Strings

/-! `re.search` for the patterns `parse_baseline` compiles. The matcher backtracks as Python's
does: a pattern runs with a continuation for what follows it, a repetition hands characters
back one at a time (the longest run first when greedy, the shortest first when lazy), and the
search tries each start position from the left. `Matches` says which texts a pattern matches
with which groups; the matcher is sound and complete for it, and the order in which it tries
the matches decides which one `search` returns.
-/

namespace ThreadSystem.Text

-----------------------------------------------------------------------------------------
-- Patterns and the backtracking matcher
-----------------------------------------------------------------------------------------

/-- The constructs of the patterns: a literal text, one character of a class, a repetition of
a class (greedy `c*`, lazy `c*?`), an optional part `(?:...)?`, a sequence and a capturing
group.
-/
inductive Regex where
  | literal (text : List Char)
  | charClass (accepts : Char → Bool)
  | greedyStar (accepts : Char → Bool)
  | lazyStar (accepts : Char → Bool)
  | optional (body : Regex)
  | seq (first second : Regex)
  | group (body : Regex)

namespace Regex

/-- `c+`: one character of the class, then a greedy repetition of it. -/
def plus (accepts : Char → Bool) : Regex := seq (charClass accepts) (greedyStar accepts)

/-- `.` without `DOTALL`: any character but a newline. -/
def notNewline (c : Char) : Bool := c != '\n'

/-- A greedy repetition: the continuation is tried after the longest run of accepted
characters, then after each shorter one.
-/
def greedyScan {α : Type} (accepts : Char → Bool) (k : List Char → Option α)
    : List Char → Option α
  | [] => k []
  | c :: rest => if accepts c then greedyScan accepts k rest <|> k (c :: rest) else k (c :: rest)

/-- A lazy repetition: the continuation is tried after no character, then after each longer
run.
-/
def lazyScan {α : Type} (accepts : Char → Bool) (k : List Char → Option α)
    : List Char → Option α
  | [] => k []
  | c :: rest => k (c :: rest) <|> if accepts c then lazyScan accepts k rest else none

/-- `run r s groups k` matches `r` at the start of `s` and hands what is left, with the groups
captured so far, to `k`; when `k` fails it backtracks into `r`. A group captures what its body
consumed, and the groups are listed in the order they close.
-/
def run {α : Type} : Regex → List Char → List (List Char)
    → (List Char → List (List Char) → Option α) → Option α
  | literal text, s, groups, k => if text.isPrefixOf s then k (s.drop text.length) groups else none
  | charClass accepts, s, groups, k =>
      match s with
      | c :: rest => if accepts c then k rest groups else none
      | [] => none
  | greedyStar accepts, s, groups, k => greedyScan accepts (k · groups) s
  | lazyStar accepts, s, groups, k => lazyScan accepts (k · groups) s
  | optional body, s, groups, k => body.run s groups k <|> k s groups
  | seq first second, s, groups, k => first.run s groups fun rest groups => second.run rest groups k
  | group body, s, groups, k =>
      body.run s groups fun rest inner => k rest (inner ++ [s.take (s.length - rest.length)])

/-- The continuation of a search: the match ends wherever the pattern ends. -/
def found (_ : List Char) (groups : List (List Char)) : Option (List (List Char)) := some groups

/-- `re.search(pattern, text)`: the groups of the match at the first position, from the left,
at which the pattern matches; the positions run up to the end of the text.
-/
def search (r : Regex) : List Char → Option (List (List Char))
  | [] => r.run [] [] found
  | c :: rest => r.run (c :: rest) [] found <|> r.search rest

section Steps

variable {α : Type} {s : List Char} {groups : List (List Char)}
  {k : List Char → List (List Char) → Option α}

theorem run_literal_append (text : List Char)
    : (literal text).run (text ++ s) groups k = k s groups := by
  simp [run, List.isPrefixOf_iff_prefix]

theorem run_literal_of_not_prefix {text : List Char} (absent : ¬ text <+: s)
    : (literal text).run s groups k = none := by
  simp [run, List.isPrefixOf_iff_prefix, absent]

theorem run_charClass_of_reject {accepts : Char → Bool} {c : Char} (rejected : accepts c = false)
    : (charClass accepts).run (c :: s) groups k = none := by
  simp [run, rejected]

theorem run_lazyStar (accepts : Char → Bool)
    : (lazyStar accepts).run s groups k = lazyScan accepts (k · groups) s := rfl

theorem run_seq (first second : Regex)
    : (seq first second).run s groups k = first.run s groups fun rest inner => second.run rest inner k :=
  rfl

theorem run_group (body : Regex)
    : (group body).run s groups k
      = body.run s groups fun rest inner => k rest (inner ++ [s.take (s.length - rest.length)]) :=
  rfl

end Steps

-----------------------------------------------------------------------------------------
-- What a pattern matches
-----------------------------------------------------------------------------------------

/-- `Matches r text groups`: `r` matches the whole of `text`, capturing `groups`. -/
inductive Matches : Regex → List Char → List (List Char) → Prop
  | literal (text : List Char) : Matches (.literal text) text []
  | charClass {accepts : Char → Bool} {c : Char} (accepted : accepts c = true)
    : Matches (.charClass accepts) [c] []
  | greedyStar {accepts : Char → Bool} {text : List Char} (accepted : ∀ c ∈ text, accepts c = true)
    : Matches (.greedyStar accepts) text []
  | lazyStar {accepts : Char → Bool} {text : List Char} (accepted : ∀ c ∈ text, accepts c = true)
    : Matches (.lazyStar accepts) text []
  | optionalSome {body : Regex} {text : List Char} {groups : List (List Char)}
    (matched : Matches body text groups) : Matches (.optional body) text groups
  | optionalNone (body : Regex) : Matches (.optional body) [] []
  | seq {first second : Regex} {front back : List Char} {frontGroups backGroups : List (List Char)}
    (matchedFirst : Matches first front frontGroups) (matchedSecond : Matches second back backGroups)
    : Matches (.seq first second) (front ++ back) (frontGroups ++ backGroups)
  | group {body : Regex} {text : List Char} {groups : List (List Char)}
    (matched : Matches body text groups) : Matches (.group body) text (groups ++ [text])

/-! What a match of each construct consists of; with these, `simp only` takes a match of a
whole pattern apart.
-/

@[simp] theorem matches_literal_iff {text front : List Char} {groups : List (List Char)}
    : (literal text).Matches front groups ↔ front = text ∧ groups = [] := by
  constructor
  · rintro ⟨⟩; exact ⟨rfl, rfl⟩
  · rintro ⟨rfl, rfl⟩; exact .literal _

@[simp] theorem matches_charClass_iff {accepts : Char → Bool} {front : List Char}
    {groups : List (List Char)}
    : (charClass accepts).Matches front groups ↔ ∃ c, accepts c = true ∧ front = [c] ∧ groups = [] := by
  constructor
  · rintro ⟨⟩; exact ⟨_, ‹_›, rfl, rfl⟩
  · rintro ⟨c, accepted, rfl, rfl⟩; exact .charClass accepted

@[simp] theorem matches_greedyStar_iff {accepts : Char → Bool} {front : List Char}
    {groups : List (List Char)}
    : (greedyStar accepts).Matches front groups ↔ (∀ c ∈ front, accepts c = true) ∧ groups = [] := by
  constructor
  · rintro ⟨⟩; exact ⟨‹_›, rfl⟩
  · rintro ⟨accepted, rfl⟩; exact .greedyStar accepted

@[simp] theorem matches_lazyStar_iff {accepts : Char → Bool} {front : List Char}
    {groups : List (List Char)}
    : (lazyStar accepts).Matches front groups ↔ (∀ c ∈ front, accepts c = true) ∧ groups = [] := by
  constructor
  · rintro ⟨⟩; exact ⟨‹_›, rfl⟩
  · rintro ⟨accepted, rfl⟩; exact .lazyStar accepted

@[simp] theorem matches_optional_iff {body : Regex} {front : List Char} {groups : List (List Char)}
    : (optional body).Matches front groups ↔ body.Matches front groups ∨ front = [] ∧ groups = [] := by
  constructor
  · intro matched
    cases matched with
    | optionalSome matched => exact .inl matched
    | optionalNone => exact .inr ⟨rfl, rfl⟩
  · rintro (matched | ⟨rfl, rfl⟩)
    · exact .optionalSome matched
    · exact .optionalNone body

@[simp] theorem matches_seq_iff {first second : Regex} {front : List Char}
    {groups : List (List Char)}
    : (seq first second).Matches front groups ↔ ∃ head tail headGroups tailGroups,
        front = head ++ tail ∧ groups = headGroups ++ tailGroups
        ∧ first.Matches head headGroups ∧ second.Matches tail tailGroups := by
  constructor
  · rintro ⟨⟩; exact ⟨_, _, _, _, rfl, rfl, ‹_›, ‹_›⟩
  · rintro ⟨head, tail, headGroups, tailGroups, rfl, rfl, matchedFirst, matchedSecond⟩
    exact .seq matchedFirst matchedSecond

@[simp] theorem matches_group_iff {body : Regex} {front : List Char} {groups : List (List Char)}
    : (group body).Matches front groups ↔ ∃ inner, groups = inner ++ [front] ∧ body.Matches front inner := by
  constructor
  · rintro ⟨⟩; exact ⟨_, rfl, ‹_›⟩
  · rintro ⟨inner, rfl, matched⟩; exact .group matched

/-- Whether a pattern holds a capturing group. -/
def capturing : Regex → Bool
  | optional body => body.capturing
  | seq first second => first.capturing || second.capturing
  | group _ => true
  | _ => false

/-- A pattern without a group captures nothing. -/
theorem Matches.groups_eq_nil {r : Regex} {front : List Char} {groups : List (List Char)}
    (matched : r.Matches front groups) (plain : r.capturing = false) : groups = [] := by
  induction matched with
  | optionalSome _ ih => exact ih plain
  | seq _ _ ihFirst ihSecond =>
      simp only [capturing, Bool.or_eq_false_iff] at plain
      rw [ihFirst plain.1, ihSecond plain.2]
      rfl
  | group _ _ => cases plain
  | _ => rfl

/-- After a part without a group, a sequence captures what its second part captures. -/
theorem matches_seq_of_plain {first second : Regex} {front : List Char}
    {groups : List (List Char)} (plain : first.capturing = false)
    (matched : (seq first second).Matches front groups)
    : ∃ head tail, front = head ++ tail ∧ first.Matches head [] ∧ second.Matches tail groups := by
  obtain ⟨head, tail, headGroups, tailGroups, rfl, rfl, matchedFirst, matchedSecond⟩ :=
    matches_seq_iff.mp matched
  obtain rfl := matchedFirst.groups_eq_nil plain
  exact ⟨head, tail, rfl, matchedFirst, matchedSecond⟩

-----------------------------------------------------------------------------------------
-- The repetitions
-----------------------------------------------------------------------------------------

section Scans

variable {α : Type} {accepts : Char → Bool} {k : List Char → Option α}

/-- A choice whose fallback succeeds succeeds. -/
theorem orElse_isSome {first second : Option α} {x : α} (fallback : second = some x)
    : ∃ y, (first <|> second) = some y := by
  cases first <;> simp [fallback]

/-- What a greedy repetition returns comes from the continuation after a run of accepted
characters.
-/
theorem greedyScan_sound {s : List Char} {x : α} (scanned : greedyScan accepts k s = some x)
    : ∃ front rest, s = front ++ rest ∧ (∀ c ∈ front, accepts c = true) ∧ k rest = some x := by
  induction s with
  | nil => exact ⟨[], [], rfl, by simp, scanned⟩
  | cons c rest ih =>
      by_cases accepted : accepts c = true
      · cases longer : greedyScan accepts k rest with
        | some y =>
            simp only [greedyScan, accepted, if_true, longer, Option.some_orElse] at scanned
            obtain ⟨front, back, split, run, result⟩ := ih (longer.trans scanned)
            exact ⟨c :: front, back, by rw [split, List.cons_append],
              List.forall_mem_cons.mpr ⟨accepted, run⟩, result⟩
        | none =>
            simp only [greedyScan, accepted, if_true, longer, Option.none_orElse] at scanned
            exact ⟨[], c :: rest, rfl, by simp, scanned⟩
      · simp only [greedyScan, accepted, if_false] at scanned
        exact ⟨[], c :: rest, rfl, by simp, scanned⟩

/-- What a lazy repetition returns comes from the continuation after a run of accepted
characters.
-/
theorem lazyScan_sound {s : List Char} {x : α} (scanned : lazyScan accepts k s = some x)
    : ∃ front rest, s = front ++ rest ∧ (∀ c ∈ front, accepts c = true) ∧ k rest = some x := by
  induction s with
  | nil => exact ⟨[], [], rfl, by simp, scanned⟩
  | cons c rest ih =>
      cases here : k (c :: rest) with
      | some y =>
          simp only [lazyScan, here, Option.some_orElse] at scanned
          exact ⟨[], c :: rest, rfl, by simp, here.trans scanned⟩
      | none =>
          by_cases accepted : accepts c = true
          · simp only [lazyScan, here, accepted, if_true, Option.none_orElse] at scanned
            obtain ⟨front, back, split, run, result⟩ := ih scanned
            exact ⟨c :: front, back, by rw [split, List.cons_append],
              List.forall_mem_cons.mpr ⟨accepted, run⟩, result⟩
          · simp [lazyScan, here, accepted] at scanned

/-- A greedy repetition fails only if the continuation fails after every run. -/
theorem greedyScan_complete {front rest : List Char} {x : α}
    (accepted : ∀ c ∈ front, accepts c = true) (continued : k rest = some x)
    : ∃ y, greedyScan accepts k (front ++ rest) = some y := by
  induction front with
  | nil =>
      cases rest with
      | nil => exact ⟨x, continued⟩
      | cons c more =>
          by_cases first : accepts c = true
          · simpa [greedyScan, first] using orElse_isSome continued
          · simp only [greedyScan, List.nil_append, first, if_false]
            exact ⟨x, continued⟩
  | cons c front ih =>
      obtain ⟨y, longer⟩ := ih fun d member => accepted d (List.mem_cons_of_mem _ member)
      exact ⟨y, by simp [greedyScan, accepted c (List.mem_cons_self _ _), longer]⟩

/-- A lazy repetition fails only if the continuation fails after every run. -/
theorem lazyScan_complete {front rest : List Char} {x : α}
    (accepted : ∀ c ∈ front, accepts c = true) (continued : k rest = some x)
    : ∃ y, lazyScan accepts k (front ++ rest) = some y := by
  induction front with
  | nil =>
      cases rest with
      | nil => exact ⟨x, continued⟩
      | cons c more => exact ⟨x, by simp [lazyScan, continued]⟩
  | cons c front ih =>
      obtain ⟨y, longer⟩ := ih fun d member => accepted d (List.mem_cons_of_mem _ member)
      cases here : k (c :: (front ++ rest)) with
      | some z => exact ⟨z, by simp [lazyScan, here]⟩
      | none => exact ⟨y, by simp [lazyScan, here, accepted c (List.mem_cons_self _ _), longer]⟩

/-- Greedy: when the run of accepted characters ends with `front`, the continuation after all
of it is tried first.
-/
theorem greedyScan_longest {front rest : List Char} {x : α}
    (accepted : ∀ c ∈ front, accepts c = true) (stops : ∀ c ∈ rest.head?, accepts c = false)
    (continued : k rest = some x) : greedyScan accepts k (front ++ rest) = some x := by
  induction front with
  | nil =>
      cases rest with
      | nil => exact continued
      | cons c more => simp [greedyScan, stops c rfl, continued]
  | cons c front ih =>
      simp [greedyScan, accepted c (List.mem_cons_self _ _),
        ih fun d member => accepted d (List.mem_cons_of_mem _ member)]

/-- Lazy: the continuation is tried first with nothing consumed. -/
theorem lazyScan_of_some {s : List Char} {x : α} (continued : k s = some x)
    : lazyScan accepts k s = some x := by
  cases s with
  | nil => exact continued
  | cons c rest => simp [lazyScan, continued]

/-- Lazy: positions at which the continuation fails are passed over. -/
theorem lazyScan_skip {front rest : List Char} (accepted : ∀ c ∈ front, accepts c = true)
    (fails : ∀ i < front.length, k (front.drop i ++ rest) = none)
    : lazyScan accepts k (front ++ rest) = lazyScan accepts k rest := by
  induction front with
  | nil => rfl
  | cons c front ih =>
      have here : k (c :: (front ++ rest)) = none := fails 0 (Nat.succ_pos _)
      rw [List.cons_append, lazyScan, here, Option.none_orElse,
        if_pos (accepted c (List.mem_cons_self _ _))]
      exact ih (fun d member => accepted d (List.mem_cons_of_mem _ member))
        fun i short => fails (i + 1) (Nat.succ_lt_succ short)

end Scans

-----------------------------------------------------------------------------------------
-- The matcher is sound and complete
-----------------------------------------------------------------------------------------

/-- A group captures what its body consumed: the text before what is left. -/
theorem take_sub_length (front rest : List Char)
    : (front ++ rest).take ((front ++ rest).length - rest.length) = front := by
  simp

/-- Whatever the matcher returns comes from a match of the pattern on a prefix of the text,
followed by the continuation on the rest.
-/
theorem run_sound {α : Type} (r : Regex) {s : List Char} {groups : List (List Char)}
    {k : List Char → List (List Char) → Option α} {x : α} (ran : r.run s groups k = some x)
    : ∃ front rest captured, s = front ++ rest ∧ r.Matches front captured
      ∧ k rest (groups ++ captured) = some x := by
  induction r generalizing s groups k with
  | literal text =>
      simp only [run] at ran
      split_ifs at ran with starts
      have split := List.prefix_iff_eq_append.mp (List.isPrefixOf_iff_prefix.mp starts)
      exact ⟨text, _, [], split.symm, .literal text, by simpa using ran⟩
  | charClass accepts =>
      cases s with
      | nil => cases ran
      | cons c rest =>
          simp only [run] at ran
          split_ifs at ran with accepted
          exact ⟨[c], rest, [], rfl, .charClass accepted, by simpa using ran⟩
  | greedyStar accepts =>
      obtain ⟨front, rest, split, accepted, result⟩ := greedyScan_sound ran
      exact ⟨front, rest, [], split, .greedyStar accepted, by simpa using result⟩
  | lazyStar accepts =>
      obtain ⟨front, rest, split, accepted, result⟩ := lazyScan_sound ran
      exact ⟨front, rest, [], split, .lazyStar accepted, by simpa using result⟩
  | optional body ih =>
      cases inner : body.run s groups k with
      | some y =>
          simp only [run, inner, Option.some_orElse] at ran
          obtain ⟨front, rest, captured, split, matched, result⟩ := ih (inner.trans ran)
          exact ⟨front, rest, captured, split, .optionalSome matched, result⟩
      | none =>
          simp only [run, inner, Option.none_orElse] at ran
          exact ⟨[], s, [], rfl, .optionalNone body, by simpa using ran⟩
  | seq first second ihFirst ihSecond =>
      obtain ⟨front, middle, frontGroups, split, matchedFirst, rest⟩ := ihFirst ran
      obtain ⟨back, left, backGroups, split', matchedSecond, result⟩ := ihSecond rest
      exact ⟨front ++ back, left, frontGroups ++ backGroups, by simp [split, split'],
        .seq matchedFirst matchedSecond, by simpa using result⟩
  | group body ih =>
      obtain ⟨front, rest, captured, split, matched, result⟩ := ih ran
      subst split
      exact ⟨front, rest, captured ++ [front], rfl, .group matched, by
        simpa [take_sub_length] using result⟩

/-- The matcher fails only if no match of the pattern on a prefix of the text lets the
continuation succeed: backtracking tries every way the pattern can match.
-/
theorem run_complete {α : Type} {r : Regex} {front : List Char} {captured : List (List Char)}
    (matched : r.Matches front captured) {rest : List Char} {groups : List (List Char)}
    {k : List Char → List (List Char) → Option α} {x : α}
    (continued : k rest (groups ++ captured) = some x)
    : ∃ y, r.run (front ++ rest) groups k = some y := by
  induction matched generalizing rest groups k x with
  | literal text =>
      refine ⟨x, ?_⟩
      simpa [run, List.isPrefixOf_iff_prefix] using continued
  | charClass accepted =>
      exact ⟨x, by simpa [run, accepted] using continued⟩
  | greedyStar accepted =>
      exact greedyScan_complete accepted (by simpa using continued)
  | lazyStar accepted =>
      exact lazyScan_complete accepted (by simpa using continued)
  | optionalSome _ ih =>
      obtain ⟨y, inner⟩ := ih continued
      exact ⟨y, by simp [run, inner]⟩
  | optionalNone body =>
      exact orElse_isSome (by simpa using continued)
  | @seq first second front back frontGroups backGroups _ _ ihFirst ihSecond =>
      obtain ⟨y, secondRan⟩ := ihSecond (by rwa [← List.append_assoc] at continued)
      obtain ⟨z, firstRan⟩ :=
        @ihFirst (back ++ rest) groups (fun left inner => second.run left inner k) y secondRan
      exact ⟨z, by simpa [run] using firstRan⟩
  | @group body text inner _ ih =>
      obtain ⟨y, ran⟩ := @ih rest groups
        (fun left inner => k left (inner ++ [(text ++ rest).take ((text ++ rest).length
          - left.length)])) x (by simpa [take_sub_length] using continued)
      exact ⟨y, ran⟩

-----------------------------------------------------------------------------------------
-- The search
-----------------------------------------------------------------------------------------

/-- At one position the search finds the groups of a match on a prefix of the text. -/
theorem run_found_sound {r : Regex} {s : List Char} {groups : List (List Char)}
    (ran : r.run s [] found = some groups)
    : ∃ front rest, s = front ++ rest ∧ r.Matches front groups := by
  obtain ⟨front, rest, captured, split, matched, result⟩ := run_sound r ran
  cases result
  exact ⟨front, rest, split, by simpa using matched⟩

/-- The search returns the groups of a match at the first position where the pattern matches
a prefix of what follows.
-/
theorem search_sound {r : Regex} {text : List Char} {groups : List (List Char)}
    (searched : r.search text = some groups)
    : ∃ skipped front rest, text = skipped ++ front ++ rest ∧ r.Matches front groups
      ∧ ∀ j < skipped.length, ∀ front' groups', front' <+: text.drop j
        → ¬ r.Matches front' groups' := by
  induction text with
  | nil =>
      obtain ⟨front, rest, split, matched⟩ := run_found_sound searched
      exact ⟨[], front, rest, split, matched, fun j short => absurd short (Nat.not_lt_zero j)⟩
  | cons c rest ih =>
      cases here : r.run (c :: rest) [] found with
      | some found' =>
          simp only [search, here, Option.some_orElse, Option.some.injEq] at searched
          obtain ⟨front, back, split, matched⟩ := run_found_sound (here.trans (congrArg _ searched))
          exact ⟨[], front, back, split, matched, fun j short => absurd short (Nat.not_lt_zero j)⟩
      | none =>
          simp only [search, here, Option.none_orElse] at searched
          obtain ⟨skipped, front, back, split, matched, first⟩ := ih searched
          refine ⟨c :: skipped, front, back, by simp [split], matched, ?_⟩
          intro j short front' groups' present matched'
          cases j with
          | zero =>
              obtain ⟨after, split'⟩ := present
              obtain ⟨y, ran⟩ := @run_complete _ r _ _ matched' after [] found groups' rfl
              rw [split'] at ran
              exact absurd (here.symm.trans ran) (Option.noConfusion)
          | succ j =>
              exact first j (Nat.lt_of_succ_lt_succ short) front' groups' present matched'

/-- The search fails only if the pattern matches at no position. -/
theorem search_complete {r : Regex} {front : List Char} {groups : List (List Char)}
    (matched : r.Matches front groups) {text : List Char} {j : Nat}
    (present : front <+: text.drop j) : ∃ groups', r.search text = some groups' := by
  induction text generalizing j with
  | nil =>
      obtain ⟨after, split⟩ := present
      obtain ⟨y, ran⟩ := @run_complete _ r _ _ matched after [] found groups rfl
      simp only [List.drop_nil, List.append_eq_nil] at split
      rw [split.1, split.2] at ran
      exact ⟨y, ran⟩
  | cons c rest ih =>
      cases j with
      | zero =>
          obtain ⟨after, split⟩ := present
          obtain ⟨y, ran⟩ := @run_complete _ r _ _ matched after [] found groups rfl
          rw [split, List.drop_zero] at ran
          exact ⟨y, by simp [search, ran]⟩
      | succ j =>
          obtain ⟨y, later⟩ := @ih j present
          exact orElse_isSome later

/-- A match at the start of the text is the one the search returns. -/
theorem search_of_run {r : Regex} {s : List Char} {groups : List (List Char)}
    (ran : r.run s [] found = some groups) : r.search s = some groups := by
  cases s with
  | nil => exact ran
  | cons c rest => simp [search, ran]

/-- The search passes over the positions at which the pattern does not match. -/
theorem search_skip {r : Regex} {skipped s : List Char}
    (fails : ∀ i < skipped.length, r.run ((skipped ++ s).drop i) [] found = none)
    : r.search (skipped ++ s) = r.search s := by
  induction skipped with
  | nil => rfl
  | cons c skipped ih =>
      have here : r.run (c :: (skipped ++ s)) [] found = none := fails 0 (Nat.succ_pos _)
      rw [List.cons_append, search, here, Option.none_orElse]
      exact ih fun i short => fails (i + 1) (Nat.succ_lt_succ short)

end Regex

end ThreadSystem.Text
