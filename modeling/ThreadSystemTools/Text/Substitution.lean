import ThreadSystemTools.Text.Strings

/-! `pattern.sub(repl, text)` as Python's regex engine runs it: left to right, a match
found at a position is replaced and the scan resumes after it, lookbehinds reading the
original text. The scan is structural, so the model runs on examples.
-/

namespace ThreadSystem.Text

/-- A match found at a scan position: the text it spans and its first group. -/
structure Match where
  span : List Char
  group : List Char
  deriving DecidableEq, Repr

/-- `pattern.sub(repl, text)` for a pattern without empty matches, from a position whose
preceding text is `before` (reversed, so lookbehinds read its head first). The pattern is
tried at each position; after a match the scan passes over the `skip` characters the match
still spans.
-/
def subFrom (pattern : List Char → List Char → Option Match) (repl : Match → List Char)
    (skip : Nat) (before : List Char) : List Char → List Char
  | [] => []
  | c :: cs =>
      match skip with
      | k + 1 => subFrom pattern repl k (c :: before) cs
      | 0 =>
          match pattern before (c :: cs) with
          | some found => repl found ++ subFrom pattern repl (found.span.length - 1) (c :: before) cs
          | none => c :: subFrom pattern repl 0 (c :: before) cs

section Scan

variable {pattern : List Char → List Char → Option Match} {repl : Match → List Char}

@[simp] theorem subFrom_nil (skip : Nat) (before : List Char)
    : subFrom pattern repl skip before [] = [] := by
  cases skip <;> rfl

/-- Passing over matched characters is resuming the scan after them. -/
theorem subFrom_skip (skip : Nat) (before text : List Char)
    : subFrom pattern repl skip before text
      = subFrom pattern repl 0 ((text.take skip).reverse ++ before) (text.drop skip) := by
  induction text generalizing skip before with
  | nil => simp
  | cons c rest ih =>
      cases skip with
      | zero => rfl
      | succ k => simp [subFrom, ih]

/-- A position where the pattern fails keeps its character. -/
theorem subFrom_miss {before : List Char} {c : Char} {rest : List Char}
    (miss : pattern before (c :: rest) = none)
    : subFrom pattern repl 0 before (c :: rest)
      = c :: subFrom pattern repl 0 (c :: before) rest := by
  simp [subFrom, miss]

theorem subFrom_found {before : List Char} {c : Char} {rest : List Char} {found : Match}
    (hit : pattern before (c :: rest) = some found)
    : subFrom pattern repl 0 before (c :: rest)
      = repl found ++ subFrom pattern repl (found.span.length - 1) (c :: before) rest := by
  simp [subFrom, hit]

/-- A match spanning a non-empty prefix is replaced, and the scan resumes after it. -/
theorem subFrom_hit {before text : List Char} {found : Match}
    (hit : pattern before text = some found) (spans : found.span <+: text)
    (nonempty : found.span ≠ [])
    : subFrom pattern repl 0 before text
      = repl found ++ subFrom pattern repl 0 (found.span.reverse ++ before)
          (text.drop found.span.length) := by
  obtain ⟨span, group⟩ := found
  obtain ⟨c, cs, rfl⟩ := List.exists_cons_of_ne_nil nonempty
  obtain ⟨rest, rfl⟩ := spans
  have hit' : pattern before (c :: (cs ++ rest)) = some ⟨c :: cs, group⟩ := hit
  rw [List.cons_append, subFrom_found hit', subFrom_skip]
  simp

/-- The pattern fails at every position of `text` when followed by `rest`. -/
def Misses (pattern : List Char → List Char → Option Match) (before : List Char)
    : List Char → List Char → Prop
  | [], _ => True
  | c :: cs, rest => pattern before (c :: cs ++ rest) = none ∧ Misses pattern (c :: before) cs rest

/-- Text at whose positions the pattern fails is kept, by induction over that text. -/
theorem subFrom_append_of_misses {before text rest : List Char}
    (misses : Misses pattern before text rest)
    : subFrom pattern repl 0 before (text ++ rest)
      = text ++ subFrom pattern repl 0 (text.reverse ++ before) rest := by
  induction text generalizing before with
  | nil => rfl
  | cons c cs ih =>
      have miss : pattern before (c :: (cs ++ rest)) = none := misses.1
      rw [List.cons_append, subFrom_miss miss, ih misses.2]
      simp

end Scan

end ThreadSystem.Text
