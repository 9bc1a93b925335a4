import Mathlib.Data.List.Basic

/-! Python `str` operations used by the tools, over lists of code points.
`split('\n')` and `'\n'.join` are `List.splitOn` and `List.intercalate`; the character
classes read Python's Unicode database, fixed here on ASCII and a parameter beyond it.
-/

namespace ThreadSystem.Text

-----------------------------------------------------------------------------------------
-- Character classes
-----------------------------------------------------------------------------------------

/-- Python's character database above ASCII: the code points from U+0080 on that a `str`
regex's `\w` matches, those that `str.isspace()` (and so `\s` and `strip()`) accepts, and the
decimal digits (category Nd, what `\d` matches and `float()` reads) with their values. No
whitespace character is a digit.
-/
structure UnicodeTable where
  wordAbove : Char → Bool
  spaceAbove : Char → Bool
  decimalAbove : Char → Option (Fin 10)
  spacesNotDecimal : ∀ c, spaceAbove c = true → decimalAbove c = none

/-- The ASCII part of `\w`: letters, digits and the underscore. -/
def asciiWord (c : Char) : Bool := c.isAlphanum || c == '_'

/-- The ASCII part of `str.isspace()`: the space, `\t\n\v\f\r` and U+001C to U+001F. -/
def asciiSpace (c : Char) : Bool :=
  c == ' ' || (9 ≤ c.toNat && c.toNat ≤ 13) || (28 ≤ c.toNat && c.toNat ≤ 31)

/-- The ASCII word characters are ASCII, by the ranges of `Char.isAlphanum`. -/
theorem asciiWord_lt {c : Char} (word : asciiWord c = true) : c.toNat < 128 := by
  simp only [asciiWord, Char.isAlphanum, Char.isAlpha, Char.isUpper, Char.isLower, Char.isDigit,
    Bool.or_eq_true, Bool.and_eq_true, decide_eq_true_eq, beq_iff_eq] at word
  rcases word with ((⟨_, upper⟩ | ⟨_, lower⟩) | ⟨_, digit⟩) | rfl
  · exact Nat.lt_of_le_of_lt (@UInt32.toNat_le_of_le _ 90 (by decide) upper) (by decide)
  · exact Nat.lt_of_le_of_lt (@UInt32.toNat_le_of_le _ 122 (by decide) lower) (by decide)
  · exact Nat.lt_of_le_of_lt (@UInt32.toNat_le_of_le _ 57 (by decide) digit) (by decide)
  · decide

namespace UnicodeTable

/-- `\w` of a `str` pattern on one code point. -/
def isWord (U : UnicodeTable) (c : Char) : Bool :=
  if c.toNat < 128 then asciiWord c else U.wordAbove c

/-- `str.isspace()` on one code point; also what `\s` and `strip()` match. -/
def isSpace (U : UnicodeTable) (c : Char) : Bool :=
  if c.toNat < 128 then asciiSpace c else U.spaceAbove c

/-- The value of a decimal digit, `unicodedata.decimal(c)`. -/
def decimal (U : UnicodeTable) (c : Char) : Option Nat :=
  if c.toNat < 128 then (if c.isDigit then some (c.toNat - '0'.toNat) else none)
  else (U.decimalAbove c).map Fin.val

/-- `\d` of a `str` pattern on one code point. -/
def isDecimal (U : UnicodeTable) (c : Char) : Bool := (U.decimal c).isSome

/-- A table with nothing above ASCII, to run the model on examples. -/
def ascii : UnicodeTable := ⟨fun _ => false, fun _ => false, fun _ => none, fun _ _ => rfl⟩

theorem isWord_of_ascii (U : UnicodeTable) {c : Char} (low : c.toNat < 128)
    : U.isWord c = asciiWord c := by
  simp [isWord, low]

theorem isWord_of_asciiWord (U : UnicodeTable) {c : Char} (word : asciiWord c = true)
    : U.isWord c = true := by
  rw [isWord_of_ascii U (asciiWord_lt word), word]

theorem isSpace_of_ascii (U : UnicodeTable) {c : Char} (low : c.toNat < 128)
    : U.isSpace c = asciiSpace c := by
  simp [isSpace, low]

theorem isDecimal_of_ascii (U : UnicodeTable) {c : Char} (low : c.toNat < 128)
    : U.isDecimal c = c.isDigit := by
  by_cases digit : c.isDigit <;> simp [isDecimal, decimal, low, digit]

/-- No whitespace character is a decimal digit: the ASCII ones lie outside `0` to `9`, and the
table says so of the others.
-/
theorem isDecimal_eq_false_of_isSpace (U : UnicodeTable) {c : Char} (space : U.isSpace c = true)
    : U.isDecimal c = false := by
  by_cases low : c.toNat < 128
  · rw [isDecimal_of_ascii U low]
    rw [isSpace_of_ascii U low] at space
    simp only [asciiSpace, Bool.or_eq_true, beq_iff_eq, Bool.and_eq_true, decide_eq_true_eq]
      at space
    simp only [Char.isDigit, Bool.and_eq_false_iff, decide_eq_false_iff_not]
    rcases space with (rfl | range) | range
    · decide
    all_goals
      left
      show ¬ (48 : Nat) ≤ c.toNat
      omega
  · simp [isDecimal, decimal, low, U.spacesNotDecimal c (by simpa [isSpace, low] using space)]

end UnicodeTable

-----------------------------------------------------------------------------------------
-- Lines: `split('\n')` and `'\n'.join`
-----------------------------------------------------------------------------------------

/-- `text.split('\n')`. -/
def splitLines (text : List Char) : List (List Char) := text.splitOn '\n'

/-- `'\n'.join(lines)`. -/
def joinLines (lines : List (List Char)) : List Char := ['\n'].intercalate lines

/-- Every text is the join of its lines. -/
@[simp] theorem joinLines_splitLines (text : List Char) : joinLines (splitLines text) = text :=
  List.intercalate_splitOn text '\n'

/-- Lines without a newline are recovered from their join. -/
theorem splitLines_joinLines {lines : List (List Char)} (clean : ∀ line ∈ lines, '\n' ∉ line)
    (nonempty : lines ≠ []) : splitLines (joinLines lines) = lines :=
  List.splitOn_intercalate lines '\n' clean nonempty

theorem splitLines_ne_nil (text : List Char) : splitLines text ≠ [] :=
  List.splitOnP_ne_nil _ _

/-- No line of a split holds the separator, by induction on the text. -/
theorem newline_not_mem_of_mem_splitLines {text line : List Char}
    (member : line ∈ splitLines text) : '\n' ∉ line := by
  induction text generalizing line with
  | nil => simp_all [splitLines]
  | cons c rest ih =>
      simp only [splitLines, List.splitOn, List.splitOnP_cons] at member ih
      split at member
      · rcases List.mem_cons.mp member with rfl | member
        · simp
        · exact ih member
      · rename_i differs
        obtain ⟨head, tail, split⟩ := List.exists_cons_of_ne_nil (List.splitOnP_ne_nil
          (· == '\n') rest)
        rw [split, List.modifyHead_cons] at member
        rw [split] at ih
        rcases List.mem_cons.mp member with rfl | member
        · simp only [List.mem_cons, not_or]
          exact ⟨fun same => differs (by simp [← same]), ih (List.mem_cons_self _ _)⟩
        · exact ih (List.mem_cons_of_mem _ member)

/-- Splitting is injective: two texts with the same lines are equal. -/
theorem splitLines_injective {a b : List Char} (same : splitLines a = splitLines b) : a = b := by
  rw [← joinLines_splitLines a, same, joinLines_splitLines]

/-- Every line is a piece of the joined text. -/
theorem infix_joinLines {lines : List (List Char)} {line : List Char} (member : line ∈ lines)
    : line <:+: joinLines lines := by
  induction lines with
  | nil => cases member
  | cons first rest ih =>
      cases rest with
      | nil => rw [List.mem_singleton.mp member]; simp [joinLines, List.intercalate]
      | cons second more =>
          have split : joinLines (first :: second :: more)
              = first ++ '\n' :: joinLines (second :: more) := rfl
          rw [split]
          rcases List.mem_cons.mp member with rfl | member
          · exact (List.prefix_append _ _).isInfix
          · exact (ih member).trans ⟨first ++ ['\n'], [], by simp⟩

/-- A character other than the separator is in a join only inside one of its lines. -/
theorem not_mem_joinLines {c : Char} {lines : List (List Char)} (apart : c ≠ '\n')
    (clean : ∀ line ∈ lines, c ∉ line) : c ∉ joinLines lines := by
  induction lines with
  | nil => simp [joinLines, List.intercalate]
  | cons first rest ih =>
      cases rest with
      | nil => simpa [joinLines, List.intercalate] using clean first (List.mem_singleton_self _)
      | cons second more =>
          have split : joinLines (first :: second :: more)
              = first ++ '\n' :: joinLines (second :: more) := rfl
          rw [split]
          simp only [List.mem_append, List.mem_cons, not_or]
          exact ⟨clean first (List.mem_cons_self _ _), apart,
            ih fun line member => clean line (List.mem_cons_of_mem _ member)⟩

/-- `find?` returns the one element its test accepts, when the test accepts at most one. -/
theorem find?_eq_some_iff_of_unique {α : Type} {test : α → Bool} {items : List α} {item : α}
    (unique : ∀ first ∈ items, ∀ second ∈ items, test first = true → test second = true →
      first = second)
    : items.find? test = some item ↔ item ∈ items ∧ test item = true := by
  refine ⟨fun found => ⟨List.mem_of_find?_eq_some found, List.find?_some found⟩, ?_⟩
  rintro ⟨member, accepted⟩
  obtain ⟨other, found⟩ := Option.isSome_iff_exists.mp
    (List.find?_isSome.mpr ⟨item, member, accepted⟩)
  rw [found, unique other (List.mem_of_find?_eq_some found) item member
    (List.find?_some found) accepted]

-----------------------------------------------------------------------------------------
-- `strip()` and `in`
-----------------------------------------------------------------------------------------

/-- `s.strip()`: leading and trailing whitespace removed. -/
def strip (U : UnicodeTable) (s : List Char) : List Char :=
  ((s.dropWhile U.isSpace).reverse.dropWhile U.isSpace).reverse

/-- Stripping spaces from the front stops at the first non-space, and keeps what follows. -/
theorem dropWhile_append_of_head {p : Char → Bool} (front rest : List Char)
    (kept : rest.head?.any p = false) : (front ++ rest).dropWhile p = front.dropWhile p ++ rest := by
  induction front with
  | nil =>
      cases rest with
      | nil => rfl
      | cons c cs => simp_all [List.dropWhile_cons]
  | cons c cs ih => by_cases space : p c <;> simp [List.dropWhile_cons, space, ih]

/-- Stripping spaces from the back keeps every non-space character where it was. -/
theorem getElem?_rstrip {p : Char → Bool} {s : List Char} {i : Nat} {c : Char}
    (found : s[i]? = some c) (kept : p c = false)
    : (s.reverse.dropWhile p).reverse[i]? = some c := by
  have whole : s = (s.reverse.dropWhile p).reverse ++ (s.reverse.takeWhile p).reverse := by
    rw [← List.reverse_append, List.takeWhile_append_dropWhile, List.reverse_reverse]
  rw [whole] at found
  by_cases short : i < (s.reverse.dropWhile p).reverse.length
  · rwa [List.getElem?_append_left short] at found
  · rw [List.getElem?_append_right (by omega)] at found
    have space := List.mem_takeWhile_imp
      (List.mem_reverse.mp (List.mem_iff_getElem?.mpr ⟨_, found⟩))
    simp [kept] at space

/-- `needle in haystack` for two `str`s. -/
def contains (needle : List Char) : List Char → Bool
  | [] => needle.isEmpty
  | c :: cs => needle.isPrefixOf (c :: cs) || contains needle cs

theorem contains_iff (needle haystack : List Char)
    : contains needle haystack = true ↔ needle <:+: haystack := by
  induction haystack with
  | nil => simp [contains]
  | cons c rest ih =>
      rw [List.infix_cons_iff, ← ih, ← List.isPrefixOf_iff_prefix]
      simp [contains]

end ThreadSystem.Text
