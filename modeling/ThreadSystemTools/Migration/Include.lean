import Mathlib.Data.List.InsertIdx
import ThreadSystemTools.Migration.Pattern

/-! The include injector of `migrate_log_levels.py`: `needs_include_update`, which looks for
the new qualifier and a declaration of `log_level.h`, and `add_log_level_include`, which
picks a line index and inserts `#include <kcenon/thread/core/log_level.h>` there.
-/

namespace ThreadSystem.Migration

open ThreadSystem.Text

-----------------------------------------------------------------------------------------
-- The regexes of the injector
-----------------------------------------------------------------------------------------

/-- `\s*` followed by what `next` matches: any run of whitespace, possibly empty. -/
def spaceStar (U : UnicodeTable) (next : List Char → Bool) : List Char → Bool
  | [] => next []
  | c :: rest => next (c :: rest) || (U.isSpace c && spaceStar U next rest)

/-- `\s+` followed by what `next` matches. -/
def spacePlus (U : UnicodeTable) (next : List Char → Bool) : List Char → Bool
  | [] => false
  | c :: rest => U.isSpace c && spaceStar U next rest

/-- `[<"]` followed by what `next` matches. -/
def openQuote (next : List Char → Bool) : List Char → Bool
  | [] => false
  | c :: rest => (c == '<' || c == '"') && next rest

/-- `.*log_level\.h[>"]`: within the current line, `log_level.h` and then `>` or `"`. -/
def headerAhead : List Char → Bool
  | [] => false
  | c :: rest =>
      ("log_level.h".toList.isPrefixOf (c :: rest)
          && ((c :: rest).drop 11).head?.any fun d => d == '>' || d == '"')
        || (c != '\n' && headerAhead rest)

/-- `#include\s*[<"].*log_level\.h[>"]` tried at the start of `rest`. -/
def declarationAt (U : UnicodeTable) (rest : List Char) : Bool :=
  "#include".toList.isPrefixOf rest && spaceStar U (openQuote headerAhead) (rest.drop 8)

/-- `#include\s*[<"]kcenon/thread/` tried at the start of `rest`. -/
def threadIncludeAt (U : UnicodeTable) (rest : List Char) : Bool :=
  "#include".toList.isPrefixOf rest
    && spaceStar U (openQuote fun tail => "kcenon/thread/".toList.isPrefixOf tail) (rest.drop 8)

/-- `\w+_H`: one or more word characters, then `_H`. -/
def wordsThenH (U : UnicodeTable) : List Char → Bool
  | [] => false
  | c :: rest => U.isWord c && ("_H".toList.isPrefixOf rest || wordsThenH U rest)

/-- `re.match(r'#ifndef\s+\w+_H', line)`. -/
def includeGuardAt (U : UnicodeTable) (line : List Char) : Bool :=
  "#ifndef".toList.isPrefixOf line && spacePlus U (wordsThenH U) (line.drop 7)

/-- `re.search(pattern, text)`: the pattern matches at some position. -/
def search (matchAt : List Char → Bool) : List Char → Bool
  | [] => matchAt []
  | c :: rest => matchAt (c :: rest) || search matchAt rest

theorem search_of_here {matchAt : List Char → Bool} {text : List Char}
    (here : matchAt text = true) : search matchAt text = true := by
  cases text <;> simp [search, here]

theorem search_append {matchAt : List Char → Bool} (front : List Char) {text : List Char}
    (found : search matchAt text = true) : search matchAt (front ++ text) = true := by
  induction front with
  | nil => exact found
  | cons c front ih => simp [search, ih]

/-- A search finds a text that the pattern matches whatever follows. -/
theorem search_of_infix {matchAt : List Char → Bool} {text found : List Char}
    (occurs : found <:+: text) (accepts : ∀ rest, matchAt (found ++ rest) = true)
    : search matchAt text = true := by
  obtain ⟨front, back, rfl⟩ := occurs
  rw [List.append_assoc]
  exact search_append front (search_of_here (accepts back))

-----------------------------------------------------------------------------------------
-- The two functions
-----------------------------------------------------------------------------------------

/-- `needs_include_update(content)`: the content uses `log_level_v2::` and declares no
`log_level.h`.
-/
def needsIncludeUpdate (U : UnicodeTable) (content : List Char) : Bool :=
  if contains newQualifier content then !search (declarationAt U) content else false

/-- The declaration `add_log_level_include` inserts. -/
def includeLine : List Char := "#include <kcenon/thread/core/log_level.h>".toList

/-- The first loop of `add_log_level_include` over `enumerate(lines)`: a `kcenon/thread`
include moves the index after it; any other `#include` sets it only while it is `-1`.
-/
def scanIncludes (U : UnicodeTable) (insertIndex : Int) (index : Nat) : List (List Char) → Int
  | [] => insertIndex
  | line :: rest =>
      let insertIndex :=
        if search (threadIncludeAt U) line then (index : Int) + 1
        else if "#include".toList.isPrefixOf line && insertIndex == -1 then (index : Int) + 1
        else insertIndex
      scanIncludes U insertIndex (index + 1) rest

/-- The second loop: the index after the first `#pragma once` or `#ifndef ..._H` line,
or `-1`.
-/
def scanGuards (U : UnicodeTable) (index : Nat) : List (List Char) → Int
  | [] => -1
  | line :: rest =>
      if "#pragma once".toList.isPrefixOf line || includeGuardAt U line then (index : Int) + 1
      else scanGuards U (index + 1) rest

/-- Where `add_log_level_include` inserts: after the includes, else after a header guard,
else at the top.
-/
def insertIndexOf (U : UnicodeTable) (lines : List (List Char)) : Int :=
  let insertIndex := scanIncludes U (-1) 0 lines
  if insertIndex == -1 then
    let guarded := scanGuards U 0 lines
    if guarded == -1 then 0 else guarded
  else insertIndex

/-- `add_log_level_include(content)`: the declaration inserted at `insertIndexOf`, unless the
exact line is already somewhere in the content.
-/
def addLogLevelInclude (U : UnicodeTable) (content : List Char) : List Char :=
  let lines := splitLines content
  let insertIndex := insertIndexOf U lines
  joinLines
    (if !contains includeLine content then lines.insertIdx insertIndex.toNat includeLine
      else lines)

-----------------------------------------------------------------------------------------
-- What the injector does
-----------------------------------------------------------------------------------------

variable {U : UnicodeTable}

/-- The inserted line is itself a declaration of `log_level.h`, whatever follows it. -/
theorem declarationAt_includeLine (rest : List Char)
    : declarationAt U (includeLine ++ rest) = true := rfl

/-- A content holding the inserted line holds a declaration. -/
theorem search_declaration_of_contains {content : List Char}
    (holds : contains includeLine content = true) : search (declarationAt U) content = true :=
  search_of_infix ((contains_iff _ _).mp holds) declarationAt_includeLine

theorem scanIncludes_le (insertIndex : Int) (index : Nat) (lines : List (List Char))
    (behind : insertIndex ≤ index) : scanIncludes U insertIndex index lines ≤ index + lines.length := by
  induction lines generalizing insertIndex index with
  | nil => simpa [scanIncludes] using behind
  | cons line rest ih =>
      simp only [scanIncludes, List.length_cons]
      have step := ih (if search (threadIncludeAt U) line then (index : Int) + 1
        else if "#include".toList.isPrefixOf line && insertIndex == -1 then (index : Int) + 1
        else insertIndex) (index + 1) (by split_ifs <;> omega)
      push_cast at step ⊢
      omega

theorem scanGuards_le (index : Nat) (lines : List (List Char))
    : scanGuards U index lines ≤ index + lines.length := by
  induction lines generalizing index with
  | nil => simp only [scanGuards]; omega
  | cons line rest ih =>
      simp only [scanGuards, List.length_cons]
      have step := ih (index + 1)
      split_ifs <;> push_cast at step ⊢ <;> omega

/-- The insertion index lies within the lines, so the insertion always takes place. -/
theorem insertIndexOf_le (lines : List (List Char))
    : (insertIndexOf U lines).toNat ≤ lines.length := by
  have includes := @scanIncludes_le U (-1) 0 lines (by omega)
  have guards := @scanGuards_le U 0 lines
  simp only [insertIndexOf]
  split_ifs <;> omega

/-- What `add_log_level_include` returns: the content's lines with the declaration inserted
at `insertIndexOf` when the content does not hold it yet, and the content itself otherwise.
-/
theorem splitLines_addLogLevelInclude (content : List Char)
    : splitLines (addLogLevelInclude U content)
      = if contains includeLine content then splitLines content
        else (splitLines content).insertIdx (insertIndexOf U (splitLines content)).toNat includeLine := by
  have clean : ∀ line ∈ splitLines content, '\n' ∉ line :=
    fun line member => newline_not_mem_of_mem_splitLines member
  cases holds : contains includeLine content
  · simp only [addLogLevelInclude, holds, Bool.not_false, if_true, Bool.false_eq_true, if_false]
    apply splitLines_joinLines
    · intro line member
      rcases List.mem_insertIdx (insertIndexOf_le _) |>.mp member with rfl | member
      · decide
      · exact clean line member
    · apply List.ne_nil_of_length_pos
      rw [List.length_insertIdx _ _ (insertIndexOf_le _)]
      omega
  · simp [addLogLevelInclude, holds]

/-- With two includes and none under `kcenon/thread/`, the declaration goes in after the first
include, inside the block, and not after the last one.
-/
theorem addLogLevelInclude_after_first_include
    : addLogLevelInclude UnicodeTable.ascii "#include <a>\n#include <b>\nauto l = log_level_v2::info;".toList
      = ("#include <a>\n#include <kcenon/thread/core/log_level.h>\n#include <b>\n"
          ++ "auto l = log_level_v2::info;").toList := by
  decide

end ThreadSystem.Migration
