import Mathlib.Data.List.AList
import Mathlib.Data.List.Sort
import Mathlib.Data.List.Dedup
import ThreadSystemTools.Migration.MigrateFile

/-! The file system `migrate_log_levels.py` runs on: a finite map from paths, relative to the
working directory, to what the files hold; a directory is a path some file lies below. On it:
`find_files`, the text-mode read and write, `shutil.copy2`, and `migrate_file` as a whole.
-/

namespace ThreadSystem.Migration

open ThreadSystem.Text

-----------------------------------------------------------------------------------------
-- Files and directories
-----------------------------------------------------------------------------------------

/-- What a file holds: bytes that decode as UTF-8, as the characters they decode to, or bytes
that do not, with the message of the `UnicodeDecodeError` a read raises.
-/
inductive Blob where
  | text (chars : List Char)
  | undecodable (message : String)
  deriving DecidableEq, Repr

/-- The files, by path. -/
abbrev FileSystem := AList fun _ : String => Blob

/-- `os.path.isdir(path)`: some file lies below the path. -/
def isDir (fs : FileSystem) (path : String) : Bool :=
  fs.keys.any fun key => (path.toList ++ ['/']).isPrefixOf key.toList

/-- `os.path.exists(path)`: the working directory, a file or a directory. -/
def pathExists (fs : FileSystem) (path : String) : Bool :=
  path == "." || (fs.lookup path).isSome || isDir fs path

/-- The directories a path lies in: its prefixes that end right before a `/`. -/
def parentDirs : List Char → List (List Char)
  | [] => []
  | c :: rest => (if c = '/' then [[]] else []) ++ (parentDirs rest).map (c :: ·)

/-- Every path of the tree: the files and the directories they lie in. -/
def allPaths (fs : FileSystem) : List String :=
  (fs.keys ++ fs.keys.flatMap fun key => (parentDirs key.toList).map String.mk).dedup

-----------------------------------------------------------------------------------------
-- `find_files`
-----------------------------------------------------------------------------------------

/-- `SUPPORTED_EXTENSIONS`. -/
def supportedExtensions : List String := [".cpp", ".hpp", ".h", ".cc", ".cxx", ".hxx"]

/-- `Path(path).suffix`: the name from its last dot on, when that dot neither starts nor
ends the name.
-/
def pathSuffix (path : String) : String :=
  let name := basename path
  let tail := (name.reverse.takeWhile (· != '.')).reverse
  if tail.length < name.length ∧ 0 < tail.length ∧ tail.length + 1 < name.length
  then String.mk ('.' :: tail) else ""

/-- A path `Path(root).rglob(...)` walks: every path below `root`. -/
def below (root path : String) : Bool :=
  root == "." || (root.toList ++ ['/']).isPrefixOf path.toList

/-- Python's `<` on two `str`s: the first differing code point decides, and a proper prefix
comes first.
-/
def codePointsLt : List Char → List Char → Bool
  | _, [] => false
  | [], _ :: _ => true
  | a :: rest, b :: others => decide (a.toNat < b.toNat) || (a == b && codePointsLt rest others)

/-- `find_files(path)`: the file itself when it has a supported suffix; for a directory, every
path below it whose name ends with a supported extension (`rglob('*' + ext)`), sorted.
-/
def findFiles (fs : FileSystem) (path : String) : List String :=
  if (fs.lookup path).isSome then
    if pathSuffix path ∈ supportedExtensions then [path] else []
  else
    (supportedExtensions.flatMap fun ext =>
      (allPaths fs).filter fun found => below path found && ext.toList.isSuffixOf (basename found)
    ).insertionSort fun first second => !codePointsLt second.toList first.toList

-----------------------------------------------------------------------------------------
-- Reading, writing and copying
-----------------------------------------------------------------------------------------

/-- The universal newlines of a text-mode read: `\r\n` and a lone `\r` both read as `\n`. -/
def translateNewlines : List Char → List Char
  | '\r' :: '\n' :: rest => '\n' :: translateNewlines rest
  | '\r' :: rest => '\n' :: translateNewlines rest
  | c :: rest => c :: translateNewlines rest
  | [] => []

/-- `open(path, 'r', encoding='utf-8').read()`, or the message of what it raises. -/
def readText (fs : FileSystem) (path : String) : Except String (List Char) :=
  match fs.lookup path with
  | some (.text chars) => .ok (translateNewlines chars)
  | some (.undecodable message) => .error message
  | none =>
      .error (if isDir fs path then "[Errno 21] Is a directory: \x27" ++ path ++ "\x27"
        else "[Errno 2] No such file or directory: \x27" ++ path ++ "\x27")

/-- `open(path, 'w', encoding='utf-8').write(text)`: on POSIX a text-mode write keeps `\n`. -/
def writeText (fs : FileSystem) (path : String) (text : List Char) : FileSystem :=
  fs.insert path (.text text)

/-- `shutil.copy2(src, dst)`: the file copied to `dst`, or into `dst/basename(src)` when `dst`
is a directory; the copy raises `IsADirectoryError` when its target is a directory.
-/
def copy2 (fs : FileSystem) (src dst : String) : Except String FileSystem :=
  let target := if isDir fs dst then dst ++ "/" ++ String.mk (basename src) else dst
  if isDir fs target then .error ("[Errno 21] Is a directory: \x27" ++ target ++ "\x27")
  else match fs.lookup src with
    | some blob => .ok (fs.insert target blob)
    | none => .error ("[Errno 2] No such file or directory: \x27" ++ src ++ "\x27")

-----------------------------------------------------------------------------------------
-- `migrate_file`
-----------------------------------------------------------------------------------------

/-- `migrate_file(filepath, dry_run)`: skip, read, then `migrateContent`. `dry_run` is not
read.
-/
def migrateFile (U : UnicodeTable) (fs : FileSystem) (filepath : String) (_dryRun : Bool)
    : MigrationResult :=
  let (shouldSkip, reason) := shouldSkipFile filepath
  if shouldSkip then { path := filepath, skipped := true, skipReason := reason }
  else match readText fs filepath with
    | .error e => { path := filepath, error := some ("Failed to read file: " ++ e) }
    | .ok content => migrateContent U filepath content

-----------------------------------------------------------------------------------------
-- What `find_files` returns
-----------------------------------------------------------------------------------------

theorem basename_suffix (path : String) : basename path <:+ path.toList := by
  rw [basename, ← List.reverse_prefix, List.reverse_reverse]
  exact List.takeWhile_prefix _

/-- A suffix `Path.suffix` reports ends the name: the dot it starts from is the last one. -/
theorem pathSuffix_suffix {path : String} (supported : pathSuffix path ∈ supportedExtensions)
    : (pathSuffix path).toList <:+ path.toList := by
  refine List.IsSuffix.trans ?_ (basename_suffix path)
  unfold pathSuffix at supported ⊢
  dsimp only at supported ⊢
  generalize basename path = name at supported ⊢
  split at supported
  · rename_i fits
    rw [if_pos fits]
    obtain ⟨front, split⟩ : ∃ front,
        name.reverse = name.reverse.takeWhile (· != '.') ++ '.' :: front := by
      have whole := List.takeWhile_append_dropWhile (· != '.') name.reverse
      cases rest : name.reverse.dropWhile (· != '.') with
      | nil =>
          rw [rest, List.append_nil] at whole
          have size := congrArg List.length whole
          simp only [List.length_reverse] at size fits
          omega
      | cons c more =>
          have dot : c = '.' := by
            simpa [rest] using List.head?_dropWhile_not (· != '.') name.reverse
          subst dot
          exact ⟨more, by rw [← rest, whole]⟩
    rw [← List.reverse_prefix]
    conv_rhs => rw [split]
    exact ⟨front, by simp⟩
  · exact absurd supported (by decide)

theorem supportedExtensions_distinct
    : supportedExtensions.Pairwise fun a b =>
        a.toList.isSuffixOf b.toList = false ∧ b.toList.isSuffixOf a.toList = false := by
  decide

theorem supportedExtensions_not_bak
    : supportedExtensions.all (fun ext =>
        !ext.toList.isSuffixOf ".bak".toList && !".bak".toList.isSuffixOf ext.toList) = true := by
  decide

/-- Every path `find_files` returns ends with a supported extension. -/
theorem findFiles_suffix {fs : FileSystem} {root path : String} (found : path ∈ findFiles fs root)
    : ∃ ext ∈ supportedExtensions, ext.toList <:+ path.toList := by
  unfold findFiles at found
  split at found
  · split at found
    · rename_i supported
      rw [List.mem_singleton.mp found]
      exact ⟨_, supported, pathSuffix_suffix supported⟩
    · cases found
  · obtain ⟨ext, member, kept⟩ := List.mem_flatMap.mp ((List.mem_insertionSort _).mp found)
    have ends := (List.mem_filter.mp kept).2
    simp only [Bool.and_eq_true, List.isSuffixOf_iff_suffix] at ends
    exact ⟨ext, member, ends.2.trans (basename_suffix path)⟩

/-- No backup path is a discovered file: `.bak` is no supported extension. -/
theorem findFiles_ne_bak {fs : FileSystem} {root path : String} (found : path ∈ findFiles fs root)
    (file : String) : path ≠ file ++ ".bak" := by
  rintro rfl
  obtain ⟨ext, member, ends⟩ := findFiles_suffix found
  have apart := List.all_eq_true.mp supportedExtensions_not_bak ext member
  simp only [Bool.and_eq_true, Bool.not_eq_true', ← Bool.not_eq_true,
    List.isSuffixOf_iff_suffix] at apart
  rcases List.suffix_or_suffix_of_suffix ends (List.suffix_append file.toList ".bak".toList)
    with shorter | longer
  · exact apart.1 shorter
  · exact apart.2 longer

/-- `find_files` names each path once: a name ends with at most one supported extension. -/
theorem findFiles_nodup (fs : FileSystem) (root : String) : (findFiles fs root).Nodup := by
  unfold findFiles
  split
  · split
    · exact List.nodup_singleton _
    · exact List.nodup_nil
  · rw [(List.perm_insertionSort _ _).nodup_iff, List.nodup_flatMap]
    refine ⟨fun ext _ => (List.nodup_dedup _).filter _, ?_⟩
    refine supportedExtensions_distinct.imp fun {a b} apart path inA inB => ?_
    have endsA := (List.mem_filter.mp inA).2
    have endsB := (List.mem_filter.mp inB).2
    simp only [Bool.and_eq_true, List.isSuffixOf_iff_suffix] at endsA endsB
    rcases List.suffix_or_suffix_of_suffix endsA.2 endsB.2 with shorter | longer
    · exact Bool.false_ne_true (apart.1.symm.trans (List.isSuffixOf_iff_suffix.mpr shorter))
    · exact Bool.false_ne_true (apart.2.symm.trans (List.isSuffixOf_iff_suffix.mpr longer))

-----------------------------------------------------------------------------------------
-- Directories under writes
-----------------------------------------------------------------------------------------

/-- A write adds its path's directories to the tree and removes none. -/
theorem isDir_insert (fs : FileSystem) (key : String) (blob : Blob) (path : String)
    : isDir (fs.insert key blob) path
      = ((path.toList ++ ['/']).isPrefixOf key.toList || isDir fs path) := by
  apply Bool.eq_iff_iff.mpr
  simp only [isDir, Bool.or_eq_true, List.any_eq_true, ← AList.mem_keys, AList.mem_insert]
  constructor
  · rintro ⟨found, rfl | member, below⟩
    · exact .inl below
    · exact .inr ⟨found, member, below⟩
  · rintro (below | ⟨found, member, below⟩)
    · exact ⟨key, .inl rfl, below⟩
    · exact ⟨found, .inr member, below⟩

theorem isDir_of_key {fs : FileSystem} {key path : String} (member : key ∈ fs)
    (below : (path.toList ++ ['/']).isPrefixOf key.toList = true) : isDir fs path = true :=
  List.any_eq_true.mpr ⟨key, AList.mem_keys.mp member, below⟩

/-- Writing a file that exists leaves the directories as they are. -/
theorem isDir_insert_of_mem {fs : FileSystem} {key : String} (blob : Blob) (path : String)
    (member : key ∈ fs) : isDir (fs.insert key blob) path = isDir fs path := by
  rw [isDir_insert]
  cases below : (path.toList ++ ['/']).isPrefixOf key.toList
  · rfl
  · rw [isDir_of_key member below]
    rfl

/-- A directory above `file.bak` is above `file`: `.bak` holds no `/`. -/
theorem prefix_of_prefix_bak {dir file : List Char}
    (below : dir ++ ['/'] <+: file ++ ".bak".toList) : dir ++ ['/'] <+: file := by
  by_cases short : (dir ++ ['/']).length ≤ file.length
  · exact List.prefix_of_prefix_length_le below (List.prefix_append _ _) short
  · obtain ⟨rest, same⟩ := below
    have slash : (file ++ ".bak".toList)[dir.length]? = some '/' := by
      rw [← same, List.append_assoc, List.getElem?_append_right (Nat.le_refl _)]
      simp
    rw [List.getElem?_append_right (by simp at short; omega)] at slash
    exact absurd (List.mem_iff_getElem?.mpr ⟨_, slash⟩) (by decide)

/-- Writing the backup path of an existing file leaves the directories as they are. -/
theorem isDir_insert_bak {fs : FileSystem} {file : String} (blob : Blob) (path : String)
    (member : file ∈ fs) : isDir (fs.insert (file ++ ".bak") blob) path = isDir fs path := by
  rw [isDir_insert]
  cases below : (path.toList ++ ['/']).isPrefixOf (file ++ ".bak").toList
  · rfl
  · rw [isDir_of_key member (List.isPrefixOf_iff_prefix.mpr
      (prefix_of_prefix_bak (List.isPrefixOf_iff_prefix.mp below)))]
    rfl

-----------------------------------------------------------------------------------------
-- What `migrate_file` reads
-----------------------------------------------------------------------------------------

/-- `migrate_file` reads the tree only at its path: two trees that agree there, and on
whether it is a directory, give the same result.
-/
theorem migrateFile_congr {U : UnicodeTable} {fs fs' : FileSystem} {filepath : String}
    (dryRun : Bool) (same : fs.lookup filepath = fs'.lookup filepath)
    (sameDir : isDir fs filepath = isDir fs' filepath)
    : migrateFile U fs filepath dryRun = migrateFile U fs' filepath dryRun := by
  simp only [migrateFile, readText, same, sameDir]

theorem migrateFile_of_skip {U : UnicodeTable} {fs : FileSystem} {filepath : String}
    (dryRun : Bool) (skip : (shouldSkipFile filepath).1 = true)
    : migrateFile U fs filepath dryRun
      = { path := filepath, skipped := true, skipReason := (shouldSkipFile filepath).2 } := by
  simp [migrateFile, skip]

theorem migrateFile_of_read {U : UnicodeTable} {fs : FileSystem} {filepath : String}
    {content : List Char} (dryRun : Bool) (keep : (shouldSkipFile filepath).1 = false)
    (read : readText fs filepath = .ok content)
    : migrateFile U fs filepath dryRun = migrateContent U filepath content := by
  simp [migrateFile, keep, read]

theorem migrateFile_skipped (U : UnicodeTable) (fs : FileSystem) (filepath : String)
    (dryRun : Bool) : (migrateFile U fs filepath dryRun).skipped = (shouldSkipFile filepath).1 := by
  simp only [migrateFile]
  cases (shouldSkipFile filepath).1
  · simp only [Bool.false_eq_true, if_false]
    split <;> rfl
  · rfl

/-- The three ways `migrate_file` ends: skipped, failed to read, or migrated. -/
theorem migrateFile_cases (U : UnicodeTable) (fs : FileSystem) (filepath : String)
    (dryRun : Bool)
    : ((migrateFile U fs filepath dryRun).skipped = true
        ∧ (migrateFile U fs filepath dryRun).error = none
        ∧ (migrateFile U fs filepath dryRun).changes = [])
      ∨ ((migrateFile U fs filepath dryRun).skipped = false
        ∧ (migrateFile U fs filepath dryRun).error.isSome
        ∧ (migrateFile U fs filepath dryRun).changes = [])
      ∨ ∃ content, readText fs filepath = .ok content
        ∧ migrateFile U fs filepath dryRun = migrateContent U filepath content := by
  cases keep : (shouldSkipFile filepath).1
  · cases read : readText fs filepath with
    | error e => exact .inr (.inl (by simp [migrateFile, keep, read]))
    | ok content => exact .inr (.inr ⟨content, rfl, migrateFile_of_read dryRun keep read⟩)
  · exact .inl (by simp [migrateFile_of_skip dryRun keep])

/-- A text read succeeds only on a file that holds text. -/
theorem lookup_of_readText {fs : FileSystem} {path : String} {content : List Char}
    (read : readText fs path = .ok content)
    : ∃ chars, fs.lookup path = some (.text chars) ∧ content = translateNewlines chars := by
  unfold readText at read
  split at read
  · rename_i chars found
    exact ⟨chars, found, (Except.ok.inj read).symm⟩
  · cases read
  · cases read

/-- A result with changes comes from a file that was read and not skipped. -/
theorem migrateFile_of_changes {U : UnicodeTable} {fs : FileSystem} {filepath : String}
    {dryRun : Bool} (changed : (migrateFile U fs filepath dryRun).changes ≠ [])
    : ∃ content, readText fs filepath = .ok content
      ∧ migrateFile U fs filepath dryRun = migrateContent U filepath content := by
  rcases migrateFile_cases U fs filepath dryRun with ⟨-, -, none⟩ | ⟨-, -, none⟩ | found
  · exact absurd none changed
  · exact absurd none changed
  · exact found

theorem lookup_writeText (fs : FileSystem) (path : String) (text : List Char) (other : String)
    : (writeText fs path text).lookup other
      = if other = path then some (.text text) else fs.lookup other := by
  split
  · rename_i same
    rw [same]
    exact AList.lookup_insert fs
  · exact AList.lookup_insert_ne ‹_›

theorem isDir_writeText {fs : FileSystem} {path : String} (text : List Char) (dir : String)
    (member : path ∈ fs) : isDir (writeText fs path text) dir = isDir fs dir :=
  isDir_insert_of_mem _ dir member

/-- The backup of a file to a path that is no directory is a plain copy. -/
theorem copy2_bak {fs : FileSystem} {file : String} {blob : Blob}
    (notDir : isDir fs (file ++ ".bak") = false) (stored : fs.lookup file = some blob)
    : copy2 fs file (file ++ ".bak") = .ok (fs.insert (file ++ ".bak") blob) := by
  simp [copy2, notDir, stored]

theorem bak_injective {first second : String} (same : first ++ ".bak" = second ++ ".bak")
    : first = second :=
  String.ext (List.append_cancel_right (congrArg String.data same))

-----------------------------------------------------------------------------------------
-- Writing back what was migrated
-----------------------------------------------------------------------------------------

theorem cr_not_mem_translateNewlines (chars : List Char) : '\r' ∉ translateNewlines chars := by
  induction chars using translateNewlines.induct <;> simp_all [translateNewlines, Ne.symm]

theorem translateNewlines_of_cr_not_mem {chars : List Char} (plain : '\r' ∉ chars)
    : translateNewlines chars = chars := by
  induction chars using translateNewlines.induct <;> simp_all [translateNewlines]

theorem readText_writeText (fs : FileSystem) (path : String) (text : List Char)
    : readText (writeText fs path text) path = .ok (translateNewlines text) := by
  simp [readText, lookup_writeText]

/-- `migrate_file` on the file `main` wrote back records nothing and returns what it holds:
the new content has no `\r` left for the read to translate, and migrating it again is the
identity.
-/
theorem migrateFile_writeText_fixed (U : UnicodeTable) (fs : FileSystem) (filepath : String)
    (dryRun : Bool)
    : let result := migrateFile U fs filepath dryRun
      let again := migrateFile U (writeText fs filepath result.newContent) filepath dryRun
      again.changes = [] ∧ again.newContent = result.newContent := by
  dsimp only
  cases keep : (shouldSkipFile filepath).1
  · cases read : readText fs filepath with
    | error e =>
        have empty : (migrateFile U fs filepath dryRun).newContent = [] := by
          simp [migrateFile, keep, read]
        rw [empty, migrateFile_of_read dryRun keep (readText_writeText fs filepath [])]
        refine migrateContent_of_fixed filepath fun line member => ?_
        rw [List.mem_singleton.mp member]
        rfl
    | ok content =>
        obtain ⟨chars, -, rfl⟩ := lookup_of_readText read
        have same : migrateFile U fs filepath dryRun = migrateContent U filepath _ :=
          migrateFile_of_read dryRun keep read
        have plain : '\r' ∉ (migrateFile U fs filepath dryRun).newContent := by
          rw [same]
          exact not_mem_newContent filepath (cr_not_mem_translateNewlines chars) (by decide)
            (by decide) (by decide)
        rw [migrateFile_of_read dryRun keep (readText_writeText fs filepath _),
          translateNewlines_of_cr_not_mem plain, same]
        exact migrateContent_newContent_fixed filepath filepath _
  · simp [migrateFile_of_skip dryRun keep]

/-- The migration is idempotent: on a line, on a content, and on a file written back as
`main` writes it, a second migration changes nothing and adds no declaration.
-/
theorem migration_idempotent (U : UnicodeTable)
    : (∀ line, migrateLine (createMigrationPattern U) (migrateLine (createMigrationPattern U) line).1
        = ((migrateLine (createMigrationPattern U) line).1, false))
      ∧ (∀ filepath content,
          let result := migrateContent U filepath content
          (migrateContent U filepath result.newContent).changes = []
            ∧ (migrateContent U filepath result.newContent).newContent = result.newContent)
      ∧ (∀ fs filepath dryRun,
          let result := migrateFile U fs filepath dryRun
          let again := migrateFile U (writeText fs filepath result.newContent) filepath dryRun
          again.changes = [] ∧ again.newContent = result.newContent) :=
  ⟨migrateLine_migrateLine, fun filepath => migrateContent_newContent_fixed filepath filepath,
    migrateFile_writeText_fixed U⟩

end ThreadSystem.Migration
