import Mathlib
import ThreadSystemTools.Migration.FileSystem

/-! `main` of `migrate_log_levels.py` as a state machine: the state is the file system and the
three counters, one step handles one discovered file, and a run is the loop over
`find_files(path)`. An exception raised by `shutil.copy2` ends the run where it stands.
-/

namespace ThreadSystem.Migration

open ThreadSystem.Text

/-- The options of `main` that decide what it writes; `--diff` and `--verbose` only choose
what it prints.
-/
structure Args where
  path : String
  dryRun : Bool
  backup : Bool
  deriving DecidableEq, Repr

/-- What `main` carries across its loop. -/
structure RunState where
  fs : FileSystem
  totalChanges : Nat := 0
  filesChanged : Nat := 0
  filesSkipped : Nat := 0

/-- The counters of the printed `Migration Summary`. -/
structure Summary where
  filesProcessed : Nat
  filesChanged : Nat
  filesSkipped : Nat
  totalChanges : Nat
  deriving DecidableEq, Repr

/-- How `main` ends: its exit status, the file system it leaves, and the summary if it prints
one.
-/
structure Outcome where
  exitCode : Nat
  fs : FileSystem
  summary : Option Summary

variable (U : UnicodeTable) (args : Args)

/-- One pass of `for filepath in files`: migrate the file as the file system now stands, count
it, and unless `--dry-run` back it up and write the new content; or the exception
`shutil.copy2` raises.
-/
def processFile (state : RunState) (filepath : String) : Except String RunState :=
  let result := migrateFile U state.fs filepath args.dryRun
  if result.error.isSome then .ok state
  else if result.skipped then .ok { state with filesSkipped := state.filesSkipped + 1 }
  else if result.changes.isEmpty then .ok state
  else
    let counted := { state with
      filesChanged := state.filesChanged + 1
      totalChanges := state.totalChanges + result.changes.length }
    if args.dryRun then .ok counted
    else do
      let backedUp ← if args.backup then copy2 counted.fs filepath (filepath ++ ".bak")
        else pure counted.fs
      pure { counted with fs := writeText backedUp filepath result.newContent }

/-- The loop over the files: the state it ends in, and the exception that ended it early. -/
def runFiles : RunState → List String → RunState × Option String
  | state, [] => (state, none)
  | state, filepath :: rest =>
      match processFile U args state filepath with
      | .ok next => runFiles next rest
      | .error message => (state, some message)

/-- `main()` once `argparse` has read `args`. -/
def main (fs : FileSystem) : Outcome :=
  if !pathExists fs args.path then ⟨1, fs, none⟩
  else
    let files := findFiles fs args.path
    if files.isEmpty then ⟨0, fs, none⟩
    else
      match runFiles U args { fs := fs } files with
      | (state, some _) => ⟨1, state.fs, none⟩
      | (state, none) => ⟨0, state.fs,
          some ⟨files.length, state.filesChanged, state.filesSkipped, state.totalChanges⟩⟩

/-- A file the run rewrites: no dry run, and on the tree the run starts from `migrate_file`
records a change for it.
-/
def rewritten (fs : FileSystem) (filepath : String) : Bool :=
  !args.dryRun && !(migrateFile U fs filepath args.dryRun).changes.isEmpty

/-- The run after the files `done`, against the tree `fs` it started from: the directories as
they were, each rewritten file holding its new content and its backup the old one, every
other path as it was, and the counters summed over `done`.
-/
structure Tracks (fs : FileSystem) (done : List String) (state : RunState) : Prop where
  dirs : ∀ path, isDir state.fs path = isDir fs path
  written : ∀ p ∈ done, rewritten U args fs p = true →
    state.fs.lookup p = some (.text (migrateFile U fs p args.dryRun).newContent)
  backedUp : ∀ p ∈ done, rewritten U args fs p = true → args.backup = true →
    state.fs.lookup (p ++ ".bak") = fs.lookup p
  untouched : ∀ q, (∀ p ∈ done, rewritten U args fs p = true →
      q ≠ p ∧ (args.backup = true → q ≠ p ++ ".bak")) → state.fs.lookup q = fs.lookup q
  totalChanges : state.totalChanges
    = (done.map fun p => (migrateFile U fs p args.dryRun).changes.length).sum
  filesChanged : state.filesChanged
    = (done.filter fun p => !(migrateFile U fs p args.dryRun).changes.isEmpty).length
  filesSkipped : state.filesSkipped = (done.filter fun p => (shouldSkipFile p).1).length

-----------------------------------------------------------------------------------------
-- One step
-----------------------------------------------------------------------------------------

variable {U args}

/-- A file without changes passes; a skipped one is counted. -/
theorem processFile_of_unchanged {state : RunState} {filepath : String}
    (none : (migrateFile U state.fs filepath args.dryRun).changes = [])
    : processFile U args state filepath
      = .ok { state with
          filesSkipped := state.filesSkipped + if (shouldSkipFile filepath).1 then 1 else 0 } := by
  rw [← migrateFile_skipped U state.fs filepath args.dryRun]
  rcases migrateFile_cases U state.fs filepath args.dryRun with
    ⟨skip, error, -⟩ | ⟨keep, error, -⟩ | ⟨content, -, same⟩
  · simp [processFile, skip, error]
  · simp [processFile, keep, error]
  · have error : (migrateFile U state.fs filepath args.dryRun).error = Option.none := by
      rw [same]; rfl
    have kept : (migrateFile U state.fs filepath args.dryRun).skipped = false := by
      rw [same]; rfl
    simp [processFile, error, kept, none]

/-- A file with changes is counted, and outside a dry run backed up and written. -/
theorem processFile_of_changed {state : RunState} {filepath : String}
    (changed : (migrateFile U state.fs filepath args.dryRun).changes ≠ [])
    : processFile U args state filepath
      = let result := migrateFile U state.fs filepath args.dryRun
        let counted := { state with
          filesChanged := state.filesChanged + 1
          totalChanges := state.totalChanges + result.changes.length }
        if args.dryRun then .ok counted
        else if args.backup then
          (copy2 state.fs filepath (filepath ++ ".bak")).map fun backedUp =>
            { counted with fs := writeText backedUp filepath result.newContent }
        else .ok { counted with fs := writeText state.fs filepath result.newContent } := by
  obtain ⟨content, -, same⟩ := migrateFile_of_changes changed
  have error : (migrateFile U state.fs filepath args.dryRun).error = none := by rw [same]; rfl
  have kept : (migrateFile U state.fs filepath args.dryRun).skipped = false := by rw [same]; rfl
  simp only [processFile]
  generalize migrateFile U state.fs filepath args.dryRun = result at changed error kept ⊢
  have empty : result.changes.isEmpty = false := by simpa using changed
  simp only [error, kept, empty, Option.isSome_none, Bool.false_eq_true, if_false]
  cases args.dryRun <;> cases args.backup <;> simp only [Bool.false_eq_true, if_false, if_true]
  · cases copy2 state.fs filepath (filepath ++ ".bak") <;> rfl
  · rfl

-----------------------------------------------------------------------------------------
-- The run invariant
-----------------------------------------------------------------------------------------

theorem Tracks.start (fs : FileSystem) : Tracks U args fs [] { fs := fs } where
  dirs _ := rfl
  written _ member := absurd member (List.not_mem_nil _)
  backedUp _ member := absurd member (List.not_mem_nil _)
  untouched _ _ := rfl
  totalChanges := rfl
  filesChanged := rfl
  filesSkipped := rfl

/-- One more file: if the next state's lookups are those of `state` with the file's own
writes on top, the invariant extends to the file.
-/
theorem Tracks.extend {fs : FileSystem} {done : List String} {state next : RunState}
    {filepath : String} (tracks : Tracks U args fs done state)
    (found : filepath ∈ findFiles fs args.path)
    (doneFound : ∀ p ∈ done, p ∈ findFiles fs args.path) (fresh : filepath ∉ done)
    (dirs : ∀ path, isDir next.fs path = isDir state.fs path)
    (lookups : ∀ q, next.fs.lookup q =
      if rewritten U args fs filepath = true ∧ q = filepath then
        some (.text (migrateFile U fs filepath args.dryRun).newContent)
      else if rewritten U args fs filepath = true ∧ args.backup = true ∧ q = filepath ++ ".bak"
      then fs.lookup filepath
      else state.fs.lookup q)
    (totalChanges : next.totalChanges
      = state.totalChanges + (migrateFile U fs filepath args.dryRun).changes.length)
    (filesChanged : next.filesChanged
      = state.filesChanged + if (migrateFile U fs filepath args.dryRun).changes.isEmpty then 0 else 1)
    (filesSkipped : next.filesSkipped
      = state.filesSkipped + if (shouldSkipFile filepath).1 then 1 else 0)
    : Tracks U args fs (done ++ [filepath]) next where
  dirs path := (dirs path).trans (tracks.dirs path)
  written p member loud := by
    rcases List.mem_append.mp member with old | here
    · have other : p ≠ filepath := fun same => fresh (same ▸ old)
      have notBak : p ≠ filepath ++ ".bak" := findFiles_ne_bak (doneFound p old) filepath
      simp only [lookups, other, notBak, and_false, if_false]
      exact tracks.written p old loud
    · rw [List.mem_singleton.mp here] at loud ⊢
      simp [lookups, loud]
  backedUp p member loud backup := by
    rcases List.mem_append.mp member with old | here
    · have other : p ++ ".bak" ≠ filepath := (findFiles_ne_bak found p).symm
      have notBak : p ++ ".bak" ≠ filepath ++ ".bak" := fun same =>
        fresh (bak_injective same ▸ old)
      simp only [lookups, other, notBak, and_false, if_false]
      exact tracks.backedUp p old loud backup
    · rw [List.mem_singleton.mp here] at loud ⊢
      have other : filepath ++ ".bak" ≠ filepath := (findFiles_ne_bak found filepath).symm
      simp [lookups, loud, backup, other]
  untouched q apart := by
    have own := apart filepath (List.mem_append_right _ (List.mem_singleton_self _))
    rw [lookups]
    split
    · rename_i hit
      exact absurd hit.2 (own hit.1).1
    · split
      · rename_i hit
        exact absurd hit.2.2 ((own hit.1).2 hit.2.1)
      · exact tracks.untouched q fun p member => apart p (List.mem_append_left _ member)
  totalChanges := by simp [totalChanges, tracks.totalChanges]
  filesChanged := by
    rw [filesChanged, tracks.filesChanged, List.filter_append, List.length_append]
    cases hit : (migrateFile U fs filepath args.dryRun).changes.isEmpty <;> simp [hit]
  filesSkipped := by
    rw [filesSkipped, tracks.filesSkipped, List.filter_append, List.length_append]
    cases hit : (shouldSkipFile filepath).1 <;> simp [hit]

/-- The step lemma: a discovered file not handled yet, whose backup path is no directory, is
handled without an exception, and the invariant extends to it.
-/
theorem processFile_tracks {fs : FileSystem} {done : List String} {state : RunState}
    {filepath : String} (tracks : Tracks U args fs done state)
    (found : filepath ∈ findFiles fs args.path)
    (doneFound : ∀ p ∈ done, p ∈ findFiles fs args.path) (fresh : filepath ∉ done)
    (separate : isDir fs (filepath ++ ".bak") = false)
    : ∃ next, processFile U args state filepath = .ok next
      ∧ Tracks U args fs (done ++ [filepath]) next := by
  have here : state.fs.lookup filepath = fs.lookup filepath :=
    tracks.untouched filepath fun p member _ =>
      ⟨fun same => fresh (same ▸ member), fun _ => findFiles_ne_bak found p⟩
  have same : migrateFile U state.fs filepath args.dryRun = migrateFile U fs filepath args.dryRun :=
    migrateFile_congr args.dryRun here (tracks.dirs filepath)
  have extend := fun next => @Tracks.extend U args fs done state next filepath tracks found
    doneFound fresh
  by_cases none : (migrateFile U fs filepath args.dryRun).changes = []
  · have quiet : rewritten U args fs filepath = false := by simp [rewritten, none]
    refine ⟨_, processFile_of_unchanged (same ▸ none), extend _ (fun _ => rfl)
      (fun q => by simp [quiet]) (by simp [none]) (by simp [none]) rfl⟩
  · obtain ⟨content, read, result⟩ := migrateFile_of_changes none
    obtain ⟨chars, stored, -⟩ := lookup_of_readText read
    have kept : (shouldSkipFile filepath).1 = false := by
      rw [← migrateFile_skipped U fs filepath args.dryRun, result]
      rfl
    have counted : ∀ next : RunState, next.filesSkipped = state.filesSkipped →
        next.filesSkipped = state.filesSkipped + if (shouldSkipFile filepath).1 then 1 else 0 :=
      fun _ same => by simp [same, kept]
    rw [processFile_of_changed (same ▸ none)]
    simp only [same]
    by_cases dry : args.dryRun = true
    · have quiet : rewritten U args fs filepath = false := by simp [rewritten, dry]
      rw [if_pos dry]
      exact ⟨_, rfl, extend _ (fun _ => rfl) (fun q => by simp [quiet]) rfl (by simp [none])
        (counted _ rfl)⟩
    · have loud : rewritten U args fs filepath = true := by
        rw [rewritten, Bool.and_eq_true]
        exact ⟨by simpa using dry, by simpa using none⟩
      have member : filepath ∈ state.fs := AList.lookup_isSome.mp (by rw [here, stored]; rfl)
      rw [if_neg dry]
      by_cases backup : args.backup = true
      · have notDir : isDir state.fs (filepath ++ ".bak") = false := by
          rw [tracks.dirs, separate]
        have bakMember : filepath ∈ state.fs.insert (filepath ++ ".bak") (.text chars) :=
          (AList.mem_insert _).mpr (.inr member)
        rw [if_pos backup, copy2_bak notDir (here.trans stored)]
        refine ⟨_, rfl, extend _ (fun path => ?_) (fun q => ?_) rfl (by simp [none])
          (counted _ rfl)⟩
        · rw [isDir_writeText _ _ bakMember, isDir_insert_bak _ _ member]
        · have other : filepath ++ ".bak" ≠ filepath := (findFiles_ne_bak found filepath).symm
          by_cases hit : q = filepath
          · simp [lookup_writeText, hit, loud]
          · by_cases bak : q = filepath ++ ".bak"
            · subst bak
              simp [lookup_writeText, other, loud, backup, stored]
            · simp [lookup_writeText, hit, bak, AList.lookup_insert_ne bak]
      · rw [if_neg backup]
        refine ⟨_, rfl, extend _ (fun _ => isDir_writeText _ _ member) (fun q => ?_)
          rfl (by simp [none]) (counted _ rfl)⟩
        by_cases hit : q = filepath <;> simp [lookup_writeText, hit, loud, backup]

/-- The run lemma: when no discovered file has a directory at its backup path, the loop runs
to its end without an exception, and the invariant holds over all the files.
-/
theorem runFiles_tracks {fs : FileSystem}
    (separate : ∀ p ∈ findFiles fs args.path, isDir fs (p ++ ".bak") = false)
    : ∀ (todo done : List String) (state : RunState), done ++ todo = findFiles fs args.path →
      Tracks U args fs done state →
      ∃ final, runFiles U args state todo = (final, none)
        ∧ Tracks U args fs (findFiles fs args.path) final := by
  intro todo
  induction todo with
  | nil => intro done state split tracks; exact ⟨state, rfl, by simpa [← split] using tracks⟩
  | cons filepath rest ih =>
      intro done state split tracks
      have found : filepath ∈ findFiles fs args.path := by simp [← split]
      have doneFound : ∀ p ∈ done, p ∈ findFiles fs args.path := fun p member => by
        simp [← split, member]
      have fresh : filepath ∉ done := by
        have unique := findFiles_nodup fs args.path
        rw [← split] at unique
        exact fun member => (List.nodup_append.mp unique).2.2 member (List.mem_cons_self _ _)
      obtain ⟨next, step, nextTracks⟩ :=
        processFile_tracks tracks found doneFound fresh (separate filepath found)
      obtain ⟨final, run, finalTracks⟩ :=
        ih (done ++ [filepath]) next (by simp [← split]) nextTracks
      exact ⟨final, by simp [runFiles, step, run], finalTracks⟩

-----------------------------------------------------------------------------------------
-- What a run leaves
-----------------------------------------------------------------------------------------

/-- With `--backup`, a backup path that is a directory receives the copy inside it. Here the
discovered file `d/a.cpp.bak/a.cpp`, which names no legacy level, is overwritten by the backup
of `d/a.cpp` and then migrated, no file `d/a.cpp.bak` is made, and two files count as changed.
-/
theorem main_backup_into_directory
    : let fs : FileSystem := ((∅ : FileSystem).insert "d/a.cpp"
        (.text "auto l = log_level::info;".toList)).insert "d/a.cpp.bak/a.cpp"
        (.text "int x;".toList)
      let out := main UnicodeTable.ascii ⟨"d", false, true⟩ fs
      findFiles fs "d" = ["d/a.cpp", "d/a.cpp.bak/a.cpp"]
      ∧ isDir fs "d/a.cpp.bak" = true
      ∧ (migrateFile UnicodeTable.ascii fs "d/a.cpp.bak/a.cpp" false).changes = []
      ∧ out.fs.lookup "d/a.cpp.bak" = none
      ∧ out.fs.lookup "d/a.cpp.bak/a.cpp"
        = some (.text "#include <kcenon/thread/core/log_level.h>\nauto l = log_level_v2::info;".toList)
      ∧ out.summary = some ⟨2, 2, 0, 2⟩ := by
  decide

/-- A file with CRLF line ends is written back with LF ones: the change list reports line 1
only, yet line 2, `int x;\r`, comes back as `int x;`.
-/
theorem main_drops_carriage_returns
    : let fs : FileSystem :=
        (∅ : FileSystem).insert "a.cpp" (.text "log_level::info;\r\nint x;\r\n".toList)
      let out := main UnicodeTable.ascii ⟨"a.cpp", false, false⟩ fs
      splitLines "log_level::info;\r\nint x;\r\n".toList
        = ["log_level::info;\r".toList, "int x;\r".toList, []]
      ∧ (migrateFile UnicodeTable.ascii fs "a.cpp" false).changes
        = [(1, "log_level::info;".toList, "log_level_v2::info;".toList)]
      ∧ out.fs.lookup "a.cpp" = some (.text
          "#include <kcenon/thread/core/log_level.h>\nlog_level_v2::info;\nint x;\n".toList) := by
  decide

end ThreadSystem.Migration
