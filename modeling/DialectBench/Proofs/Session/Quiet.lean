import DialectBench.Bench.Comparison
import DialectBench.Collection.Copy
import DialectBench.Proofs.Session.Calls
import DialectBench.Summary.Account

/-! Work on files, collections and summaries calls no command. -/

namespace DialectBench

namespace Action

/-- Making directories is quiet. -/
theorem quiet_prepareDirectory (path : Path) : (prepareDirectory path).Quiet := by
  refine (quiet_look _).bind fun making => (quiet_performAll _).bind fun _ => ?_
  -- A refusal is thrown behind what was made.
  split
  · exact Quiet.throw _
  · exact Quiet.pure ()

/-- Making the directory that a path lies in is quiet. -/
theorem quiet_prepareParent (path : Path) : (prepareParent path).Quiet := by
  unfold prepareParent
  -- A path without a parent asks for nothing.
  split
  · exact quiet_prepareDirectory _
  · exact Quiet.pure ()

/-- Copying a file is quiet. -/
theorem quiet_copyFile (step : Fault) (source target : Path) :
    (copyFile step source target).Quiet :=
  (quiet_look _).bind fun _ => (quiet_allowed _ _).bind fun _ => Quiet.perform _

/-- Copying entries is quiet. -/
theorem quiet_copyEntries (source target : Path) (entries : List (List String × Node)) :
    (copyEntries source target entries).Quiet := by
  -- Entries are copied in the order in which they are listed.
  induction entries with
  | nil => exact Quiet.pure ()
  | cons entry rest ih =>
    refine Quiet.bind ?_ fun _ => ih
    unfold copyEntry
    -- A directory is made, and a file is copied.
    split
    · exact quiet_prepareDirectory _
    · exact quiet_copyFile _ _ _

/-- Looking for an entry is quiet. -/
theorem quiet_requireEntry (path : Path) : (requireEntry path).Quiet := by
  -- The entry is looked up, and a missing one is only reported.
  refine (quiet_look _).bind fun found => ?_
  cases found with
  | error refusal => exact Quiet.throw _
  | ok entry => exact Quiet.pure ()

/-- Copying a tree is quiet. -/
theorem quiet_copyTree (source target : Path) : (copyTree source target).Quiet :=
  (quiet_prepareDirectory _).bind fun _ => (quiet_requireEntry _).bind fun _ =>
    (quiet_look _).bind fun _ => quiet_copyEntries _ _ _

/-- Removing a tree is quiet. -/
theorem quiet_deleteTree (path : Path) : (deleteTree path).Quiet :=
  (quiet_look _).bind fun _ => (quiet_allowed _ _).bind fun _ => quiet_performAll _

/-- Removing a tree that need not be there is quiet. -/
theorem quiet_removeIfPresent (path : Path) : (removeIfPresent path).Quiet := by
  refine (quiet_look _).bind fun present => ?_
  -- Nothing is removed where nothing is.
  split
  · exact (quiet_deleteTree path).bind fun _ => Quiet.pure true
  · exact Quiet.pure false

/-- Writing a JSON file is quiet. -/
theorem quiet_writeJson (path : Path) (value : JsonValue) : (writeJson path value).Quiet :=
  (quiet_prepareParent _).bind fun _ => (quiet_look _).bind fun _ =>
    (quiet_allowed _ _).bind fun _ => (Quiet.perform _).bind fun _ =>
      (Quiet.perform _).bind fun _ => Quiet.perform _

end Action

open DialectBench.Action

namespace Collection

/-- Copying the directories of a module is quiet. -/
theorem quiet_copyParts (root directory modulePath : Path) (names : List String) :
    (copyParts root directory modulePath names).Quiet := by
  induction names with
  | nil => exact Quiet.pure []
  | cons name rest ih =>
    refine (quiet_look _).bind fun present => ?_
    -- Parts that a module does not have are left out.
    split
    · exact (quiet_copyTree _ _).bind fun _ => ih.bind fun _ => Quiet.pure _
    · exact ih

/-- Copying the directories of all modules is quiet. -/
theorem quiet_copyModules (root directory : Path) (modules : List (List String)) :
    (copyModules root directory modules).Quiet := by
  induction modules with
  | nil => exact Quiet.pure []
  | cons names rest ih =>
    exact (quiet_copyParts _ _ _ _).bind fun _ => ih.bind fun _ => Quiet.pure _

/-- Copying the log of a run is quiet. -/
theorem quiet_addLogIf (log : Option Path) (logDirectory : Option Path) (directory : Path) :
    (addLogIf log logDirectory directory).Quiet := by
  cases log with
  | none => exact Quiet.pure none
  | some log =>
    refine (quiet_look _).bind fun source => (quiet_look _).bind fun present => ?_
    split
    · exact (quiet_prepareDirectory _).bind fun _ => (quiet_copyFile _ _ _).bind fun _ =>
        Quiet.pure _
    · exact (quiet_warn _).bind fun _ => Quiet.pure none

/-- Filling a collection is quiet. -/
theorem quiet_fill (request : CollectionOrder) (directory : Path) :
    (fill request directory).Quiet := by
  refine (quiet_look _).bind fun modules => ?_
  -- Without results there is nothing to copy.
  split
  · exact Quiet.throw _
  · refine (quiet_copyModules _ _ _).bind fun sources => ?_
    split
    · exact Quiet.throw _
    · exact (quiet_addLogIf _ _ _).bind fun _ => (quiet_writeJson _ _).bind fun _ => Quiet.pure _

/-- Removing what was copied is quiet. -/
theorem quiet_clearSources (sources : List Path) : (clearSources sources).Quiet := by
  induction sources with
  | nil => exact Quiet.pure ()
  | cons source rest ih =>
    refine (quiet_deleteTree source).attempt.bind fun result => ?_
    -- A source that cannot be removed is told, and the others are still removed.
    cases result with
    | ok removed => exact ih
    | error failure => exact (quiet_warn _).bind fun _ => ih

/-- Making the directory of a collection is quiet. -/
theorem quiet_makeDirectory (directory : Path) : (makeDirectory directory).Quiet := by
  refine (quiet_prepareParent _).bind fun _ => (quiet_look _).bind fun making => ?_
  split
  · exact Quiet.perform _
  · exact Quiet.throw _
  · exact Quiet.throw _

/-- Taking an incomplete collection away is quiet. -/
theorem quiet_discard (directory : Path) : (discard directory).Quiet := by
  refine (quiet_removeIfPresent directory).attempt.bind fun result => ?_
  cases result with
  | ok removed => exact Quiet.pure ()
  | error failure => exact quiet_warn _

/-- Collecting is quiet. -/
theorem quiet_collect (request : CollectionOrder) : (collect request).Quiet := by
  refine (quiet_makeDirectory _).bind fun _ => (quiet_fill _ _).attempt.bind fun result => ?_
  -- An incomplete collection is taken away again, and that is quiet, too.
  cases result with
  | error failure => exact (quiet_discard _).bind fun _ => Quiet.throw _
  | ok sources =>
    by_cases removed : request.removeSource = true
    · simp only [removed, if_true]
      exact (quiet_clearSources _).bind fun _ => Quiet.pure _
    · simp only [removed]
      exact Quiet.pure _

end Collection

/-- Reading a manifest is quiet. -/
theorem Manifest.quiet_load (path : Path) : (load path).Quiet := by
  refine Quiet.disk.bind fun d => ?_
  -- A manifest is read if it is there, and one that makes no sense is told.
  split
  · split
    · exact Quiet.pure _
    · exact (quiet_warn _).bind fun _ => Quiet.pure none
  · exact Quiet.pure none

namespace Summary

/-- Writing a summary is quiet. -/
theorem quiet_writeIf (out : Option Path) (payload : Payload) : (writeIf out payload).Quiet := by
  cases out with
  | none => exact Quiet.pure none
  | some out => exact (quiet_writeJson _ _).bind fun _ => Quiet.pure _

/-- Summarizing is quiet. -/
theorem quiet_summarize (request : Request) : (summarize request).Quiet := by
  refine (quiet_look _).bind fun present => ?_
  split
  · exact (Manifest.quiet_load _).bind fun _ => Quiet.disk.bind fun _ => Quiet.stamp.bind fun _ =>
      Quiet.universal.bind fun _ => (quiet_writeIf _ _).bind fun _ => Quiet.pure _
  · exact Quiet.throw _

end Summary

/-- Comparing the newest summaries is quiet. -/
theorem Comparison.quiet_compareNewest (runs : Path) : (compareNewest runs).Quiet :=
  (quiet_look _).bind fun _ => (quiet_forM Quiet.tell).bind fun _ => Quiet.pure _

end DialectBench
