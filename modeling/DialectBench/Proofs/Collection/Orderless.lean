import DialectBench.Collection.Copy
import DialectBench.Proofs.Session.Orderless

/-! A collection does not depend on the order in which the system lists entries. -/

namespace DialectBench

open Action Disk

variable {d e : Disk}

/-- The modules are the same. -/
theorem Disk.Relisted.modules_eq (relisted : d.Relisted e) : Suite.modules e = Suite.modules d := by
  funext root
  rw [Suite.modules, Suite.modules, fileWays, fileWays, relisted.waysBelow_eq]

/-- What is stored in a file is understood in the same way. -/
theorem Disk.Relisted.readStored_eq {α : Type} (relisted : d.Relisted e) (path : Path)
    (meaning : JsonValue → Option α) : readStored e path meaning = readStored d path meaning := by
  rw [readStored, readStored, relisted.read_eq]

/-- Reading a manifest is orderless. -/
theorem orderless_load (path : Path) : (Manifest.load path).Orderless := by
  refine orderless_disk_bind (fun d e relisted => ?_) fun d => orderless_ite ?_ (orderless_pure none)
  · rw [relisted.exists?_eq, relisted.readStored_eq]
  · split
    · exact orderless_pure _
    · exact (orderless_tell _).bind fun _ => orderless_pure none

namespace Collection

/-- Copying the directories of a module is orderless. -/
theorem orderless_copyParts (root directory modulePath : Path) (names : List String) :
    (copyParts root directory modulePath names).Orderless := by
  induction names with
  | nil => exact orderless_pure []
  | cons name rest ih =>
    refine (orderless_look fun d e relisted => by rw [relisted.isDirectory_eq]).bind fun _ =>
      orderless_ite ?_ ih
    exact (orderless_copyTree _ _).bind fun _ => ih.bind fun _ => orderless_pure _

/-- Copying the directories of all modules is orderless. -/
theorem orderless_copyModules (root directory : Path) (modules : List (List String)) :
    (copyModules root directory modules).Orderless := by
  induction modules with
  | nil => exact orderless_pure []
  | cons names rest ih =>
    exact (orderless_copyParts _ _ _ _).bind fun _ => ih.bind fun _ => orderless_pure _

/-- Copying the log of a run is orderless. -/
theorem orderless_addLogIf (log : Option Path) (logDirectory : Option Path) (directory : Path) :
    (addLogIf log logDirectory directory).Orderless := by
  cases log with
  | none => exact orderless_pure none
  | some log =>
    refine (orderless_look fun d e relisted => ?_).bind fun source =>
      (orderless_look fun d e relisted => by rw [relisted.isFile_eq]).bind fun _ => orderless_ite ?_ ?_
    · unfold logPath
      rw [relisted.exists?_eq]
    · exact (orderless_prepareDirectory _).bind fun _ => (orderless_copyFile _ _ _).bind fun _ =>
        orderless_pure _
    · exact (orderless_tell _).bind fun _ => orderless_pure none

/-- Filling a collection is orderless. -/
theorem orderless_fill (request : CollectionOrder) (directory : Path) :
    (fill request directory).Orderless := by
  refine (orderless_look fun d e relisted => by rw [relisted.modules_eq]).bind fun modules =>
    orderless_ite (orderless_throw _) ?_
  refine (orderless_copyModules _ _ _).bind fun sources => orderless_ite (orderless_throw _) ?_
  exact (orderless_addLogIf _ _ _).bind fun _ => (orderless_writeJson _ _).bind fun _ => orderless_pure _

/-- Removing what was copied is orderless. -/
theorem orderless_clearSources (sources : List Path) : (clearSources sources).Orderless := by
  induction sources with
  | nil => exact orderless_pure ()
  | cons source sources ih =>
    refine (orderless_deleteTree source).attempt.bind fun result => ?_
    cases result with
    | ok _ => exact ih
    | error _ => exact (orderless_tell _).bind fun _ => ih

/-- Making the directory of a collection is orderless. -/
theorem orderless_makeDirectory (directory : Path) : (makeDirectory directory).Orderless := by
  refine (orderless_prepareParent _).bind fun _ =>
    (orderless_look fun d e relisted => by rw [relisted.makingDirectory_eq]).bind fun making => ?_
  split
  · exact orderless_perform _
  · exact orderless_throw _
  · exact orderless_throw _

/-- Taking an incomplete collection away is orderless. -/
theorem orderless_discard (directory : Path) : (discard directory).Orderless := by
  refine (orderless_removeIfPresent directory).attempt.bind fun result => ?_
  cases result with
  | ok _ => exact orderless_pure ()
  | error _ => exact orderless_tell _

/-- Collecting is orderless. -/
theorem orderless_collect (request : CollectionOrder) : (collect request).Orderless := by
  refine (orderless_makeDirectory _).bind fun _ => (orderless_fill request _).attempt.bind fun result => ?_
  cases result with
  | error failure => exact (orderless_discard _).bind fun _ => orderless_throw failure
  | ok sources =>
    exact orderless_ite ((orderless_clearSources sources).bind fun _ => orderless_pure _) (orderless_pure _)

end Collection

end DialectBench
