import DialectBench.Collection.Manifest
import DialectBench.Text.Line

/-! The log that belongs to a collection. -/

namespace DialectBench.Summary

/-- The log files of a directory. -/
def logsIn (d : Disk) (directory : Path) : List Path :=
  (d.listing directory).filter fun path => d.isFile path && path.extension? == some "log"

/-- The name of a log that a run of the bench has written. -/
def isRunLog (path : Path) : Bool :=
  match path.fileName? with
  | some name => Text.startsWith name "mysql-ci-" || Text.startsWith name "tidb-ci-"
  | none => false

/-- The newest log that a collection holds. -/
def collectedLog (d : Disk) (root : Path) : Option Path :=
  d.newest? (logsIn d (root / "logs"))

/-- The newest log of a run in a directory. -/
def newestRunLog (d : Disk) (directory : Path) : Option Path :=
  d.newest? ((logsIn d directory).filter isRunLog)

/-- A log that was asked for: below the root, then in the log directory, or else as given. -/
def requestedLog (d : Disk) (log root : Path) (logDirectory : Option Path) : Path :=
  if log.isAbsolute then log
  else if d.exists? (root.join log) then root.join log
  else
    match logDirectory with
    | some directory => if d.exists? (directory.join log) then directory.join log else log
    | none => log

/-- The log of a collection: the one asked for, the one of the manifest, the newest one collected,
or the newest one of a run. -/
def logPath (d : Disk) (requested : Option Path) (root : Path) (manifest : Option Manifest)
    (logDirectory : Option Path) : Option Path :=
  match requested with
  | some log => some (requestedLog d log root logDirectory)
  | none =>
    match manifest.bind Manifest.logCopy with
    | some copy => some (root.join ⟨copy⟩)
    | none => (collectedLog d root).or (logDirectory.bind (newestRunLog d))

end DialectBench.Summary
