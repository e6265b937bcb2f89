import DialectBench.Disk.Change

/-! Trees described entry by entry, with the times that the entries bear. -/

namespace DialectBench

/-- What is to be at a path. -/
inductive Furniture where
  /-- A file with a content, which may be executed or not. -/
  | file (content : Bytes) (executable : Bool)
  /-- A directory. -/
  | directory
  /-- A link. -/
  | link (target : Path)
  /-- Whatever is there, with another time. -/
  | touched
  /-- Nothing. -/
  | nothing
  deriving DecidableEq, Repr

/-- An entry of a description. -/
structure Furnishing where
  /-- Where it is. -/
  path : Path
  /-- What is to be there. -/
  item : Furniture
  /-- When it was changed, in nanoseconds. -/
  modified : Int
  deriving DecidableEq, Repr

namespace Disk

/-- A tree after changes that the system may refuse; a refusal changes nothing. -/
def applyAllowed (d : Disk) : Except OsError (List Change) → Disk
  | .ok changes => d.applyAll changes
  | .error _ => d

/-- A tree with a directory and all above it. -/
def withDirectory (d : Disk) (p : Path) : Disk :=
  d.applyAll (d.makingAll p.ancestors).changes

/-- A tree with the directory that a path lies in. -/
def withParent (d : Disk) (p : Path) : Disk :=
  match p.parent? with
  | some parent => d.withDirectory parent
  | none => d

/-- A tree with a file of a content at a path, and the directories above it. -/
def withFile (d : Disk) (p : Path) (content : Bytes) (executable : Bool) : Disk :=
  let d := d.withParent p
  match d.filePlace p with
  | .error _ => d
  | .ok place =>
    d.apply (if executable then .copyFile place content true else .writeFile place content)

/-- A tree with a link at a path, and the directories above it. -/
def withLink (d : Disk) (p target : Path) : Disk :=
  let d := d.withParent p
  match d.resolve p false with
  | .ok ⟨place, none⟩ => d.insert place (.link target)
  | .ok ⟨place, some _⟩ => d.replace place fun _ => .link target
  | .error _ => d

/-- A tree without what is at a path. -/
def without (d : Disk) (p : Path) : Disk :=
  match d.removingTree p with
  | .ok changes => d.applyAll changes
  | .error _ => d.applyAllowed ((d.removingFile p).map fun change => [change])

/-- A tree in which what a path leads to bears a time. -/
def withTime (d : Disk) (p : Path) (time : Int) : Disk :=
  match d.resolve p true with
  | .error _ => d
  | .ok ⟨place, _⟩ =>
    d.replace place fun node =>
      match node with
      | .file content executable _ => .file content executable time
      | .directory _ => .directory time
      | .link target => .link target

/-- A tree in which an entry of a description is as it is described, apart from its time. -/
def put (d : Disk) (entry : Furnishing) : Disk :=
  match entry.item with
  | .file content executable => d.withFile entry.path content executable
  | .directory => d.withDirectory entry.path
  | .link target => d.withLink entry.path target
  | .touched => d
  | .nothing => d.without entry.path

/-- The paths that bear the time of an entry: its own unless it is a link or nothing, and those of
the directories that are made for it. -/
def timedPaths (d : Disk) (entry : Furnishing) : List Path :=
  let made := (entry.path.ancestors.drop 1).filter fun above =>
    !above.text.isEmpty && !d.exists? above
  match entry.item with
  | .file .. | .directory => entry.path :: made
  | .link _ => made
  | .touched => [entry.path]
  | .nothing => []

/-- A tree with all entries of a description, and the paths that bear their times. -/
def putAll (d : Disk) : List Furnishing → Disk × List (Path × Int)
  | [] => (d, [])
  | entry :: entries =>
    let times := (d.timedPaths entry).map fun path => (path, entry.modified)
    let (after, others) := (d.put entry).putAll entries
    (after, times ++ others)

/-- A tree with all entries of a description; the times are set when all entries are there. -/
def furnish (d : Disk) (entries : List Furnishing) : Disk :=
  let (after, times) := d.putAll entries
  times.foldl (fun d (path, time) => d.withTime path time) after

end Disk

end DialectBench
