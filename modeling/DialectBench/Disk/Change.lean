import DialectBench.Disk.Resolve
import DialectBench.Order

/-! Changes of a file tree, one entry at a time. -/

namespace DialectBench

/-- A change of one entry, or a whole tree as something else left it. -/
inductive Change where
  /-- A new directory. -/
  | makeDirectory (place : Location)
  /-- A file with a content, new or in place of an old content. -/
  | writeFile (place : Location) (content : Bytes)
  /-- A file with the content and the permissions of another. -/
  | copyFile (place : Location) (content : Bytes) (executable : Bool)
  /-- More content for a file. -/
  | extendFile (place : Location) (content : Bytes)
  /-- An entry that is gone. -/
  | delete (place : Location)
  /-- The tree that a command left. -/
  | adopt (disk : Disk)
  deriving Repr

/-- What making directories comes to: what was made stays, also when the system refuses more. -/
structure Making where
  /-- The changes that are made. -/
  changes : List Change
  /-- Why it went no further, if it did not. -/
  refusal : Option OsError := none

namespace Disk

/-- A tree with the entry at a place replaced. -/
def replace (d : Disk) (place : Location) (change : Node → Node) : Disk :=
  { d with entries := d.entries.map fun (other, node) =>
      if other = place then (other, change node) else (other, node) }

/-- A tree in which the list of entries of a directory has just changed. -/
def touchDirectory (d : Disk) (place : Location) : Disk :=
  d.replace place fun node =>
    match node with
    | .directory _ => .directory d.clock
    | node => node

/-- A tree with one entry more. -/
def insert (d : Disk) (place : Location) (node : Node) : Disk :=
  { d with entries := d.entries ++ [(place, node)] }.touchDirectory place.dropLast

/-- A tree without the entry at a place. -/
def erase (d : Disk) (place : Location) : Disk :=
  { d with entries := d.entries.filter fun (other, _) => other != place }.touchDirectory
    place.dropLast

/-- A tree with a file at a place; a file that is there keeps its permissions unless they are
given. -/
def putFile (d : Disk) (place : Location) (content : Bytes) (executable : Option Bool) : Disk :=
  if (d.find? place).isSome then
    d.replace place fun node =>
      match node with
      | .file _ before _ => .file content (executable.getD before) d.clock
      | node => node
  else d.insert place (.file content (executable.getD false) d.clock)

/-- A tree after a change; time goes on. -/
def apply (d : Disk) (change : Change) : Disk :=
  let now := { d with clock := d.clock + 1000000 }
  match change with
  | .makeDirectory place => now.insert place (.directory now.clock)
  | .writeFile place content => now.putFile place content none
  | .copyFile place content executable => now.putFile place content (some executable)
  | .extendFile place content =>
    now.replace place fun node =>
      match node with
      | .file before executable _ => .file (before ++ content) executable now.clock
      | node => node
  | .delete place => now.erase place
  | .adopt disk => disk

/-- A tree after several changes. -/
def applyAll (d : Disk) (changes : List Change) : Disk :=
  changes.foldl apply d

/-- A path without the slashes at its end. -/
def withoutSlashes (p : Path) : Path :=
  match (p.text.toList.reverse.dropWhile (· == '/')).reverse with
  | [] => p
  | text => ⟨String.ofList text⟩

/-- The change that makes a directory, if its place is free. -/
def makingDirectory (d : Disk) (p : Path) : Except OsError Change :=
  match d.resolve (withoutSlashes p) false with
  | .ok ⟨place, none⟩ => .ok (.makeDirectory place)
  | .ok ⟨_, some _⟩ => .error .alreadyExists
  | .error refusal => .error refusal

/-- The change that makes a directory, unless there is one. -/
def makingUnlessThere (d : Disk) (p : Path) : Making :=
  match d.makingDirectory p with
  | .ok change => { changes := [change] }
  | .error refusal => { changes := [], refusal := if d.isDirectory p then none else some refusal }

/-- The changes that make a directory and all above it that are missing, given a path and the
paths above it. -/
def makingAll (d : Disk) : List Path → Making
  | [] => { changes := [] }
  | p :: above =>
    if p.text.isEmpty then { changes := [] }
    else
      match d.makingDirectory p with
      -- What is above is missing, so it is made first.
      | .error .notFound =>
        let outer := d.makingAll above
        if outer.refusal.isSome then outer
        else
          let inner := (d.applyAll outer.changes).makingUnlessThere p
          { changes := outer.changes ++ inner.changes, refusal := inner.refusal }
      | _ => d.makingUnlessThere p

/-- The place of a file to be written, which need not be there yet. -/
def filePlace (d : Disk) (p : Path) : Except OsError Location :=
  match d.resolve p true with
  | .ok ⟨place, none⟩ => .ok place
  | .ok ⟨place, some (.file ..)⟩ => .ok place
  | .ok ⟨_, some _⟩ => .error .isADirectory
  | .error refusal => .error refusal

/-- The change that writes a file. -/
def writing (d : Disk) (p : Path) (content : Bytes) : Except OsError Change :=
  (d.filePlace p).map fun place => .writeFile place content

/-- The change that copies a file. -/
def copying (d : Disk) (source target : Path) : Except OsError Change :=
  match d.entry source with
  | .error refusal => .error refusal
  | .ok (_, .file content executable _) =>
    (d.filePlace target).map fun place => .copyFile place content executable
  | .ok _ => .error .noRegularSource

/-- The change that removes a file or a link. -/
def removingFile (d : Disk) (p : Path) : Except OsError Change :=
  match d.resolve p false with
  | .ok ⟨_, some (.directory _)⟩ => .error .isADirectory
  | .ok ⟨place, some _⟩ => .ok (.delete place)
  | .ok ⟨_, none⟩ => .error .notFound
  | .error refusal => .error refusal

/-- The changes that remove all below a place and then the place, each entry after what is in it. -/
def deletions (d : Disk) (place : Location) : List Change :=
  let names := (d.below place).map Prod.fst
  -- In the reverse order of names an entry comes after all that is below it.
  let sorted := inOrder (fun a b => (orderNames b a).isLE) names
  sorted.map (fun below => .delete (place ++ below)) ++ [.delete place]

/-- The changes that remove a directory with all in it, or a link alone. -/
def removingTree (d : Disk) (p : Path) : Except OsError (List Change) :=
  match d.resolve p false with
  | .ok ⟨place, some (.directory _)⟩ => .ok (d.deletions place)
  | .ok ⟨place, some (.link _)⟩ => .ok [.delete place]
  | .ok ⟨_, some (.file ..)⟩ => .error .notADirectory
  | .ok ⟨_, none⟩ => .error .notFound
  | .error refusal => .error refusal

end Disk

end DialectBench
