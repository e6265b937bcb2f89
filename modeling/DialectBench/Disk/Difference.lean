import DialectBench.Disk.Change

/-! What turns one file tree into another. -/

namespace DialectBench

/-- Two entries are of one kind. -/
def Node.sameKind : Node → Node → Bool
  | .file .., .file .. => true
  | .directory _, .directory _ => true
  | .link _, .link _ => true
  | _, _ => false

namespace Disk

/-- Entries with those at the top first. -/
def topDown (entries : List (Location × Node)) : List (Location × Node) :=
  entries.mergeSort fun a b => a.1.length ≤ b.1.length

/-- What must be deleted of a tree on the way to another one, each entry after what is in it. -/
def removals (before after : Disk) : List Change :=
  -- An entry of another kind must go before the new one can come.
  (topDown before.entries).reverse.filterMap fun (place, node) =>
    match after.find? place with
    | some other => if node.sameKind other then none else some (.delete place)
    | none => some (.delete place)

/-- The change that gives a place its entry, if the place has another one before. Links are left
as they are. -/
def addition? (before : Disk) (place : Location) (node : Node) : Option Change :=
  match node, before.find? place with
  | .directory _, some (.directory _) => none
  | .directory _, _ => some (.makeDirectory place)
  | .file content executable _, some (.file other wasExecutable _) =>
    if content = other && executable = wasExecutable then none
    else some (.copyFile place content executable)
  | .file content executable _, _ => some (.copyFile place content executable)
  | .link _, _ => none

/-- What must be added to a tree on the way to another one, each entry before what is in it. -/
def additions (before after : Disk) : List Change :=
  (topDown after.entries).filterMap fun (place, node) => addition? before place node

/-- The changes that turn one tree into another one; links are not made. -/
def differences (before after : Disk) : List Change :=
  removals before after ++ additions before after

end Disk

end DialectBench
