import DialectBench.Path
import DialectBench.Text.Utf8

/-! A file tree: entries by their place, in the order in which the system lists them. -/

namespace DialectBench

/-- The place of an entry: the names on the way from the root. -/
abbrev Location := List String

/-- An entry of a file tree. -/
inductive Node where
  /-- A regular file with its content, whether it may be executed, and when it was changed. -/
  | file (content : Bytes) (executable : Bool) (modified : Int)
  /-- A directory and when its list of entries was changed. -/
  | directory (modified : Int)
  /-- A symbolic link. -/
  | link (target : Path)
  deriving DecidableEq, Repr

namespace Node

/-- The entry is a regular file. -/
def isFile : Node → Bool
  | file .. => true
  | _ => false

/-- The entry is a directory. -/
def isDirectory : Node → Bool
  | directory _ => true
  | _ => false

end Node

/-- A file tree as a process sees it; times are counted in nanoseconds. -/
structure Disk where
  /-- The entries below the root in the order in which the system lists them. -/
  entries : List (Location × Node)
  /-- The current directory. -/
  current : Location
  /-- The present time. -/
  clock : Int
  deriving DecidableEq, Repr

/-- What stands after a place on the way to another one below it. -/
def Location.below? : Location → Location → Option Location
  | [], [] => none
  | [], name :: names => some (name :: names)
  | _ :: _, [] => none
  | a :: base, b :: names => if a = b then Location.below? base names else none

namespace Disk

/-- The entry at a place; the root is always a directory. -/
def find? (d : Disk) (place : Location) : Option Node :=
  match place with
  | [] => some (.directory 0)
  | _ => d.entries.lookup place

/-- The entries below a place by the names on the way to them. -/
def below (d : Disk) (place : Location) : List (Location × Node) :=
  d.entries.filterMap fun (other, node) => (place.below? other).map fun names => (names, node)

/-- The entries of a directory by name. -/
def children (d : Disk) (place : Location) : List (String × Node) :=
  (d.below place).filterMap fun (names, node) =>
    match names with
    | [name] => some (name, node)
    | _ => none

end Disk

end DialectBench
