import DialectBench.Disk.Change
import Mathlib.Data.List.Infix

/-! Ways down a file tree: a path that leads through directories to an entry, without links. -/

namespace DialectBench

/-- The paths above a path come behind the path itself. -/
theorem Path.ancestors_eq_cons (path : Path) : ∃ above, path.ancestors = path :: above := by
  unfold ancestors
  split <;> exact ⟨_, rfl⟩

namespace Disk

/-- A step down from a directory to an entry that is no link goes on from there. -/
theorem follow_down {d : Disk} {last : Bool} {budget : Nat} {place : Location} {name : String}
    {rest : List Step} {modified : Int} {node : Node}
    (here : d.find? place = some (.directory modified))
    (there : d.find? (place ++ [name]) = some node) (solid : ∀ target, node ≠ .link target) :
    d.follow last budget place (.down name :: rest) =
      d.follow last budget (place ++ [name]) rest := by
  rw [follow_cons, here]
  dsimp only
  rw [there]
  cases node with
  | file | directory => rfl
  | link target => exact absurd rfl (solid target)

/-- A directory stands at a place. -/
def isDirectoryAt (d : Disk) (place : Location) : Bool :=
  (d.find? place).any Node.isDirectory

/-- Where a directory stands one is found. -/
theorem find?_of_isDirectoryAt {d : Disk} {place : Location} (there : d.isDirectoryAt place = true) :
    ∃ modified, d.find? place = some (.directory modified) := by
  unfold isDirectoryAt at there
  cases found : d.find? place with
  | none => simp [found] at there
  | some node =>
    cases node with
    | directory modified => exact ⟨modified, rfl⟩
    | file | link => simp [found, Node.isDirectory] at there

/-- Steps down through directories lead to the entry at their end. -/
theorem follow_way {d : Disk} {last : Bool} {budget : Nat} {place : Location}
    {names : List String} {node : Node}
    (through : ∀ outer ∈ names.inits, outer ≠ names → d.isDirectoryAt (place ++ outer) = true)
    (there : d.find? (place ++ names) = some node) (solid : ∀ target, node ≠ .link target) :
    d.follow last budget place (names.map .down) = .ok ⟨place ++ names, some node⟩ := by
  -- The steps are taken one by one, and each of them moves the place from which the others start.
  induction names generalizing place with
  | nil =>
    rw [List.append_nil] at there
    rw [List.map_nil, follow_nil, there, List.append_nil]
  | cons name names ih =>
    obtain ⟨modified, here⟩ : ∃ modified, d.find? place = some (.directory modified) := by
      simpa using find?_of_isDirectoryAt (through [] (by simp) (by simp))
    have onward : ∀ outer ∈ names.inits, outer ≠ names →
        d.isDirectoryAt (place ++ [name] ++ outer) = true := by
      intro outer member inner
      simpa using through (name :: outer) (by simpa using member) (by simpa using inner)
    have goal : d.find? (place ++ [name] ++ names) = some node := by simpa using there
    -- The next entry is the goal, or a directory on the way to it.
    obtain ⟨next, found, firm⟩ : ∃ next, d.find? (place ++ [name]) = some next ∧
        ∀ target, next ≠ .link target := by
      cases names with
      | nil => exact ⟨node, there, solid⟩
      | cons second names =>
        obtain ⟨modified, found⟩ := find?_of_isDirectoryAt (onward [] (by simp) (by simp))
        exact ⟨_, by simpa using found, by simp⟩
    rw [List.map_cons, follow_down here found firm, ih onward goal, List.append_assoc]
    rfl

/-- A path in the current directory is a way down to an entry that is no link. -/
structure Reaches (d : Disk) (path : Path) (names : List String) (node : Node) : Prop where
  /-- The path has a text. -/
  named : path.text.isEmpty = false
  /-- It starts in the current directory. -/
  relative : path.isAbsolute = false
  /-- Its steps lead down. -/
  steps : path.steps = names.map .down
  /-- They lead through directories. -/
  through : ∀ outer ∈ names.inits, outer ≠ names → d.isDirectoryAt (d.current ++ outer) = true
  /-- The entry is at their end. -/
  there : d.find? (d.current ++ names) = some node
  /-- The entry is no link. -/
  solid : ∀ target, node ≠ .link target

namespace Reaches

variable {d : Disk} {path : Path} {names : List String} {node : Node}

/-- An entry of the current directory is reached by its name. -/
theorem of_name {name : String} (named : path.text.isEmpty = false) (relative : path.isAbsolute = false)
    (steps : path.steps = [.down name]) (stands : d.isDirectoryAt d.current = true)
    (there : d.find? (d.current ++ [name]) = some node) (solid : ∀ target, node ≠ .link target) :
    d.Reaches path [name] node where
  named := named
  relative := relative
  steps := steps
  through := by
    intro outer inner other
    rcases List.prefix_cons_iff.mp ((List.mem_inits _ _).mp inner) with rfl | ⟨rest, rfl, within⟩
    · rwa [List.append_nil]
    · exact absurd (by rw [List.prefix_nil.mp within]) other
  there := there
  solid := solid

/-- The entry is found, whether or not a link at the end would be followed. -/
theorem resolve_eq (reaches : d.Reaches path names node) (last : Bool) :
    d.resolve path last = .ok ⟨d.current ++ names, some node⟩ := by
  unfold resolve
  rw [reaches.named, reaches.relative, reaches.steps]
  exact follow_way reaches.through reaches.there reaches.solid

/-- The entry is what the path leads to. -/
theorem entry_eq (reaches : d.Reaches path names node) :
    d.entry path = .ok (d.current ++ names, node) := by
  rw [entry, reaches.resolve_eq]

/-- The bytes of a file are read. -/
theorem read_eq {content : Bytes} {executable : Bool} {modified : Int}
    (reaches : d.Reaches path names (.file content executable modified)) : d.read path = .ok content := by
  rw [read, reaches.entry_eq]

/-- A file that is text is read. -/
theorem readText_eq {content : Bytes} {executable : Bool} {modified : Int} {text : String}
    (reaches : d.Reaches path names (.file content executable modified))
    (decoded : Text.text? content = some text) : d.readText path = .ok text := by
  rw [readText, reaches.read_eq]
  dsimp only
  rw [decoded]

/-- A directory that is there need not be made. -/
theorem makingAll_eq {modified : Int} (reaches : d.Reaches path names (.directory modified))
    (bare : withoutSlashes path = path) : d.makingAll path.ancestors = { changes := [] } := by
  have taken : d.makingDirectory path = .error .alreadyExists := by
    rw [makingDirectory, bare, reaches.resolve_eq]
  have stands : d.isDirectory path = true := by
    rw [isDirectory, reaches.entry_eq]
    rfl
  obtain ⟨above, same⟩ := path.ancestors_eq_cons
  rw [same, makingAll, reaches.named, taken]
  simp [makingUnlessThere, taken, stands]

end Reaches

end Disk

end DialectBench
