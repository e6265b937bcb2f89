import DialectBench.Disk.Basic

/-! Where a path leads: links are followed, and every step but the last must be a directory. -/

namespace DialectBench

/-- Why the system refuses to work with a path. -/
inductive OsError where
  /-- A place on the way, or the last one, holds nothing. -/
  | notFound
  /-- A place on the way, or the last one, is no directory. -/
  | notADirectory
  /-- The place is a directory. -/
  | isADirectory
  /-- The place is taken. -/
  | alreadyExists
  /-- Links lead to links without end. -/
  | tooManyLinks
  /-- The file may not be executed. -/
  | permissionDenied
  /-- The file is no program. -/
  | notAProgram
  /-- The source of a copy is no regular file. -/
  | noRegularSource
  /-- The file holds no text. -/
  | notText
  deriving DecidableEq, Repr

/-- The words of the system for a refusal. -/
def OsError.message : OsError → String
  | notFound => "No such file or directory (os error 2)"
  | notADirectory => "Not a directory (os error 20)"
  | isADirectory => "Is a directory (os error 21)"
  | alreadyExists => "File exists (os error 17)"
  | tooManyLinks => "Too many levels of symbolic links (os error 40)"
  | permissionDenied => "Permission denied (os error 13)"
  | notAProgram => "Exec format error (os error 8)"
  | noRegularSource => "the source path is neither a regular file nor a symlink to a regular file"
  | notText => "stream did not contain valid UTF-8"

/-- A step on the way that a path leads. -/
inductive Step where
  /-- Staying in a directory. -/
  | here
  /-- To the directory above. -/
  | up
  /-- To an entry. -/
  | down (name : String)
  deriving DecidableEq, Repr

/-- The step of a piece between slashes. -/
def Step.ofPiece (piece : List Char) : Step :=
  if piece = [] || piece = ['.'] then .here
  else if piece = ['.', '.'] then .up
  else .down (String.ofList piece)

/-- The steps of a path from where it starts; a slash at its end asks for a directory. -/
def Path.steps (p : Path) : List Step :=
  (p.text.toList.splitOn '/').map Step.ofPiece

/-- Where a path leads: a place and the entry there, if there is one. -/
structure Spot where
  /-- The place. -/
  location : Location
  /-- The entry. -/
  node : Option Node
  deriving DecidableEq, Repr

namespace Disk

/-- The number of links that may be followed on one way. -/
def linkLimit : Nat := 40

/-- Follows steps from a place; from a link that is followed it goes on as it is told to. -/
def followWith (d : Disk) (last : Bool) (onward : Location → List Step → Except OsError Spot)
    (place : Location) : List Step → Except OsError Spot
  | [] => .ok ⟨place, d.find? place⟩
  | step :: rest =>
    match d.find? place with
    -- Every step, also one to the place itself, starts in a directory.
    | some (.directory _) =>
      match step with
      | .here => d.followWith last onward place rest
      | .up => d.followWith last onward place.dropLast rest
      | .down name =>
        let next := place ++ [name]
        match d.find? next with
        | some (.link target) =>
          -- A link at the end may be what is asked for; any other one is followed.
          if rest = [] && !last then .ok ⟨next, some (.link target)⟩
          else onward (if target.isAbsolute then [] else place) (target.steps ++ rest)
        | none => if rest = [] then .ok ⟨next, none⟩ else .error .notFound
        | some _ => d.followWith last onward next rest
    | some _ => .error .notADirectory
    | none => .error .notFound

/-- Follows steps from a place; a link in the last step is followed only when told so. -/
def follow (d : Disk) (last : Bool) : Nat → Location → List Step → Except OsError Spot
  | 0 => d.followWith last fun _ _ => .error .tooManyLinks
  | budget + 1 => d.followWith last (d.follow last budget)

/-- Without a step the place itself is what is asked for. -/
theorem follow_nil (d : Disk) (last : Bool) (budget : Nat) (place : Location) :
    d.follow last budget place [] = .ok ⟨place, d.find? place⟩ := by
  cases budget <;> rfl

/-- A step is taken from a directory, and a link costs one of those that may be followed. -/
theorem follow_cons (d : Disk) (last : Bool) (budget : Nat) (place : Location) (step : Step)
    (rest : List Step) :
    d.follow last budget place (step :: rest) =
      match d.find? place with
      | some (.directory _) =>
        match step with
        | .here => d.follow last budget place rest
        | .up => d.follow last budget place.dropLast rest
        | .down name =>
          match d.find? (place ++ [name]) with
          | some (.link target) =>
            if rest = [] && !last then .ok ⟨place ++ [name], some (.link target)⟩
            else
              match budget with
              | 0 => .error .tooManyLinks
              | budget + 1 =>
                d.follow last budget (if target.isAbsolute then [] else place)
                  (target.steps ++ rest)
          | none => if rest = [] then .ok ⟨place ++ [name], none⟩ else .error .notFound
          | some _ => d.follow last budget (place ++ [name]) rest
      | some _ => .error .notADirectory
      | none => .error .notFound := by
  cases budget <;> rfl

-- Outside the kernel a way is followed by these two rules alone.
attribute [irreducible] follow

/-- Where a path leads; a link at its end is followed only when told so. -/
def resolve (d : Disk) (p : Path) (last : Bool) : Except OsError Spot :=
  if p.text.isEmpty then .error .notFound
  else d.follow last linkLimit (if p.isAbsolute then [] else d.current) p.steps

/-- The place and the entry that a path leads to, links followed. -/
def entry (d : Disk) (p : Path) : Except OsError (Location × Node) :=
  match d.resolve p true with
  | .ok ⟨place, some node⟩ => .ok (place, node)
  | .ok ⟨_, none⟩ => .error .notFound
  | .error refusal => .error refusal

/-- A path leads to an entry. -/
def exists? (d : Disk) (p : Path) : Bool :=
  (d.entry p).isOk

/-- A path leads to a regular file. -/
def isFile (d : Disk) (p : Path) : Bool :=
  match d.entry p with
  | .ok (_, node) => node.isFile
  | .error _ => false

/-- A path leads to a directory. -/
def isDirectory (d : Disk) (p : Path) : Bool :=
  match d.entry p with
  | .ok (_, node) => node.isDirectory
  | .error _ => false

/-- The place of the directory that a path leads to. -/
def directory? (d : Disk) (p : Path) : Option Location :=
  match d.entry p with
  | .ok (place, .directory _) => some place
  | _ => none

/-- When what a path leads to was changed; nothing counts as changed at time zero. -/
def modified (d : Disk) (p : Path) : Int :=
  match d.entry p with
  | .ok (_, .file _ _ modified) => modified
  | .ok (_, .directory modified) => modified
  | _ => 0

/-- The content of the file that a path leads to. -/
def read (d : Disk) (p : Path) : Except OsError Bytes :=
  match d.entry p with
  | .ok (_, .file content _ _) => .ok content
  | .ok _ => .error .isADirectory
  | .error refusal => .error refusal

/-- The text of the file that a path leads to. -/
def readText (d : Disk) (p : Path) : Except OsError String :=
  match d.read p with
  | .ok content =>
    match Text.text? content with
    | some text => .ok text
    | none => .error .notText
  | .error refusal => .error refusal

/-- The text of the file that a path leads to, if there is one. -/
def readText? (d : Disk) (p : Path) : Option String :=
  (d.readText p).toOption

end Disk

end DialectBench
