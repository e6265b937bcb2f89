import DialectBench.Failing.Test

/-! The selection of a failing test, by its position or by its name. -/

namespace DialectBench

/-- What is asked for. -/
inductive Selection where
  /-- The position in the listing, counted from one. -/
  | index (position : Nat)
  /-- A class, perhaps with a method, and perhaps its module. -/
  | identifier (text : String) (module : Option String)
  deriving DecidableEq, Repr

/-- What is to be used instead of what a test says. -/
structure Overrides where
  /-- The method. -/
  method : Option String := none
  /-- The build task. -/
  task : Option String := none
  deriving DecidableEq, Repr

/-- How a test was found. -/
inductive Provenance where
  /-- By its position in the listing. -/
  | selected (position : Nat) (resultFile : Path)
  /-- By its name. -/
  | manual (identifier : String)
  deriving DecidableEq, Repr

/-- A test to be run again. -/
structure RerunTarget where
  /-- The module. -/
  module : String
  /-- The build task. -/
  task : String
  /-- The class. -/
  classname : String
  /-- The method, if not the whole class is to be run. -/
  method : Option String
  /-- How the test was found. -/
  provenance : Provenance
  deriving DecidableEq, Repr

/-- The pattern that the build matches tests with. -/
def RerunTarget.pattern (target : RerunTarget) : String :=
  match target.method with
  | some method => target.classname ++ "." ++ method
  | none => target.classname

namespace Selection

/-- The class and the method of an identifier, a number sign between them. -/
def parseIdentifier (identifier : String) : Except Failure (String × Option String) :=
  let (front, back) := match Text.splitOnce '#' identifier with
    | some (front, back) => (front, some back)
    | none => (identifier, none)
  let classname := Text.trimmed front
  let method := (back.map Text.trimmed).filter fun name => !name.isEmpty
  if classname.isEmpty then .error (.of (.invalidIdentifier identifier))
  else .ok (classname, method)

/-- The module of the first failing test of a class. -/
def moduleOf? (tests : List FailingTest) (classname : String) : Option String :=
  (tests.find? fun test => test.classname = classname).map FailingTest.module

/-- The target of a test that was found by its position. -/
def targetAt (position : Nat) (test : FailingTest) (overrides : Overrides) : RerunTarget where
  module := test.module
  task := overrides.task.getD test.task
  classname := test.classname
  method := overrides.method.or test.method?
  provenance := .selected position test.resultFile

/-- The test at a position. -/
def resolveIndex (tests : List FailingTest) (position : Nat) (overrides : Overrides) :
    Except Failure RerunTarget :=
  if tests.isEmpty then .error (.of .nothingToSelect)
  else
    match position with
    | 0 => .error (.of (.selectionOutOfRange tests.length position))
    | before + 1 =>
      match tests[before]? with
      | some test => .ok (targetAt position test overrides)
      | none => .error (.of (.selectionOutOfRange tests.length position))

/-- The test of a name. -/
def resolveIdentifier (tests : List FailingTest) (identifier : String) (given : Option String)
    (overrides : Overrides) : Except Failure RerunTarget :=
  match parseIdentifier identifier with
  | .error failure => .error failure
  | .ok (classname, method) =>
    -- A module that is given is not checked against the failing tests.
    match given.or (moduleOf? tests classname) with
    | none => .error (.of (.unknownModule classname))
    | some name =>
      .ok { module := name, task := overrides.task.getD (FailingTest.taskOf name), classname,
            method := overrides.method.or method, provenance := .manual identifier }

/-- The test that is asked for. -/
def resolve (tests : List FailingTest) (overrides : Overrides) :
    Selection → Except Failure RerunTarget
  | .index position => resolveIndex tests position overrides
  | .identifier text given => resolveIdentifier tests text given overrides

end Selection

namespace RerunTarget

/-- The build command that runs a test again, if the workspace has its wrapper. -/
def gradleWords (d : Disk) (workspace : Path) (target : RerunTarget) (profile : String)
    (extra : List String) : Except Failure (List String) :=
  let wrapper := workspace / "gradlew"
  if d.exists? wrapper then
    .ok ([wrapper.text, target.task, "-Pdb=" ++ profile, "--stacktrace", "--tests", target.pattern]
      ++ extra)
  else .error (.of (.missingWrapper wrapper))

end RerunTarget

/-- The newest directory whose name begins with the name of a kind of results. -/
def latestRunRoot (d : Disk) (directory : Path) (kind : String) : Except Failure Path :=
  if d.isDirectory directory then
    let start := kind ++ "-"
    let matching := (d.listing directory).filter fun path =>
      d.isDirectory path && (path.fileName?.map fun name => Text.startsWith name start).getD false
    match d.newest? matching with
    | some path => .ok path
    | none => .error (.of (.noRunRoots start directory))
  else .error (.of (.resultsNotFound directory))

end DialectBench
