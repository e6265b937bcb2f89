import DialectBench.Suite.Place
import DialectBench.Suite.Report

/-! Failing tests of a run, in the order in which they are listed. -/

namespace DialectBench

/-- A test case that failed. -/
structure FailingTest where
  /-- The module of the test. -/
  module : String
  /-- The class of the test. -/
  classname : String
  /-- The name of the test case in the report. -/
  rawName : String
  /-- Why it failed. -/
  message : String
  /-- The report. -/
  resultFile : Path
  deriving DecidableEq, Repr

namespace FailingTest

/-- The build task that runs the tests of a module. -/
def taskOf (name : String) : String :=
  ":" ++ name ++ ":test"

/-- The build task that runs the test. -/
def task (test : FailingTest) : String :=
  taskOf test.module

/-- The plain name of the method: a name with parameters loses them, and a name with a space or of
nothing is no method. -/
def method? (test : FailingTest) : Option String :=
  let front := (test.rawName.toList.takeWhile (· != '(')).takeWhile (· != '[')
  let name := Text.trim front
  if name.isEmpty || name.contains ' ' then none else some (String.ofList name)

/-- The test as it is listed. -/
def title (test : FailingTest) : String :=
  test.classname ++ "#" ++ (if test.rawName.isEmpty then "<class>" else test.rawName)

/-- The number of characters of a message that are listed. -/
def excerptLength : Nat := 200

/-- A message on one line, cut where it is too long. -/
def excerpt (message : String) : String :=
  let flat := message.toList.map fun c => if c = '\n' then ' ' else c
  if flat.length ≤ excerptLength then String.ofList flat
  else String.ofList (flat.take (excerptLength - 3)) ++ "..."

/-- The two lines of a test at a position. -/
def entryLines (position : Nat) (test : FailingTest) : List String :=
  ["[" ++ toString position ++ "] " ++ test.title ++ " (module=" ++ test.module ++ ", file="
      ++ test.resultFile.fileName?.getD "" ++ ")",
    "      " ++ excerpt test.message]

/-- The lines of tests from a position on. -/
def listingFrom (position : Nat) : List FailingTest → List String
  | [] => []
  | test :: tests => entryLines position test ++ listingFrom (position + 1) tests

/-- The lines of tests, counted from one. -/
def listing (tests : List FailingTest) : List String :=
  listingFrom 1 tests

/-- The failing test of a test case, if it failed. -/
def ofCase? (name : String) (file : Path) (record : TestCase) : Option FailingTest :=
  record.failure.map fun message =>
    { module := name, classname := record.classname, rawName := record.name, message,
      resultFile := file }

/-- The failing tests that the report at the end of a way tells. -/
def atWay (d : Disk) (root : Path) (way : List String) : List FailingTest :=
  match SuiteReport.read? d (root.extend way) with
  | none => []
  | some report => report.cases.filterMap (ofCase? (Suite.moduleOf way) (root.extend way))

/-- The failing tests of all reports below a root, in the order of names. -/
def below (d : Disk) (root : Path) : List FailingTest :=
  (Suite.reportWays d root).flatMap (atWay d root)

end FailingTest

end DialectBench
