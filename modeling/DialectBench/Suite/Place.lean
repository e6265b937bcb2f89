import DialectBench.Disk.Walk
import DialectBench.Text.Line

/-! Where result files lie in a workspace, and the modules that they belong to. -/

namespace DialectBench.Suite

/-- The directory of the build output of a module. -/
def outputName : String := "target"

/-- The directory of the test results in the build output. -/
def resultsName : String := "test-results"

/-- The directory of the reports in the build output. -/
def reportsName : String := "reports"

/-- What stands before the first build output, or the first name, or nothing known. -/
def moduleOf (segments : List String) : String :=
  match segments.idxOf? outputName with
  | some (index + 1) => (segments[index]?).getD "unknown"
  | _ => segments.head?.getD "unknown"

/-- The module that owns a file below a root. -/
def moduleName (path root : Path) : String :=
  moduleOf ((path.relativeTo? root).getD path).segments

/-- The place of the first build output with test results directly in it. -/
def markerIndex? : List String → Option Nat
  | a :: b :: rest =>
    if a = outputName && b = resultsName then some 0
    else (markerIndex? (b :: rest)).map (· + 1)
  | _ => none

/-- A file name ends in the extension of XML in any case. -/
def isXmlName (name : String) : Bool :=
  match Path.extensionOf? name with
  | some suffix => suffix.toList.map Char.toLower = "xml".toList
  | none => false

/-- The way to a file leads to an XML file. -/
def isXmlWay (way : List String) : Bool :=
  match way.getLast? with
  | some name => isXmlName name
  | none => false

/-- The way to a file leads to an XML file below a directory of test results. -/
def isResultWay (way : List String) : Bool :=
  isXmlWay way && way.dropLast.contains resultsName

/-- The way to a file leads to the report of a test suite. -/
def isReportWay (way : List String) : Bool :=
  isXmlWay way && (way.getLast?.map fun name => Text.startsWith name "TEST-").getD false

/-- The ways to the result files below a root, in the order of names. -/
def resultWays (d : Disk) (root : Path) : List (List String) :=
  (d.fileWays root).filter isResultWay

/-- The ways to the suite reports below a root, in the order of names. -/
def reportWays (d : Disk) (root : Path) : List (List String) :=
  (d.fileWays root).filter isReportWay

/-- The module whose test results a file belongs to, by the way to its directory. -/
def owner? (way : List String) : Option (List String) :=
  if isXmlWay way then
    match markerIndex? way with
    | some (index + 1) => some (way.take (index + 1))
    | _ => none
  else none

/-- The modules below a root that have test results, in the order of names. -/
def modules (d : Disk) (root : Path) : List (List String) :=
  inOrder (fun a b => (orderNames a b).isLE) ((d.fileWays root).filterMap owner?).eraseDups

/-- The path that a list of names makes. -/
def pathOf (names : List String) : Path :=
  ⟨"/".intercalate names⟩

end DialectBench.Suite
