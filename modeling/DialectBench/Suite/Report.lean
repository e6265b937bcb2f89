import DialectBench.Disk.Resolve
import DialectBench.Suite.Totals
import DialectBench.Text.Blank
import DialectBench.Xml.Document

/-! Reports of test suites: the counts and the test cases that an XML document tells. -/

namespace DialectBench

/-- A test case of a report. -/
structure TestCase where
  /-- The class of the test. -/
  classname : String
  /-- The name of the test. -/
  name : String
  /-- Why the test failed, if it did. -/
  failure : Option String
  deriving DecidableEq, Repr

/-- A report of a test suite. -/
structure SuiteReport where
  /-- The counts, with one file. -/
  totals : Totals
  /-- The test cases in the order of the report. -/
  cases : List TestCase
  deriving Repr

namespace SuiteReport

open Xml

/-- A count given by an attribute; what is no count is zero. -/
def countOf (base : String) (attributes : List Attribute) : Nat :=
  match valueOf? base attributes with
  | some value =>
    (Number.wholeBelow? Number.wordSize (Text.trim value.toList)).getD 0
  | none => 0

/-- A time given by an attribute; what is no finite number is zero. -/
def timeOf (attributes : List Attribute) : Float :=
  match (valueOf? "time" attributes).bind fun value => Number.double? (Text.trim value.toList) with
  | some time => if time.isFinite then time else 0
  | none => 0

/-- A value that is there and not empty. -/
def nonEmpty (value : Option String) : Option String :=
  value.filter fun text => !text.isEmpty

/-- Why a test failed: the message of the failure, or else its text. -/
def failureOf (attributes : List Attribute) (children : List Xml.Node) : String :=
  let message := nonEmpty (valueOf? "message" attributes)
  Text.trimmed ((message.or (leadingText? children)).getD "")

/-- The first failure among the children of a test case. -/
def failureAmong : List Xml.Node → Option String
  | [] => none
  | .element name attributes children :: rest =>
    if name.base = "failure".toList then some (failureOf attributes children)
    else failureAmong rest
  | _ :: rest => failureAmong rest

/-- A test case from its attributes and children. -/
def caseOf (attributes : List Attribute) (children : List Xml.Node) : TestCase where
  classname := (nonEmpty (valueOf? "classname" attributes)).getD "unknown"
  name := (valueOf? "name" attributes).getD ""
  failure := failureAmong children

/-- The test cases among the children of a suite. -/
def casesAmong : List Xml.Node → List TestCase
  | [] => []
  | .element name attributes children :: rest =>
    if name.base = "testcase".toList then caseOf attributes children :: casesAmong rest
    else casesAmong rest
  | _ :: rest => casesAmong rest

/-- The counts that the attributes of a suite give. -/
def totalsOf (attributes : List Attribute) : Totals where
  files := 1
  tests := countOf "tests" attributes
  failures := countOf "failures" attributes
  errors := countOf "errors" attributes
  skipped := countOf "skipped" attributes
  time := timeOf attributes

/-- The report that a document holds, if its root is a test suite. -/
def ofText? (text : String) : Option SuiteReport :=
  match root? text.toList with
  | some (.element name attributes children) =>
    if name.base = "testsuite".toList then some ⟨totalsOf attributes, casesAmong children⟩
    else none
  | _ => none

/-- The report that a file holds; a file that cannot be read or is no report holds none. -/
def read? (d : Disk) (path : Path) : Option SuiteReport :=
  (d.readText? path).bind ofText?

end SuiteReport

end DialectBench
