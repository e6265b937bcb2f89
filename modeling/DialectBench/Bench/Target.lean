import DialectBench.Dialect.Settings
import DialectBench.Lab

/-! The targets of a comparison: a database with a dialect, and how its tests are run. -/

namespace DialectBench

/-- The choice of TiDB dialects. -/
inductive DialectChoice where
  /-- The dialect of the community module. -/
  | tidbCommunity
  /-- The MySQL dialect. -/
  | mysql
  /-- The dialect of the core module. -/
  | tidbCore
  /-- The dialect of the community module, then the MySQL dialect. -/
  | both
  deriving DecidableEq, Repr

namespace DialectChoice

/-- The choices with their names. -/
def names : List (String × DialectChoice) :=
  [("tidb-community", tidbCommunity), ("mysql", mysql), ("tidb-core", tidbCore), ("both", both)]

/-- The name of a choice. -/
def name : DialectChoice → String
  | tidbCommunity => "tidb-community"
  | mysql => "mysql"
  | tidbCore => "tidb-core"
  | both => "both"

end DialectChoice

/-- A database with a dialect whose tests are run. -/
structure Target where
  /-- The name in files and reports. -/
  identifier : String
  /-- The database. -/
  backend : Backend
  /-- The name for the operator. -/
  label : String
  /-- The name in summaries. -/
  summaryLabel : String
  /-- The preset that the workspace is patched with. -/
  preset : Option String
  /-- The dialect that the build is told. -/
  dialectOverride : Option String
  /-- The container of the database. -/
  container : String
  deriving DecidableEq, Repr

namespace Target

/-- MySQL, which everything is compared with. -/
def baseline (lab : Lab) : Target where
  identifier := "mysql"
  backend := .mysql
  label := "MySQL 8.0 Baseline"
  summaryLabel := "MySQL 8.0"
  preset := none
  dialectOverride := none
  container := lab.mysqlContainer

/-- TiDB with the dialect of the community module. -/
def community (lab : Lab) : Target where
  identifier := "tidb-tidbdialect"
  backend := .tidb
  label := "TiDB v8.5.3 (TiDBDialect)"
  summaryLabel := "TiDB with TiDBDialect"
  preset := some "tidb-community"
  dialectOverride := none
  container := lab.tidbContainer

/-- TiDB with the MySQL dialect. -/
def mysqlDialect (lab : Lab) : Target where
  identifier := "tidb-mysqldialect"
  backend := .tidb
  label := "TiDB v8.5.3 (MySQLDialect)"
  summaryLabel := "TiDB with MySQLDialect"
  preset := some "mysql"
  dialectOverride := some "org.hibernate.dialect.MySQLDialect"
  container := lab.tidbContainer

/-- TiDB with the dialect of the core module. -/
def core (lab : Lab) : Target where
  identifier := "tidb-coredialect"
  backend := .tidb
  label := "TiDB v8.5.3 (TiDBDialect-core)"
  summaryLabel := "TiDB with core TiDBDialect"
  preset := some "tidb-core"
  dialectOverride := none
  container := lab.tidbContainer

/-- The TiDB targets of a choice in the order in which they run. -/
def variants (lab : Lab) : DialectChoice → List Target
  | .tidbCommunity => [community lab]
  | .mysql => [mysqlDialect lab]
  | .tidbCore => [core lab]
  | .both => [community lab, mysqlDialect lab]

/-- The part of a name after its last point. -/
def lastPart (name : String) : String :=
  String.ofList (name.toList.reverse.takeWhile (· != '.')).reverse

/-- The container in which the tests run. -/
def testContainer (target : Target) : String :=
  let base := "hibernate-" ++ target.backend.name ++ "-ci-runner"
  match target.dialectOverride with
  | some dialect => base ++ "-" ++ String.ofList ((lastPart dialect).toList.map Char.toLower)
  | none => base

/-- The command that builds and tests inside the container. -/
def buildLine (target : Target) (goOn : Bool) (extra : Option String) : String :=
  " ".intercalate (
    ["RDBMS=" ++ target.backend.rdbms, "./ci/build.sh"]
      ++ (target.dialectOverride.toList.map fun dialect => "-Pdb.dialect=" ++ dialect)
      ++ (if goOn then ["--continue"] else [])
      ++ extra.toList)

/-- The arguments of the container tool for the tests. -/
def testArguments (target : Target) (lab : Lab) (build : String) : List String :=
  ["run", "--rm", "--name", target.testContainer, "--memory=16g", "--cpus=6", "--network",
    "container:" ++ target.container, "-e", "RDBMS=" ++ target.backend.rdbms, "-e",
    "GRADLE_OPTS=-Xmx6g -XX:MaxMetaspaceSize=1g", "-v", lab.workspace.text ++ ":/workspace", "-v",
    lab.temp.text ++ ":/workspace/tmp", "-w", "/workspace", lab.runnerImage, "bash", "-lc", build]

/-- The log of the tests. -/
def logPath (target : Target) (logs : Path) (stamp : String) : Path :=
  logs / (target.backend.name ++ "-ci-run-" ++ stamp ++ ".log")

/-- The start of the name of the target's collections. -/
def collectionStart (target : Target) (runs : Path) : Path :=
  runs / (target.identifier ++ "-results")

/-- The start of the name of the target's summaries. -/
def summaryStart (target : Target) (runs : Path) : Path :=
  runs / (target.identifier ++ "-summary")

end Target

end DialectBench
