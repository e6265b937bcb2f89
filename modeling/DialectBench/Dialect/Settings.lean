import DialectBench.Dialect.Block
import DialectBench.Fault
import DialectBench.Text.Line

/-! The dialect and the driver that a workspace is configured with, and whether they are right. -/

namespace DialectBench

/-- A database that the tests run against. -/
inductive Backend where
  /-- MySQL. -/
  | mysql
  /-- TiDB. -/
  | tidb
  deriving DecidableEq, Repr

namespace Backend

/-- The name of a database. -/
def name : Backend → String
  | mysql => "mysql"
  | tidb => "tidb"

/-- The name of a database in the build and in the script that starts it. -/
def rdbms : Backend → String
  | mysql => "mysql_8_0"
  | tidb => "tidb"

end Backend

/-- The dialect and the driver of a database. -/
structure ConfiguredDialect where
  /-- The dialect. -/
  dialect : Option String
  /-- The driver. -/
  driver : Option String
  deriving DecidableEq, Repr

namespace Dialect

/-- The file in which the databases of a workspace are configured. -/
def configurationPath (workspace : Path) : Path :=
  workspace / "local-build-plugins/src/main/groovy/local.databases.gradle"

/-- The driver that all databases are used with. -/
def mysqlDriver : String := "com.mysql.cj.jdbc.Driver"

/-- The settings of a database in a workspace. -/
def settings (d : Disk) (workspace : Path) (backend : Backend) :
    Except Failure ConfiguredDialect :=
  let path := configurationPath workspace
  match d.readText path with
  | .error refusal => .error (.during (.configurationMissing path) refusal)
  | .ok content =>
    match block? content backend.name with
    | none => .error (.of (.blockMissing backend.name path))
    | some block => .ok ⟨setting? block "db.dialect", setting? block "jdbc.driver"⟩

/-- A dialect that fits TiDB. -/
def fitsTidb (dialect : String) : Bool :=
  Text.contains dialect "TiDBDialect" || Text.contains dialect "MySQLDialect"

/-- The reason why settings do not fit a database, if they do not. -/
def misfit? (backend : Backend) (settings : ConfiguredDialect) : Option Fault :=
  match backend with
  | .mysql => none
  | .tidb =>
    match settings.dialect.filter (fun dialect => !fitsTidb dialect),
      settings.driver.filter (fun driver => driver != mysqlDriver) with
    | some dialect, _ => some (.unexpectedDialect dialect)
    | none, some driver => some (.unexpectedDriver driver)
    | none, none => none

/-- The settings of a database, if they fit it. -/
def checked (d : Disk) (workspace : Path) (backend : Backend) : Except Failure ConfiguredDialect :=
  match settings d workspace backend with
  | .error failure => .error failure
  | .ok settings =>
    match misfit? backend settings with
    | some fault => .error (.of fault)
    | none => .ok settings

end Dialect

end DialectBench
