import DialectBench.Collection.Manifest
import DialectBench.Text.Line

/-! The backend that results come from, told by the manifest, the end of a log, or its name. -/

namespace DialectBench.Summary

/-- The value that a line gives the variable of the backend. -/
def hintOf (line : String) : Option String :=
  match Text.splitOnce '=' (Text.trimmed line) with
  | some (key, value) =>
    let value := Text.trimmed value
    if key = "RDBMS" && !value.isEmpty then some value else none
  | none => none

/-- The first value that one of several lines gives the variable. -/
def hintAmong (lines : List String) : Option String :=
  lines.findSome? hintOf

/-- The number of lines at the end of a log that are looked through. -/
def tailLength : Nat := 256

/-- The last value that the end of a log gives the variable. -/
def hintInLog (content : Bytes) : Option String :=
  hintAmong ((Text.lines (Text.textLossy content)).reverse.take tailLength)

/-- The last value that the end of a log file gives the variable. -/
def tailHint (d : Disk) (log : Path) : Option String :=
  match d.read log with
  | .ok content => hintInLog content
  | .error _ => none

/-- The backend that the name of a log file begins with. -/
def nameHint (log : Path) : Option String :=
  match log.fileName? with
  | none => none
  | some name =>
    let name := String.ofList (name.toList.map Char.toLower)
    if Text.startsWith name "mysql-ci" then some "mysql_8_0"
    else if Text.startsWith name "tidb-ci" then some "tidb"
    else none

/-- The backend that a manifest names. -/
def manifestHint (manifest : Option Manifest) : Option String :=
  ((manifest.bind Manifest.backend).map Text.trimmed).filter fun hint => !hint.isEmpty

/-- The backend of results: the manifest comes first, then the end of the log, then its name. -/
def backend (d : Disk) (manifest : Option Manifest) (log : Option Path) : String :=
  let fromLog := log.bind fun log => (tailHint d log).or (nameHint log)
  ((manifestHint manifest).or fromLog).getD "unknown"

end DialectBench.Summary
