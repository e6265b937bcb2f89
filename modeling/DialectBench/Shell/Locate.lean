import DialectBench.Shell.Tool

/-! Where programs are found, and what runs them. -/

namespace DialectBench.Shell

/-- Something that can be executed. -/
inductive Executable where
  /-- A tool. -/
  | tool (tool : Tool)
  /-- What runs another program with other variables. -/
  | environment
  /-- The shell. -/
  | shell
  /-- A script for the shell. -/
  | script (text : String)

/-- The directories of the tools. -/
def toolDirectories : List String := ["/bin", "/usr/bin"]

/-- The names of the shell. -/
def shellNames : List String := ["sh", "dash", "bash"]

/-- The program of a name in the directories of the tools. -/
def systemProgram? (name : String) : Option Executable :=
  if shellNames.contains name then some .shell
  else if name = "env" then some .environment
  else (Tool.programs.lookup name).map .tool

/-- The first line of a script names the shell. -/
def isForShell (firstLine : String) : Bool :=
  match (firstLine.toList.drop 2).splitOn ' ' |>.map String.ofList |>.filter (· != "") with
  | path :: rest =>
    let name := ((Path.mk path).fileName?).getD ""
    shellNames.contains name || (name = "env" && (rest.head?.map shellNames.contains).getD false)
  | [] => false

/-- What the content of a file that may be executed is. -/
def executableOf (content : Bytes) : Except OsError Executable :=
  let text := Text.textLossy content
  if Text.startsWith text "#!" then
    if isForShell ((Text.lines text).head?.getD "") then .ok (.script text) else .error .notFound
  else .error .notAProgram

/-- The program at a path. -/
def executableAt (d : Disk) (path : Path) : Except OsError Executable :=
  let known := if toolDirectories.contains ((path.parent?.map Path.text).getD "") then
      path.fileName?.bind systemProgram?
    else none
  match known, d.entry path with
  | some program, _ => .ok program
  | none, .ok (_, .file content true _) => executableOf content
  | none, .ok _ => .error .permissionDenied
  | none, .error refusal => .error refusal

/-- The first program of a name in some directories; one that may not be executed is told only
when there is no other. -/
def searchProgram (d : Disk) (name : String) (refused : OsError) :
    List String → Except OsError (Path × Executable)
  | [] => .error refused
  | directory :: directories =>
    let path := if directory.isEmpty then Path.mk ("./" ++ name) else Path.mk directory / name
    match executableAt d path with
    | .ok program => .ok (path, program)
    | .error .permissionDenied => searchProgram d name .permissionDenied directories
    | .error .notAProgram => .error .notAProgram
    | .error _ => searchProgram d name refused directories

/-- The directories that are searched when no variable tells them. -/
def usualSearchPath : String := "/bin:/usr/bin"

/-- The program of a name; a name with a slash is a path. -/
def locate (d : Disk) (searchPath : Option String) (name : String) :
    Except OsError (Path × Executable) :=
  if name.isEmpty then .error .notFound
  else if name.contains '/' then (executableAt d ⟨name⟩).map fun program => (⟨name⟩, program)
  else
    let directories := ((searchPath.getD usualSearchPath).toList.splitOn ':').map String.ofList
    searchProgram d name .notFound directories

end DialectBench.Shell
