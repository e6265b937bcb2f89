import DialectBench.Command.Scripted
import DialectBench.Proofs.Bench.Journey
import DialectBench.Proofs.Dialect.Settings
import DialectBench.Proofs.Disk.Way

/-! The opening of a comparison in a world that is ready for it, and a small world that is. -/

namespace DialectBench

namespace Action

/-- A directory that is there is not made again. -/
theorem prepareDirectory_of_there {path : Path} {s : Session}
    (there : s.scene.disk.makingAll path.ancestors = { changes := [] }) :
    (prepareDirectory path).outcome s = .ok () ∧ (prepareDirectory path).after s = s := by
  unfold prepareDirectory
  -- There is nothing to change, so performing the changes does nothing.
  rw [outcome_bind_of_ok (outcome_look _ s), after_bind_of_ok (outcome_look _ s), there]
  exact ⟨rfl, rfl⟩

end Action

namespace Bench

open DialectBench.Action

variable {bench : Bench} {s : Session} {output : Output}

/-- Directories that are there are not made again. -/
theorem prepareDirectories_of_there (real : bench.options.dryRun = false) {paths : List Path}
    (there : ∀ path ∈ paths, s.scene.disk.makingAll path.ancestors = { changes := [] }) :
    (bench.prepareDirectories paths).outcome s = .ok () ∧
      (bench.prepareDirectories paths).after s = s := by
  -- Each directory leaves the session alone, so the next one is met as it was.
  induction paths with
  | nil => exact ⟨rfl, rfl⟩
  | cons path paths ih =>
    obtain ⟨first, others⟩ := List.forall_mem_cons.mp there
    have same : bench.prepareDirectory path = Action.prepareDirectory path := by
      simp [prepareDirectory, real]
    obtain ⟨made, kept⟩ := Action.prepareDirectory_of_there first
    rw [prepareDirectories, same, outcome_bind_of_ok made, after_bind_of_ok made, kept]
    exact ih others

/-- When its directories are there and the container service answers, the opening of a comparison
is one call. -/
theorem prepareRun_of_ready (real : bench.options.dryRun = false)
    (there : ∀ path ∈ bench.lab.workingDirectories,
      s.scene.disk.makingAll path.ancestors = { changes := [] })
    (answers : (run bench.runner infoCommand).outcome s = .ok output)
    (running : output.succeeded = true) :
    bench.prepareRun.outcome s = .ok () ∧
      bench.prepareRun.after s = (run bench.runner infoCommand).after s := by
  obtain ⟨made, kept⟩ := prepareDirectories_of_there real there
  -- The step that names a missing service does not touch an answer.
  have answered : (within .dockerMissing (run bench.runner infoCommand)).outcome s = .ok output := by
    rw [outcome_within, answers]
    rfl
  unfold prepareRun
  rw [outcome_bind_of_ok made, after_bind_of_ok made, kept, outcome_bind_of_ok answered,
    after_bind_of_ok answered, after_within, if_pos running]
  exact ⟨rfl, rfl⟩

/-- Behind an opening that succeeds a comparison goes on to its first target. -/
theorem legs_of_opened (opened : bench.prepareRun.outcome s = .ok ()) :
    bench.legs s =
      Leg.of bench .opening s :: bench.legsFrom bench.parts.tail (bench.prepareRun.after s) := by
  -- The opening reports nothing and goes on.
  have outcome : (Leg.of bench .opening s).outcome = .ok [] := by
    show (Part.opening.action bench).outcome s = _
    rw [Part.action, outcome_bind_of_ok opened, outcome_pure]
  have after : (Leg.of bench .opening s).after = bench.prepareRun.after s := by
    show (Part.opening.action bench).after s = _
    rw [Part.action, after_bind_of_ok opened, after_pure]
  have on : (Leg.of bench .opening s).goesOn = true := by
    rw [Leg.goesOn, outcome]
    rfl
  rw [legs, parts, legsFrom, on, after, if_pos rfl, List.tail_cons]

/-- Behind an opening that succeeds the targets decide what comes of a comparison. -/
theorem outcome_execute_of_opened (opened : bench.prepareRun.outcome s = .ok ()) :
    bench.execute.outcome s =
      (bench.tryAll >>= bench.concludeReport).outcome (bench.prepareRun.after s) :=
  outcome_bind_of_ok opened _

end Bench

/-- A lab with everything in the current directory. -/
def Lab.sample : Lab where
  home := "lab"
  workspaceRoot := "ws"
  workspace := "ws"
  temp := "tmp"
  logs := "log"
  results := "out"
  runs := "runs"
  repro := "repro"
  mysqlContainer := "mysql"
  tidbContainer := "tidb"
  runnerImage := "eclipse-temurin:21-jdk"
  gradleCache := "caches"

/-- The directories of a lab, and a workspace in which MySQL is configured. -/
def Disk.sample : Disk where
  entries :=
    [(["tmp"], .directory 0), (["log"], .directory 0), (["out"], .directory 0),
      (["runs"], .directory 0), (["ws"], .directory 0), (["ws", "local-build-plugins"], .directory 0),
      (["ws", "local-build-plugins", "src"], .directory 0),
      (["ws", "local-build-plugins", "src", "main"], .directory 0),
      (["ws", "local-build-plugins", "src", "main", "groovy"], .directory 0),
      (["ws", "local-build-plugins", "src", "main", "groovy", "local.databases.gradle"],
        .file (Text.encode "mysql: []") false 0)]
  current := []
  clock := 0

/-- A session in which nothing was done yet. -/
def Session.sample : Session where
  scene := ⟨.sample, false, ⟨"20250101-000000", "2025-01-01T00:00:00Z"⟩⟩

/-- A comparison of MySQL alone by rules for its commands. -/
def Bench.sample (skipClean : Bool) (rules : List Rule) : Bench where
  lab := .sample
  options := { skipClean, skipTidb := true, timing := .ofSeconds 60 none }
  runner := .scripted rules

/-- A comparison of MySQL with TiDB in the small lab. -/
def Bench.pair (runner : Runner) : Bench where
  lab := .sample
  options :=
    { skipClean := true
      tidbDialect := .tidbCommunity
      skipTidbPatch := true
      timing := .ofSeconds 60 none }
  runner

/-- The directories of the small lab beside a workspace. -/
def Disk.around (others : List (Location × Node)) : Disk where
  entries :=
    [(["tmp"], .directory 0), (["log"], .directory 0), (["out"], .directory 0),
      (["runs"], .directory 0)] ++ others
  current := []
  clock := 0

/-- A session at a file tree. -/
def Session.at (disk : Disk) : Session where
  scene := ⟨disk, false, ⟨"T", "U"⟩⟩

namespace Session

/-- The directories that a comparison works in are there. -/
theorem sample_ready (path : Path) (member : path ∈ Lab.sample.workingDirectories) :
    sample.scene.disk.makingAll path.ancestors = { changes := [] } := by
  -- Each path is a single name, and a directory of that name stands in the current one.
  have reaches : ∀ path ∈ Lab.sample.workingDirectories, Disk.withoutSlashes path = path ∧
      path.text.isEmpty = false ∧ path.isAbsolute = false ∧ path.steps = [.down path.text] ∧
        Disk.sample.find? [path.text] = some (.directory 0) := by decide
  obtain ⟨bare, named, relative, steps, there⟩ := reaches path member
  have way : Disk.sample.Reaches path [path.text] (.directory 0) :=
    { named, relative, steps, there, through := by simp; rfl, solid := by simp }
  exact way.makingAll_eq bare

/-- The configuration can be read. -/
theorem sample_reads :
    Disk.sample.readText (Dialect.configurationPath Lab.sample.workspace) = .ok "mysql: []" := by
  have way : Disk.sample.Reaches (Dialect.configurationPath Lab.sample.workspace)
      ["ws", "local-build-plugins", "src", "main", "groovy", "local.databases.gradle"]
      (.file (Text.encode "mysql: []") false 0) :=
    { named := by decide
      relative := by decide
      steps := by decide
      through := by decide
      there := by decide
      solid := by simp }
  exact way.readText_eq (Text.text?_encode _)

/-- The configuration fits MySQL. -/
theorem sample_fits :
    Dialect.checked Disk.sample Lab.sample.workspace .mysql = .ok ⟨none, none⟩ := by
  have block : Dialect.block? "mysql: []" Backend.mysql.name = some "" := by decide
  have none : Dialect.setting? "" "db.dialect" = none ∧ Dialect.setting? "" "jdbc.driver" = none := by
    decide
  rw [Dialect.checked_mysql sample_reads block, none.1, none.2]

end Session

namespace Bench

variable {skipClean : Bool} {rules : List Rule} {output : Output}

/-- The opening of the small comparison is one call when the container service answers. -/
theorem sample_opened
    (answers : (Action.run (sample skipClean rules).runner infoCommand).outcome .sample = .ok output)
    (running : output.succeeded = true) :
    (sample skipClean rules).prepareRun.outcome .sample = .ok () ∧
      (sample skipClean rules).prepareRun.after .sample =
        (Action.run (sample skipClean rules).runner infoCommand).after .sample :=
  prepareRun_of_ready rfl Session.sample_ready answers running

/-- The small comparison tries MySQL, and nothing else. -/
theorem sample_legs
    (answers : (Action.run (sample skipClean rules).runner infoCommand).outcome .sample = .ok output)
    (running : output.succeeded = true) :
    (sample skipClean rules).legs .sample =
      [Leg.of (sample skipClean rules) .opening .sample,
        Leg.of (sample skipClean rules) (.trying (Target.baseline .sample) false)
          ((Action.run (sample skipClean rules).runner infoCommand).after .sample)] := by
  obtain ⟨opened, after⟩ := sample_opened answers running
  -- Behind the opening there is one part, and no other one.
  rw [legs_of_opened opened, after]
  simp [parts, sample, legsFrom]

/-- The small comparison ends as MySQL decides. -/
theorem sample_exitCode
    (answers : (Action.run (sample skipClean rules).runner infoCommand).outcome .sample = .ok output)
    (running : output.succeeded = true) {code : Int}
    (ends : (((sample skipClean rules).tryAll >>= (sample skipClean rules).concludeReport).outcome
      ((Action.run (sample skipClean rules).runner infoCommand).after .sample)).map
        BenchReport.exitCode = .ok code) :
    ∃ report, (sample skipClean rules).execute.outcome .sample = .ok report ∧
      report.exitCode = code := by
  obtain ⟨opened, after⟩ := sample_opened answers running
  rw [outcome_execute_of_opened opened, after]
  exact map_eq_ok.mp ends

end Bench

end DialectBench
