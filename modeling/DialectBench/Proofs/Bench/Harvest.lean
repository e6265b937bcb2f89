import DialectBench.Proofs.Bench.Answered
import DialectBench.Proofs.Bench.Custody
import DialectBench.Proofs.Bench.Opening
import DialectBench.Proofs.Bench.Pairing

/-! What a comparison brings home: complete collections, summaries that give the sums over their suites,
and the differences of these sums. -/

namespace DialectBench

/-- All counts fit into 63 bits, and the time is finite. -/
structure Totals.Bounded (totals : Totals) : Prop where
  /-- The files do. -/
  files : totals.files < Number.capacity 63
  /-- The tests do. -/
  tests : totals.tests < Number.capacity 63
  /-- The failures do. -/
  failures : totals.failures < Number.capacity 63
  /-- The errors do. -/
  errors : totals.errors < Number.capacity 63
  /-- The skipped tests do. -/
  skipped : totals.skipped < Number.capacity 63
  /-- The time is finite. -/
  finite : totals.time.isFinite = true

/-- Counts that fit into 63 bits fit into 64 bits. -/
theorem Totals.Bounded.fits {totals : Totals} (bounded : totals.Bounded) : totals.Fits := by
  have wider : Number.capacity 63 < Number.wordSize := by decide
  exact ⟨bounded.files.trans wider, bounded.tests.trans wider, bounded.failures.trans wider,
    bounded.errors.trans wider, bounded.skipped.trans wider⟩

namespace Bench

/-- A collection is complete, and its summary gives the sums over the suites in the collection that can be
read, and a backend. -/
structure BroughtHome (d : Disk) (collection summary : Path) (database : String) : Prop where
  /-- The manifest is there. -/
  manifest : d.isFile (collection / Manifest.fileName) = true
  /-- The summary names the backend. -/
  database : Summary.storedDatabase d summary = .ok database
  /-- The summary gives the sums. -/
  totals : ∃ totals, Comparison.storedTotals d summary = .ok totals ∧
    totals.tests = Summary.countBelow d collection Totals.tests ∧
    totals.failures = Summary.countBelow d collection Totals.failures ∧
    totals.errors = Summary.countBelow d collection Totals.errors ∧
    totals.skipped = Summary.countBelow d collection Totals.skipped

/-- The sums of a count over two collections, and the difference. -/
def sumsOf (d : Disk) (left right : Path) (count : Totals → Nat) : CountPair where
  left := Summary.countBelow d left count
  right := Summary.countBelow d right count
  diff := (Summary.countBelow d right count : Int) - Summary.countBelow d left count

/-- The sums over two collections side by side. -/
def comparisonOf (d : Disk) (pair : Pairing) (left right : Path) : Comparison where
  leftLabel := pair.leftLabel
  rightLabel := pair.rightLabel
  tests := sumsOf d left right Totals.tests
  failures := sumsOf d left right Totals.failures
  skipped := sumsOf d left right Totals.skipped

variable {bench : Bench} {place : Location} {s : Session} {report : BenchReport} {d : Disk}
  {target : Target} {collection summary : Path}

/-- What is filed gives the backend of its target and, if they are within bounds, the sums over its
suites. -/
theorem Filed.broughtHome (planned : target ∈ bench.planned)
    (filed : bench.Filed place target collection summary d)
    (bounded : (Summary.sumsBelow d collection).overall.Bounded) :
    BroughtHome d collection summary target.backend.rdbms ∧
      ∃ time, Comparison.storedTotals d summary =
        .ok { (Summary.sumsBelow d collection).overall with time } := by
  -- The names are plain, so what is filed under them is read through the path of the runs.
  obtain ⟨stamp, slashless, rfl, rfl, filed⟩ := filed
  have known := Target.identifier_mem planned
  have plain := Target.isPlain_collectionName known slashless
  have solo := Target.isPlain_summaryName known slashless
  obtain ⟨time, stored⟩ := filed.storedTotals_eq solo bounded.fits bounded.finite
  refine ⟨⟨filed.isFile_manifest plain, filed.storedDatabase_eq solo, _, stored, ?_⟩, time, stored⟩
  -- Each of the four counts is added up over the suites in the same way.
  have counted (count : Totals → Nat) := Summary.overall_sumsBelow d
    (bench.lab.runs / target.collectionName stamp) count
  exact ⟨counted Totals.tests rfl fun _ _ => rfl, counted Totals.failures rfl fun _ _ => rfl,
    counted Totals.errors rfl fun _ _ => rfl, counted Totals.skipped rfl fun _ _ => rfl⟩

/-- Sums within bounds are compared as they are. -/
theorem of_overall {left right : Path} {pair : Pairing} {time other : Float}
    (one : (Summary.sumsBelow d left).overall.Bounded)
    (two : (Summary.sumsBelow d right).overall.Bounded) :
    Comparison.of pair.leftLabel pair.rightLabel
        { (Summary.sumsBelow d left).overall with time }
        { (Summary.sumsBelow d right).overall with time := other } =
      comparisonOf d pair left right := by
  -- The overall sums are read off count by count, and within bounds the comparison takes them as they
  -- are.
  have counted (root : Path) (count : Totals → Nat) := Summary.overall_sumsBelow d root count
  simp only [Comparison.of, comparisonOf, sumsOf, ← counted _ Totals.tests rfl fun _ _ => rfl,
    ← counted _ Totals.failures rfl fun _ _ => rfl, ← counted _ Totals.skipped rfl fun _ _ => rfl,
    CountPair.of_eq one.tests two.tests, CountPair.of_eq one.failures two.failures,
    CountPair.of_eq one.skipped two.skipped]

/-- When the commands leave the directory of runs alone, a comparison that is not a rehearsal and ends with
a report has brought home what it tells. Every completed target has a complete collection and a
summary with the sums over its suites and with its backend, whatever its log says; and every pair of
completed targets whose summaries are the newest ones is compared by these sums. -/
theorem completed_targets_brought_home (real : bench.options.dryRun = false)
    (both : bench.options.skipMysql = false ∧ bench.options.skipTidb = false)
    (respects : ∀ exchange ∈ bench.execute.trace s, bench.Respects place exchange)
    (passed : bench.execute.outcome s = .ok report)
    (bounded : ∀ record ∈ report.targets, ∀ collection summary code,
      record.status = .completed collection summary code →
        (Summary.sumsBelow (bench.execute.after s).scene.disk collection).overall.Bounded) :
    (∀ record ∈ report.targets, ∀ collection summary code,
      record.status = .completed collection summary code →
        ∃ target ∈ bench.planned, record.identifier = target.identifier ∧
          BroughtHome (bench.execute.after s).scene.disk collection summary
            target.backend.rdbms) ∧
      ∀ pair ∈ Comparison.pairs, ∀ left ∈ report.targets, ∀ right ∈ report.targets,
        left.identifier = pair.left → right.identifier = pair.right →
        ∀ collection summary code collection' summary' code',
          left.status = .completed collection summary code →
          right.status = .completed collection' summary' code' →
          Comparison.newestSummary (bench.execute.after s).scene.disk bench.lab.runs pair.left =
            some summary →
          Comparison.newestSummary (bench.execute.after s).scene.disk bench.lab.runs pair.right =
            some summary' →
          comparisonOf (bench.execute.after s).scene.disk pair collection collection' ∈
            report.comparisons := by
  obtain ⟨vouches, compared⟩ := (assures_execute real).holds s trivial respects report passed
  have wanted : compares bench.options = true := by simp [compares, both]
  rw [if_pos wanted] at compared
  -- What a completed target tells is filed, so it is read back.
  have home : ∀ record ∈ report.targets, ∀ collection summary code,
      record.status = .completed collection summary code →
        ∃ target ∈ bench.planned, record.identifier = target.identifier ∧
          BroughtHome (bench.execute.after s).scene.disk collection summary target.backend.rdbms ∧
          ∃ time, Comparison.storedTotals (bench.execute.after s).scene.disk summary =
            .ok { (Summary.sumsBelow (bench.execute.after s).scene.disk collection).overall with
              time } := by
    intro record member collection summary code completed
    obtain ⟨target, planned, same, tells⟩ := vouches record member
    exact ⟨target, planned, same, (tells collection summary code (congrArg _ completed)).broughtHome
      planned (bounded record member collection summary code completed)⟩
  -- The first part forgets the totals that are read, which the second part compares.
  refine ⟨fun record member collection summary code completed => ?_, ?_⟩
  · obtain ⟨target, planned, same, brought, -⟩ :=
      home record member collection summary code completed
    exact ⟨target, planned, same, brought⟩
  · intro pair listed left first right second _ _ collection summary code collection' summary' code'
      completed completed' newest newest'
    obtain ⟨-, -, -, -, time, reads⟩ := home left first collection summary code completed
    obtain ⟨-, -, -, -, time', reads'⟩ := home right second collection' summary' code' completed'
    rw [compared, ← of_overall (bounded left first collection summary code completed)
      (bounded right second collection' summary' code' completed')]
    exact Comparison.mem_latest listed newest newest' reads reads'

end Bench

/-- From a new session the calls of an action are those that are in the session behind it. -/
theorem Action.trace_of_fresh {α : Type} {action : Action α} (fresh : s.exchanges = []) :
    action.trace s = (action.after s).exchanges.reverse := by
  rw [trace, Session.since, fresh, List.length_nil, Nat.sub_zero, List.take_length]

/-- The targets of a comparison, tried behind its opening. -/
def Bench.tries (bench : Bench) : Action (List TargetRecord) :=
  bench.prepareRun >>= fun _ => bench.tryAll

/-- What a comparison does once its targets were tried calls nothing and leaves the tree as it is. -/
theorem Bench.execute_of_tried {bench : Bench} {s : Session} {records : List TargetRecord}
    (tried : (bench.tries.outcome s).toOption = some records) :
    (∃ report, bench.execute.outcome s = .ok report ∧ report.targets = records) ∧
      (bench.execute.after s).exchanges = (bench.tries.after s).exchanges ∧
      (bench.execute.after s).scene.disk = (bench.tries.after s).scene.disk := by
  -- The comparison is the trying of its targets and then the report.
  have same : bench.execute = bench.tries >>= fun records => bench.concludeReport records := by
    rw [tries, bind_assoc]
    rfl
  have passed : bench.tries.outcome s = .ok records := by
    cases outcome : bench.tries.outcome s with
    | ok value =>
      rw [outcome] at tried
      exact congrArg _ (Option.some.inj tried)
    | error failure => simp [outcome, Except.toOption] at tried
  have quiet := bench.quiet_concludeReport records
  have still : (bench.concludeReport records).Upholds (· = (bench.tries.after s).scene.disk) :=
    upholds_concludeReport records
  rw [same, Action.outcome_bind_of_ok passed, Action.after_bind_of_ok passed, outcome_concludeReport]
  exact ⟨⟨_, rfl, rfl⟩, (quiet.leads _).recorded, still.after_of_quiet quiet rfl⟩

/-- A comparison of MySQL with TiDB in a lab, with the caches cleaned for each of them. -/
def Bench.thorough (runs : Path) (runner : Runner) : Bench where
  lab := { Lab.sample with runs }
  options :=
    { tidbDialect := .tidbCommunity
      skipTidbPatch := true
      timing := .ofSeconds 60 none }
  runner

/-- A workspace with a configuration and a module without results. -/
def Disk.unbuilt (configuration : String) (others : List (Location × Node)) : Disk :=
  .around ([(["ws"], .directory 0), (["ws", "local-build-plugins"], .directory 0),
    (["ws", "local-build-plugins", "src"], .directory 0),
    (["ws", "local-build-plugins", "src", "main"], .directory 0),
    (["ws", "local-build-plugins", "src", "main", "groovy"], .directory 0),
    (["ws", "local-build-plugins", "src", "main", "groovy", "local.databases.gradle"],
      .file (Text.encode configuration) false 0),
    (["ws", "m"], .directory 0), (["ws", "m", "target"], .directory 0)] ++ others)

/-- The tree when the module has been tested. -/
def Disk.tested (d : Disk) (tests : String) : Disk :=
  { d with entries := d.entries ++
      [(["ws", "m", "target", "test-results"], .directory 0),
        (["ws", "m", "target", "test-results", "t.xml"],
          .file (Text.encode ("<testsuite tests=\"" ++ tests ++ "\" failures=\"1\"/>")) false 0)] }

/-- A runner whose commands succeed. The tests of a target write a result into the workspace, and other
commands may change the tree as well. -/
def Runner.testing (changes : Command → Disk → Disk) : Runner where
  run _ command scene :=
    { outcome := .ok Output.silent, scene := { scene with disk := changes command scene.disk } }
  stream _ command _ _ scene :=
    let tests := if command.arguments.contains "RDBMS=tidb" then "3" else "2"
    { outcome := .ok ⟨0, false⟩, scene := { scene with disk := scene.disk.tested tests } }

/-- Tests change nothing outside the workspace. -/
theorem Disk.view_tested (d : Disk) (tests : String) {place : Location} (apart : ¬ ["ws"] <+: place) :
    (d.tested tests).view place = d.view place := by
  -- The root is seen in every tree; any other place is looked up, and the entries that are new lie in
  -- the workspace.
  by_cases root : place = []
  · simp [root]
  · unfold view
    rw [find?_of_ne_nil root, find?_of_ne_nil root, tested, List.lookup_append]
    have absent : [(["ws", "m", "target", "test-results"], Node.directory 0),
        (["ws", "m", "target", "test-results", "t.xml"], Node.file (Text.encode
          ("<testsuite tests=\"" ++ tests ++ "\" failures=\"1\"/>")) false 0)].lookup place = none := by
      refine List.lookup_eq_none_iff.mpr fun entry member => ?_
      rw [bne_iff_ne]
      rintro rfl
      simp only [List.mem_cons, List.not_mem_nil, or_false] at member
      rcases member with rfl | rfl <;> simp at apart
    rw [absent, Option.or_none]

/-- The calls change nothing at a place outside the workspace if the other commands change nothing there. -/
theorem Runner.answers_testing {changes : Command → Disk → Disk} {place : Location}
    (apart : ¬ ["ws"] <+: place) (keeps : ∀ command d, (changes command d).view place = d.view place) :
    (Runner.testing changes).Answers fun exchange =>
      exchange.after.disk.view place = exchange.before.disk.view place where
  run command s := keeps command s.scene.disk
  stream _ _ _ s := s.scene.disk.view_tested _ apart

/-- A comparison in which both targets are completed. -/
def Bench.fruitful : Bench := .thorough "runs" (.testing fun _ d => d)

/-- The session in which it begins. -/
def Session.fruitful : Session := .at (.unbuilt "mysql: []\ntidb: []" [(["caches"], .directory 0)])

instance (totals : Totals) : Decidable totals.Bounded :=
  decidable_of_iff (totals.files < Number.capacity 63 ∧ totals.tests < Number.capacity 63 ∧
    totals.failures < Number.capacity 63 ∧ totals.errors < Number.capacity 63 ∧
    totals.skipped < Number.capacity 63 ∧ totals.time.isFinite = true)
    ⟨fun ⟨files, tests, failures, errors, skipped, finite⟩ =>
      ⟨files, tests, failures, errors, skipped, finite⟩,
     fun ⟨files, tests, failures, errors, skipped, finite⟩ =>
      ⟨files, tests, failures, errors, skipped, finite⟩⟩

/-- A target is completed with its collection and its summary in the directory of runs. -/
def TargetRecord.completed (identifier : String) (runs : Path) : TargetRecord where
  identifier
  status := .completed (runs / (identifier ++ "-results-T")) (runs / (identifier ++ "-summary-T.json")) 0

/-- What comes of the targets of that comparison. -/
def Bench.fruits : List TargetRecord := ["mysql", "tidb-tidbdialect"].map (.completed · "runs")

/-- Both targets are completed, and every call leaves a tree of files and directories that fit together, in
which the directories of the lab are where they were. -/
theorem Bench.fruitful_tries :
    (Bench.fruitful.tries.outcome .fruitful).toOption = some fruits ∧
    (∀ exchange ∈ (Bench.fruitful.tries.after .fruitful).exchanges,
      '/' ∉ exchange.before.moment.stamp.toList ∧
      (exchange.after.disk.places.Nodup ∧ (∀ place ∈ exchange.after.disk.places, place ≠ []) ∧
        (∀ place ∈ exchange.after.disk.places, ∀ name ∈ place, IsPlain name) ∧
        (∀ place ∈ exchange.after.disk.places,
          exchange.after.disk.isDirectoryAt place.dropLast = true) ∧
        (∀ entry ∈ exchange.after.disk.entries, entry.2.isFile || entry.2.isDirectory)) ∧
      exchange.after.disk.directory? "runs" = some ["runs"] ∧
      exchange.after.disk.trail "runs" = [[], ["runs"]] ∧
      exchange.after.disk.directory? "ws" = some ["ws"] ∧
      ((exchange.after.disk.resolve "caches" false).map Spot.location).toOption = some ["caches"]) ∧
    ∀ identifier ∈ ["mysql", "tidb-tidbdialect"],
      (Summary.sumsBelow (Bench.fruitful.tries.after .fruitful).scene.disk
        (("runs" : Path) / (identifier ++ "-results-T"))).overall.Bounded ∧
      Comparison.newestSummary (Bench.fruitful.tries.after .fruitful).scene.disk "runs" identifier =
        some (("runs" : Path) / (identifier ++ "-summary-T.json")) := by
  decide +kernel

/-- Each call of that comparison leaves the directory of runs alone. -/
theorem Bench.fruitful_respects :
    ∀ exchange ∈ Bench.fruitful.execute.trace .fruitful,
      Bench.fruitful.Respects ["runs"] exchange := by
  obtain ⟨tried, trees, -⟩ := Bench.fruitful_tries
  obtain ⟨-, same, -⟩ := Bench.execute_of_tried tried
  rw [← same] at trees
  intro exchange member
  -- The runner changes nothing but the workspace, which is seen from the way it answers.
  have kept (names : List String) : exchange.after.disk.view (["runs"] ++ names) =
      exchange.before.disk.view (["runs"] ++ names) :=
    (Bench.answered_execute (Runner.answers_testing (by simp) fun _ _ => rfl)).trace .fruitful
      exchange member
  rw [Action.trace_of_fresh rfl, List.mem_reverse] at member
  obtain ⟨stamped, ⟨distinct, inner, plain, housed, solid⟩, leads, trail, home, cache⟩ :=
    trees exchange member
  have linkless : exchange.after.disk.Linkless [] := Disk.linkless_of_entries solid
  refine ⟨stamped, kept, ⟨⟨distinct, inner, plain, housed⟩, Disk.directory?_eq_some.mp leads,
    fun name _ target => linkless _ target⟩, fun place node resolved => ?_, fun place leads => ?_⟩
  -- The cache is resolved to its own directory beside the runs.
  · rw [show Bench.fruitful.lab.gradleCache = "caches" from rfl] at resolved
    rw [resolved] at cache
    obtain rfl := Option.some.inj cache
    exact ⟨by decide, by simp [Bench.fruitful, Bench.thorough, trail]⟩
  -- The workspace leads to its own directory, which is beside the runs as well.
  · obtain rfl := leads.unique (Disk.directory?_eq_some.mp home)
    exact ⟨by decide, by simp [Bench.fruitful, Bench.thorough, trail]⟩

/-- In that comparison both targets are brought home, and MySQL is compared with TiDB. -/
theorem Bench.fruitful_brought_home :
    ∃ report, Bench.fruitful.execute.outcome .fruitful = .ok report ∧ report.targets = fruits ∧
      (∀ record ∈ report.targets, ∃ collection summary code,
        record.status = .completed collection summary code ∧
          ∃ target ∈ Bench.fruitful.planned, record.identifier = target.identifier ∧
            BroughtHome (Bench.fruitful.execute.after .fruitful).scene.disk collection summary
              target.backend.rdbms) ∧
      comparisonOf (Bench.fruitful.execute.after .fruitful).scene.disk
          ⟨"mysql", "tidb-tidbdialect", "MySQL 8.0", "TiDB with TiDBDialect"⟩
          "runs/mysql-results-T" "runs/tidb-tidbdialect-results-T" ∈ report.comparisons := by
  obtain ⟨tried, -, sums⟩ := Bench.fruitful_tries
  obtain ⟨⟨report, passed, reported⟩, -, same⟩ :=
    Bench.execute_of_tried tried
  rw [← same] at sums
  -- The sums of both targets are known from the evaluation.
  have bounded : ∀ record ∈ report.targets, ∀ collection summary code,
      record.status = .completed collection summary code →
        (Summary.sumsBelow (Bench.fruitful.execute.after .fruitful).scene.disk
          collection).overall.Bounded := by
    rw [reported]
    intro record member collection summary code completed
    obtain ⟨identifier, listed, rfl⟩ := List.mem_map.mp member
    obtain ⟨rfl, -, -⟩ := TargetFate.completed.inj completed
    exact (sums identifier listed).1
  obtain ⟨home, compared⟩ := Bench.completed_targets_brought_home rfl ⟨rfl, rfl⟩
    Bench.fruitful_respects passed bounded
  refine ⟨report, passed, reported, fun record member => ?_, ?_⟩
  -- Every report of the comparison is that of a completed target.
  · obtain ⟨identifier, -, rfl⟩ := List.mem_map.mp (reported ▸ member)
    exact ⟨_, _, _, rfl, home _ member _ _ _ rfl⟩
  -- MySQL comes first in the report and TiDB second, and their summaries are the newest.
  · rw [reported] at compared
    exact compared _ List.mem_cons_self _ List.mem_cons_self _
      (List.mem_cons_of_mem _ List.mem_cons_self) rfl rfl _ _ _ _ _ _ rfl rfl
      (sums _ List.mem_cons_self).2 (sums _ (List.mem_cons_of_mem _ List.mem_cons_self)).2

/-- The report tells of a completed target with sums within bounds that is not brought home. -/
def Bench.Loses (bench : Bench) (s : Session) : Prop :=
  ∃ report, bench.execute.outcome s = .ok report ∧ ∃ record ∈ report.targets,
    ∃ collection summary code, record.status = .completed collection summary code ∧
      (Summary.sumsBelow (bench.execute.after s).scene.disk collection).overall.Bounded ∧
      ∀ database, ¬ BroughtHome (bench.execute.after s).scene.disk collection summary database

/-- The manifest of a completed target is not there, or its summary cannot be read. -/
def TargetRecord.isLost (d : Disk) (record : TargetRecord) : Bool :=
  match record.status with
  | .completed collection summary _ =>
    decide (Summary.sumsBelow d collection).overall.Bounded &&
      !(d.isFile (collection / Manifest.fileName) && (Comparison.storedTotals d summary).isOk)
  | .abandoned _ _ => false

/-- A comparison loses what it is evaluated to lose. -/
theorem Bench.loses_of_tries {bench : Bench} {s : Session}
    (evaluated : (bench.tries.outcome s).toOption.any
      (fun records => records.any (TargetRecord.isLost (bench.tries.after s).scene.disk)) = true) :
    bench.Loses s := by
  -- The evaluation covers the targets alone, and the report adds nothing to the tree.
  cases tried : (bench.tries.outcome s).toOption with
  | none => simp [tried] at evaluated
  | some records =>
    rw [tried, Option.any_some, List.any_eq_true] at evaluated
    obtain ⟨record, member, lost⟩ := evaluated
    obtain ⟨⟨report, passed, rfl⟩, -, same⟩ := Bench.execute_of_tried tried
    refine ⟨report, passed, record, member, ?_⟩
    rw [← same] at lost
    unfold TargetRecord.isLost at lost
    split at lost
    next collection summary code completed =>
      rw [Bool.and_eq_true, decide_eq_true_iff] at lost
      refine ⟨collection, summary, code, completed, lost.1, fun database home => ?_⟩
      obtain ⟨totals, stored, -⟩ := home.totals
      -- What is brought home has a manifest and totals that can be read, and what is lost lacks one
      -- of them.
      simp [home.manifest, stored, Except.isOk, Except.toBool] at lost
    · cases lost

/-- The tree when a link on the way to the directory of runs was turned. -/
def Disk.turned (d : Disk) : Disk :=
  { d with entries := d.entries.map fun entry =>
      (entry.1, if entry.1 = ["r"] then .link "two" else entry.2) }

/-- Turning the link changes nothing elsewhere. -/
theorem Disk.view_turned (d : Disk) {place : Location} (apart : place ≠ ["r"]) :
    d.turned.view place = d.view place := by
  by_cases root : place = []
  · simp [root]
  · have found : d.turned.entries.lookup place = (d.entries.lookup place).map
        fun node => if place = ["r"] then .link "two" else node :=
      lookup_map_entries (fun place node => if place = ["r"] then .link "two" else node) d.entries
    unfold view
    rw [find?_of_ne_nil root, find?_of_ne_nil root, found, Option.map_map]
    refine Option.map_congr fun node _ => ?_
    simp [apart]

/-- A comparison in which the script that patches the configuration turns a link on the way to the directory
of runs. -/
def Bench.diverted : Bench :=
  .thorough "r/out" (.testing fun command d => if command.program = "python3" then d.turned else d)

/-- The session in which it begins: the link leads to the first of two directories. -/
def Session.diverted : Session :=
  .at (.unbuilt "mysql: []" [(["caches"], .directory 0), (["r"], .link "one"),
    (["one"], .directory 0), (["one", "out"], .directory 0), (["two"], .directory 0),
    (["two", "out"], .directory 0)])

/-- MySQL is completed, and TiDB given up, as it is not configured; by then the link leads elsewhere. -/
theorem Bench.diverted_loses : Bench.diverted.Loses .diverted :=
  loses_of_tries (by decide +kernel)

/-- A session in which a link that is named like the summary of MySQL leads to what is cleaned. -/
def Session.misnamed : Session :=
  .at (.unbuilt "mysql: []" [(["caches"], .directory 0),
    (["ws", "m", "target", "classes"], .directory 0),
    (["runs", "mysql-summary-T.json"], .link "../ws/m/target/classes/s")])

/-- The summary goes with what is cleaned behind MySQL. -/
theorem Bench.misnamed_loses : Bench.fruitful.Loses .misnamed :=
  loses_of_tries (by decide +kernel)

/-- A comparison whose directory of runs is given by way of the cache of the build. -/
def Bench.roundabout : Bench := .thorough "caches/../runs" (.testing fun _ d => d)

/-- The session in which it begins. -/
def Session.roundabout : Session := .at (.unbuilt "mysql: []" [(["caches"], .directory 0)])

/-- Collecting makes the cache again, and it is removed for TiDB. -/
theorem Bench.roundabout_loses : Bench.roundabout.Loses .roundabout :=
  loses_of_tries (by decide +kernel)

/-- A comparison of both sides that is not a rehearsal, with its directories apart from one another, whose
commands write nothing into the directory of runs. -/
structure Bench.Orderly (bench : Bench) (s : Session) : Prop where
  /-- It is not a rehearsal. -/
  real : bench.options.dryRun = false
  /-- Both sides are tried. -/
  both : bench.options.skipMysql = false ∧ bench.options.skipTidb = false ∧
    bench.options.compareOnly = false
  /-- None of the directories lies in another one. -/
  apart : ∃ places : List Location, [bench.lab.runs, bench.lab.logs, bench.lab.gradleCache,
    bench.lab.workspace].map s.scene.disk.directory? = places.map some ∧ places.Pairwise Aloof
  /-- Below the directory of runs every call leaves all as it is. -/
  untouched : ∀ place, s.scene.disk.Leads bench.lab.runs place →
    ∀ exchange ∈ bench.execute.trace s, ∀ names,
      exchange.after.disk.view (place ++ names) = exchange.before.disk.view (place ++ names)

/-- A comparison in the small lab is orderly if no command changes anything in its directory of runs. -/
theorem Bench.orderly_thorough {runs : Path} {changes : Command → Disk → Disk} {s : Session}
    (first : String) (rest : Location) (other : first ≠ "ws")
    (stands : [runs, "log", "caches", "ws"].map s.scene.disk.directory? =
      [first :: rest, ["log"], ["caches"], ["ws"]].map some)
    (apart : [first :: rest, ["log"], ["caches"], ["ws"]].Pairwise Aloof)
    (keeps : ∀ names command d,
      (changes command d).view (first :: rest ++ names) = d.view (first :: rest ++ names)) :
    (Bench.thorough runs (.testing changes)).Orderly s where
  real := rfl
  both := ⟨rfl, rfl, rfl⟩
  apart := ⟨_, stands, apart⟩
  untouched place leads exchange member names := by
    obtain rfl := leads.unique (Disk.directory?_eq_some.mp (List.cons.inj stands).1)
    exact (Bench.answered_execute (Runner.answers_testing (by simp [other.symm])
      (keeps names))).trace s exchange member

/-- A comparison may lose what it has completed although its commands write nothing into the directory of
runs: when a link on the way there is turned, when a link in it is named like a summary, and when what is
removed is on the way there. -/
theorem Bench.completed_targets_lost :
    (Bench.diverted.Orderly .diverted ∧ Bench.diverted.Loses .diverted) ∧
      (Bench.fruitful.Orderly .misnamed ∧ Bench.fruitful.Loses .misnamed) ∧
      Bench.roundabout.Orderly .roundabout ∧ Bench.roundabout.Loses .roundabout := by
  -- The turned link lies beside the directory that the runs have led to at first.
  have turns (names : List String) (command : Command) (d : Disk) :
      (if command.program = "python3" then d.turned else d).view ("one" :: ["out"] ++ names) =
        d.view ("one" :: ["out"] ++ names) := by
    split
    · exact d.view_turned (by simp)
    · rfl
  exact ⟨⟨orderly_thorough "one" ["out"] (by decide) (by decide +kernel) (by decide) turns,
      diverted_loses⟩,
    ⟨orderly_thorough "runs" [] (by decide) (by decide +kernel) (by decide) fun _ _ _ => rfl,
      misnamed_loses⟩,
    orderly_thorough "runs" [] (by decide) (by decide +kernel) (by decide) fun _ _ _ => rfl,
    roundabout_loses⟩

end DialectBench
