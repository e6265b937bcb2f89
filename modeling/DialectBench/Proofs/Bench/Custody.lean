import DialectBench.Proofs.Bench.Shelter
import DialectBench.Proofs.Collection.Chores
import DialectBench.Proofs.Session.Assured
import DialectBench.Proofs.Summary.Filing

/-! What the targets of a comparison file in the directory of runs stays there until the end, as long as
the commands leave that directory alone. -/

namespace DialectBench

open Disk Action Suite

/-- What stays however certain names are used stays also when fewer names are. -/
theorem Disk.Stable.anti {p : Path} {place : Location} {own more : String → Prop} {holds : Disk → Prop}
    (stable : Stable p place more holds) (fewer : ∀ name, own name → more name) :
    Stable p place own holds := fun d e keeps => stable d e (keeps.mono fewer)

/-- Two things that stay are both there. -/
theorem Disk.Stable.and {p : Path} {place : Location} {own : String → Prop} {one other : Disk → Prop}
    (first : Stable p place own one) (second : Stable p place own other) :
    Stable p place own fun d => one d ∧ other d := fun d e keeps held =>
  ⟨first d e keeps held.1, second d e keeps held.2⟩

namespace Bench

/-- The path of the runs leads to a directory in which no link bears the name of a summary. -/
structure Secures (bench : Bench) (place : Location) (d : Disk) : Prop where
  /-- The entries of the tree fit together. -/
  sound : d.Sound
  /-- The path leads there. -/
  leads : d.Leads bench.lab.runs place
  /-- A summary is written under its own name. -/
  unlinked : ∀ name, bench.NamesSummary name → ∀ target, d.view (place ++ [name]) ≠ some (.link target)

/-- What is removed during a comparison has nothing in common with the directory of runs, and is not on
the way to it. -/
structure Secludes (bench : Bench) (place : Location) (d : Disk) : Prop where
  /-- The cache of the build is elsewhere. -/
  cache : ∀ cache node, d.resolve bench.lab.gradleCache false = .ok ⟨cache, some node⟩ →
    Aloof place cache ∧ ∀ inner ∈ d.trail bench.lab.runs, ¬ cache <+: inner
  /-- The workspace is elsewhere, and its directories of results are not on the way. -/
  output : ∀ home, d.Leads bench.lab.workspace home → Aloof place home ∧
    ∀ results, isTransientWay results = true → ∀ inner ∈ d.trail bench.lab.runs,
      ¬ home ++ results <+: inner

/-- The directory of runs is safe, and something holds of the tree. -/
structure Guards (bench : Bench) (place : Location) (holds : Disk → Prop) (d : Disk) : Prop where
  /-- The directory is there. -/
  secures : bench.Secures place d
  /-- Nothing in it is removed. -/
  secludes : bench.Secludes place d
  /-- It holds. -/
  held : holds d

/-- A call leaves the directory of runs as it is, and safe. -/
structure Respects (bench : Bench) (place : Location) (exchange : Exchange) : Prop where
  /-- The stamp of the moment can be part of a name. -/
  stamped : '/' ∉ exchange.before.moment.stamp.toList
  /-- All that is in the directory is seen as before. -/
  kept : ∀ names,
    exchange.after.disk.view (place ++ names) = exchange.before.disk.view (place ++ names)
  /-- The directory is there. -/
  secures : bench.Secures place exchange.after.disk
  /-- Nothing in it is removed. -/
  secludes : bench.Secludes place exchange.after.disk

/-- The collection and the summary of a target are filed in the directory of runs. -/
def Filed (bench : Bench) (place : Location) (target : Target) (collection summary : Path)
    (d : Disk) : Prop :=
  ∃ stamp : String, '/' ∉ stamp.toList ∧ collection = bench.lab.runs / target.collectionName stamp ∧
    summary = bench.lab.runs / target.summaryName stamp ∧
    Summary.Filed bench.lab.runs place (target.collectionName stamp) (target.summaryName stamp)
      target.backend.rdbms d

/-- What a completed target tells is filed. -/
def Tells (bench : Bench) (place : Location) (target : Target) (outcome : Except Failure TargetFate)
    (d : Disk) : Prop :=
  ∀ collection summary code, outcome = .ok (.completed collection summary code) →
    bench.Filed place target collection summary d

/-- A report is about a target, and what it tells is filed. -/
def Vouches (bench : Bench) (place : Location) (target : Target) (record : TargetRecord)
    (d : Disk) : Prop :=
  record.identifier = target.identifier ∧ bench.Tells place target (.ok record.status) d

variable {bench : Bench} {place : Location} {target : Target} {holds : Disk → Prop} {d e : Disk}
  {own doomed : Location → Prop} {names : String → Prop} {s : Session}

/-- The directory of runs stays safe where it is kept. -/
theorem Secures.keep (secures : bench.Secures place d)
    (keeps : d.KeepsIn bench.lab.runs place names e) : bench.Secures place e where
  sound := keeps.sound
  leads := keeps.leads
  unlinked name known target seen := secures.unlinked name known target (keeps.linked [name] target seen)

/-- What is taken away beside the directory of runs and the way to it leaves all of it safe. -/
theorem Guards.thin (guards : bench.Guards place holds d)
    (stable : Stable bench.lab.runs place names holds) (sound : e.Sound) (thins : d.Thins doomed e)
    (aside : ∀ inner ∈ d.trail bench.lab.runs, ¬ doomed inner)
    (safe : ∀ names, ¬ doomed (place ++ names)) : bench.Guards place holds e := by
  -- What is doomed lies beside the place and beside the way to it, so the place is kept with all in
  -- it.
  have keeps : d.KeepsIn bench.lab.runs place names e :=
    .of_thins guards.secures.leads sound thins aside safe
  have same : e.trail bench.lab.runs = d.trail bench.lab.runs :=
    trail_congr thins.current fun inner member =>
      (thins.seen inner).resolve_right fun gone => aside inner member gone.1
  -- Less is there to be removed than before: each resolution in the thinner tree is one of the old
  -- tree.
  refine ⟨guards.secures.keep keeps, ⟨fun cache node resolved => ?_, fun home leads => ?_⟩,
    stable d e keeps guards.held⟩
  · rw [same]
    obtain ⟨other, before⟩ := resolve_mono thins.within thins.current.symm resolved
    exact guards.secludes.cache cache other before
  · rw [same]
    exact guards.secludes.output home (leads.mono thins.within thins.current.symm)

/-- A call that leaves the directory of runs alone leaves there what holds of it. -/
theorem Respects.guards {exchange : Exchange} (respects : bench.Respects place exchange)
    (stable : Stable bench.lab.runs place names holds) (held : holds exchange.before.disk) :
    bench.Guards place holds exchange.after.disk :=
  ⟨respects.secures, respects.secludes, stable _ _
    (.of_view respects.secures.sound respects.secures.leads respects.kept) held⟩

/-- What a target has filed stays as long as others use names of their own. -/
theorem stable_filed (planned : target ∈ bench.planned)
    (apart : ∀ name, target.Names name → ¬ names name) (collection summary : Path) :
    Stable bench.lab.runs place names (bench.Filed place target collection summary) := by
  rintro d e keeps ⟨stamp, slashless, named, called, filed⟩
  refine ⟨stamp, slashless, named, called, Summary.Filed.stable ?_ ?_ ?_ d e keeps filed⟩
  · exact Target.isPlain_collectionName (Target.identifier_mem planned) slashless
  · exact apart _ ⟨stamp, slashless, .inl rfl⟩
  · exact apart _ ⟨stamp, slashless, .inr rfl⟩

/-- What a target tells stays true as long as others use names of their own. -/
theorem stable_tells (planned : target ∈ bench.planned)
    (apart : ∀ name, target.Names name → ¬ names name) (outcome : Except Failure TargetFate) :
    Stable bench.lab.runs place names (bench.Tells place target outcome) :=
  fun d e keeps tells collection summary code completed =>
    stable_filed planned apart collection summary d e keeps (tells collection summary code completed)

/-- A stage is passed, or gives the target up, or the whole run. -/
theorem assures_stage {α : Type} {harmless : Exchange → Prop} {before : Scene → Prop}
    {action : Action α} {middle : Except Failure α → Scene → Prop} {name : Stage}
    {next : α → Action TargetFate} {last : Except Failure TargetFate → Scene → Prop}
    (first : Assures harmless before action middle)
    (onward : ∀ value, Assures harmless (middle (.ok value)) (next value) last)
    (fails : ∀ failure scene, middle (.error failure) scene →
      last (.ok (.abandoned name failure.account)) scene ∧ last (.error failure) scene) :
    -- A failure of the first action is either an interruption, which ends the run, or the fate of the
    -- target.
    Assures harmless before (stage name action next) last := by
  refine first.attempt_bind fun result => ?_
  cases result with
  | ok value => exact onward value
  | error failure =>
    unfold Progress.ofResult
    dsimp only
    cases failure.isInterruption with
    | true => exact .throw failure fun scene held => (fails failure scene held).2
    | false => exact .pure _ fun scene held => (fails failure scene held).1

section Steps

variable (stable : Stable bench.lab.runs place names holds)
include stable

/-- Work that upholds what holds in a safe tree is assured to do so. -/
theorem assures_of_upholds {α : Type} {action : Action α}
    (upholds : action.Upholds (bench.Guards place holds)) :
    Assures (bench.Respects place) (fun scene => bench.Guards place holds scene.disk) action
      fun _ scene => bench.Guards place holds scene.disk :=
  upholds.assures fun _ respects guards => respects.guards stable guards.held

/-- The cache of the build is removed beside the directory of runs. -/
theorem upholds_removeCache :
    (removeIfPresent bench.lab.gradleCache).Upholds (bench.Guards place holds) := by
  -- The removal may take whatever lies at or below the cache, and the guards keep the cache aloof.
  refine .of_quiet (quiet_removeIfPresent _) fun s guards => ?_
  have removed (cache : Location) (node : Node)
      (resolved : s.scene.disk.resolve bench.lab.gradleCache false = .ok ⟨cache, some node⟩)
      (inner : Location) (inside : cache <+: inner) : ∃ cache node,
        s.scene.disk.resolve bench.lab.gradleCache false = .ok ⟨cache, some node⟩ ∧
          cache <+: inner := ⟨cache, node, resolved, inside⟩
  obtain ⟨sound, thins⟩ := thins_removeIfPresent guards.secures.sound removed
  refine guards.thin stable sound thins ?_ ?_
  · rintro inner member ⟨cache, node, resolved, inside⟩
    exact (guards.secludes.cache cache node resolved).2 inner member inside
  · rintro names ⟨cache, node, resolved, inside⟩
    exact (guards.secludes.cache cache node resolved).1.symm.outside names inside

/-- The workspace is cleaned beside the directory of runs. -/
theorem upholds_sweep (real : bench.options.dryRun = false) :
    bench.cleanResults.Upholds (bench.Guards place holds) := by
  refine .of_quiet bench.quiet_cleanResults fun s guards => ?_
  obtain ⟨sound, thins⟩ := thins_cleanResults guards.secures.sound real
  refine guards.thin stable sound thins ?_ ?_
  · rintro inner member ⟨home, leads, results, transient, inside⟩
    exact (guards.secludes.output home leads).2 results transient inner member inside
  · rintro names ⟨home, leads, results, -, inside⟩
    exact (guards.secludes.output home leads).1.symm.outside names
      ((List.prefix_append home results).trans inside)

/-- Behind the removal of a container the directory of runs is safe. -/
theorem assures_dropContainer (container : String) :
    Assures (bench.Respects place) (fun scene => holds scene.disk) (bench.dropContainer container)
      fun _ scene => bench.Guards place holds scene.disk := by
  -- The call is the only step that may touch the tree, and it is assumed to respect the place.
  have called : Assures (bench.Respects place) (fun scene => holds scene.disk)
      (run bench.runner (removeCommand container))
      fun _ scene => bench.Guards place holds scene.disk :=
    .run _ _ fun _ _ _ held respects => respects.guards stable held
  have warned (words : String) : Assures (bench.Respects place)
      (fun scene => bench.Guards place holds scene.disk) (warn words)
      fun _ scene => bench.Guards place holds scene.disk :=
    .of_quiet (quiet_warn words) fun _ guards => guards
  -- However the tool answers, at most a warning follows.
  refine called.attempt_bind fun result => ?_
  cases result with
  | error failure => exact warned _
  | ok output =>
    dsimp only
    split
    · exact .pure () fun _ guards => guards
    · exact warned _

end Steps

section Targets

variable (real : bench.options.dryRun = false) (planned : target ∈ bench.planned)
  (stable : Stable bench.lab.runs place target.Names holds)

include stable in
/-- The stamp of tests that have run is that of the moment at which they were called. -/
theorem assures_launchTests :
    Assures (bench.Respects place) (fun scene => bench.Guards place holds scene.disk)
      (bench.launchTests target) fun outcome scene => bench.Guards place holds scene.disk ∧
        ∀ execution, outcome = .ok execution → '/' ∉ execution.stamp.toList := by
  -- The call keeps the guards; what is left to show is where the stamp comes from.
  have guarded := assures_of_upholds stable (bench.upholds_launchTests target)
  refine ⟨guarded.leads, fun s here harms => ⟨guarded.holds s here harms, fun execution passed => ?_⟩⟩
  -- The first exchange of the stage is the call itself, and the outcome is decided from it.
  obtain ⟨stream, rest, led, called, -, -, -, decides⟩ := bench.leads_launchTests target s
  have member : stream ∈ (bench.launchTests target).trace s := by
    rw [trace, led.since_eq]
    exact List.mem_cons_self
  have stamp : execution.stamp = s.scene.moment.stamp := by
    rw [decides] at passed
    split at passed
    · cases passed
    · split at passed
      · cases passed
      · rw [← Except.ok.inj passed]
  -- The moment of that call is one whose stamp has no slash, as every exchange that respects the
  -- place.
  rw [stamp, ← called]
  exact (harms stream member).stamped

/-- The results of a target are gathered under a name of its own. -/
def Gathers (bench : Bench) (place : Location) (holds : Disk → Prop) (target : Target)
    (stamp : String) (collection : Path) (d : Disk) : Prop :=
  '/' ∉ stamp.toList ∧ bench.Secures place d ∧ holds d ∧
    collection = bench.lab.runs / target.collectionName stamp ∧
    ∃ manifest, manifest.backend = some target.backend.rdbms ∧
      Summary.Gathered bench.lab.runs place (target.collectionName stamp) manifest d

include real planned stable

/-- The results of a target are gathered in the directory of runs. -/
theorem assures_gatherResults (execution : FinishedTests) :
    Assures (bench.Respects place)
      (fun scene => bench.Guards place holds scene.disk ∧ '/' ∉ execution.stamp.toList)
      (bench.gatherResults target execution) fun outcome scene =>
        (bench.Secures place scene.disk ∧ holds scene.disk) ∧
          ∀ collection, outcome = .ok collection →
            bench.Gathers place holds target execution.stamp collection scene.disk := by
  refine .of_quiet (bench.quiet_gatherResults target execution) ?_
  rintro s ⟨guards, slashless⟩
  obtain ⟨secures, -, held⟩ := guards
  -- The name of the collection is a plain one, since neither its target nor its stamp has a slash.
  have known := Target.identifier_mem planned
  have plain := Target.isPlain_collectionName known slashless
  have named : Collection.directoryOf (bench.collectRequest target execution) =
      bench.lab.runs / target.collectionName execution.stamp :=
    Target.directoryFor_eq known bench.lab.runs execution.stamp
  have same : bench.gatherResults target execution =
      Collection.collect (bench.collectRequest target execution) := by
    simp [gatherResults, real]
  rw [same]
  have keeps := Collection.keepsIn_collect secures.sound rfl secures.leads plain named
  -- Whatever the collection does happens under its own name, so what was filed before is untouched.
  have stays : bench.Secures place _ ∧ holds _ := ⟨secures.keep keeps, stable _ _
    (keeps.mono fun name mine => ⟨execution.stamp, slashless, .inl mine⟩) held⟩
  refine ⟨stays, fun collection passed => ?_⟩
  obtain ⟨directory, manifest, backend, gathered⟩ :=
    Collection.gathered_of_collect secures.sound rfl secures.leads plain named passed
  exact ⟨slashless, stays.1, stays.2, directory, manifest, backend, gathered⟩

/-- The summary of a collection is filed with it. -/
theorem assures_summarizeResults (collection : Path) (stamp : String) :
    Assures (bench.Respects place)
      (fun scene => bench.Gathers place holds target stamp collection scene.disk)
      (bench.summarizeResults target collection stamp) fun outcome scene =>
        (bench.Secures place scene.disk ∧ holds scene.disk) ∧
          ∀ summary, outcome = .ok summary →
            bench.Filed place target collection summary scene.disk := by
  -- The stage is the summary, then lines that tell it, then the path under which it was written.
  have same : bench.summarizeResults target collection stamp =
      Summary.summarize (bench.summaryRequest target collection stamp) >>= fun result =>
      printLines (Summary.accountLines result) >>= fun _ =>
      pure (result.jsonPath.getD (Summary.jsonPath (target.summaryStart bench.lab.runs) stamp)) := by
    simp [summarizeResults, real]
  rw [same]
  have summed : Assures (bench.Respects place)
      (fun scene => bench.Gathers place holds target stamp collection scene.disk)
      (Summary.summarize (bench.summaryRequest target collection stamp)) fun outcome scene =>
        (bench.Secures place scene.disk ∧ holds scene.disk) ∧ ∀ result, outcome = .ok result →
          ∃ summary, result.jsonPath = some summary ∧
            bench.Filed place target collection summary scene.disk := by
    refine .of_quiet (Summary.quiet_summarize _) ?_
    rintro s ⟨slashless, secures, held, rfl, manifest, backend, gathered⟩
    -- Both names are plain, and the summary is not written through a link.
    have known := Target.identifier_mem planned
    have plain := Target.isPlain_collectionName known slashless
    have solo := Target.isPlain_summaryName known slashless
    have solid := secures.unlinked _ ⟨target, planned, stamp, slashless, rfl⟩
    have named := Target.jsonPath_eq known bench.lab.runs stamp
    have stamped : (bench.summaryRequest target (bench.lab.runs / target.collectionName stamp)
      stamp).timestamp = some stamp := rfl
    have keeps := Summary.keepsIn_summarize secures.sound rfl stamped secures.leads solo solid named
    refine ⟨⟨secures.keep keeps, stable _ _
      (keeps.mono fun name mine => ⟨stamp, slashless, .inr mine⟩) held⟩, fun result passed => ?_⟩
    -- The manifest names the engine of the target, which is the one that the summary is filed under.
    have backed : Summary.manifestHint (some manifest) = some target.backend.rdbms := by
      rw [Summary.manifestHint, Option.bind_some, backend]
      cases target.backend <;> decide
    obtain ⟨wrote, filed⟩ := Summary.filed_of_summarize gathered plain solo
      (target.summaryName_ne_collectionName stamp stamp) solid backed rfl rfl rfl rfl named passed
    exact ⟨_, wrote, stamp, slashless, rfl, rfl, filed⟩
  refine summed.bind (fun result => ?_) ?_
  · -- Telling the summary leaves the tree alone.
    have quiet := (quiet_printLines (Summary.accountLines result)).bind fun _ => Quiet.pure
      (result.jsonPath.getD (Summary.jsonPath (target.summaryStart bench.lab.runs) stamp))
    refine .of_quiet quiet fun s held => ?_
    have told : (printLines (Summary.accountLines result) >>= fun _ => pure
        (result.jsonPath.getD (Summary.jsonPath (target.summaryStart bench.lab.runs) stamp))).Upholds
        (· = s.scene.disk) := (Upholds.printLines _).bind fun _ => Upholds.pure _
    rw [told.after_of_quiet quiet rfl]
    refine ⟨held.1, fun summary passed => ?_⟩
    obtain ⟨_, -, given⟩ := outcome_bind_eq_ok.mp passed
    obtain ⟨path, wrote, filed⟩ := held.2 result rfl
    rw [wrote] at given
    obtain rfl := Except.ok.inj given
    exact filed
  · exact fun failure scene held => ⟨held.1, fun _ none => by cases none⟩

/-- The stages behind the check leave the directory of runs safe, and what they tell is filed. -/
theorem assures_withBackend :
    Assures (bench.Respects place) (fun scene => bench.Guards place holds scene.disk)
      (bench.withBackend target) fun outcome scene =>
        bench.Guards place (fun d => holds d ∧ bench.Tells place target outcome d) scene.disk := by
  have started := assures_of_upholds stable (bench.upholds_startDatabase target)
  -- Without a completed target nothing is told.
  have given (name : Stage) (failure : Failure) (d : Disk)
      (safe : bench.Secures place d ∧ holds d) :
      (bench.Secures place d ∧ holds d ∧
        bench.Tells place target (.ok (.abandoned name failure.account)) d) ∧
      (bench.Secures place d ∧ holds d ∧ bench.Tells place target (.error failure) d) :=
    ⟨⟨safe.1, safe.2, fun _ _ _ none => by cases none⟩,
      ⟨safe.1, safe.2, fun _ _ _ none => by cases none⟩⟩
  have stages : Assures (bench.Respects place) (fun scene => bench.Guards place holds scene.disk)
      (bench.backendStages target) fun outcome scene =>
        bench.Secures place scene.disk ∧ holds scene.disk ∧
          bench.Tells place target outcome scene.disk := by
    -- The stages in their order, each of which hands on what the next one needs.
    refine assures_stage started (fun _ => ?_)
      fun failure scene guards => given _ failure _ ⟨guards.secures, guards.held⟩
    refine assures_stage (assures_launchTests stable) (fun execution => ?_)
      fun failure scene held => given _ failure _ ⟨held.1.secures, held.1.held⟩
    refine assures_stage ((assures_gatherResults real planned stable execution).narrow
      fun scene held => ⟨held.1, held.2 execution rfl⟩) (fun collection => ?_)
      fun failure scene held => given _ failure _ held.1
    refine assures_stage ((assures_summarizeResults real planned stable collection
      execution.stamp).narrow fun scene held => held.2 collection rfl) (fun summary => ?_)
      fun failure scene held => given _ failure _ held.1
    refine .pure _ fun scene held => ⟨held.1.1, held.1.2, fun _ _ _ completed => ?_⟩
    cases completed
    exact held.2 summary rfl
  -- The container is removed however the stages have ended, and what they told stays filed behind
  -- that.
  refine stages.attempt_bind fun outcome => ?_
  have kept : Stable bench.lab.runs place (fun _ => False)
      fun d => holds d ∧ bench.Tells place target outcome d :=
    (stable.anti fun _ => False.elim).and (stable_tells planned (fun _ _ => id) outcome)
  refine ((assures_dropContainer kept target.container).narrow fun scene held => held.2).bind
    (fun _ => ?_) ?_
  · refine .of_quiet (quiet_ofExcept outcome) fun s guards => ?_
    rw [outcome_ofExcept, after_ofExcept]
    exact guards
  · exact fun failure scene guards =>
      ⟨guards.secures, guards.secludes, guards.held.1, fun _ _ _ none => by cases none⟩

/-- The stages of a target leave the directory of runs safe, and what they tell is filed. -/
theorem assures_drive :
    Assures (bench.Respects place) (fun scene => bench.Guards place holds scene.disk)
      (bench.drive target) fun outcome scene =>
        bench.Guards place (fun d => holds d ∧ bench.Tells place target outcome d) scene.disk := by
  -- What fails before the container is started completes no target, and leaves the guards as they
  -- were.
  have given (name : Stage) (failure : Failure) (d : Disk) (guards : bench.Guards place holds d) :
      bench.Guards place
        (fun d => holds d ∧ bench.Tells place target (.ok (.abandoned name failure.account)) d) d ∧
      bench.Guards place (fun d => holds d ∧ bench.Tells place target (.error failure) d) d :=
    ⟨⟨guards.secures, guards.secludes, guards.held, fun _ _ _ none => by cases none⟩,
      ⟨guards.secures, guards.secludes, guards.held, fun _ _ _ none => by cases none⟩⟩
  -- The check comes in front of the stages of the backend; the preset, where there is one, in front
  -- of both.
  have checked : Assures (bench.Respects place) (fun scene => bench.Guards place holds scene.disk)
      (stage .checkDialect (bench.checkDialect target) fun _ => bench.withBackend target)
      fun outcome scene =>
        bench.Guards place (fun d => holds d ∧ bench.Tells place target outcome d) scene.disk :=
    assures_stage (assures_of_upholds stable (bench.upholds_checkDialect target))
      (fun _ => assures_withBackend real planned stable) fun failure scene => given _ failure _
  refine assures_stage (assures_of_upholds stable
    (upholds_clearCaches (upholds_removeCache stable))) (fun _ => ?_)
    fun failure scene => given _ failure _
  -- Only some targets have a preset to be set.
  unfold presetStage
  split
  · exact assures_stage (assures_of_upholds stable (upholds_setPreset _)) (fun _ => checked)
      fun failure scene => given _ failure _
  · exact checked

/-- A target is tried, and what its report tells is filed. -/
theorem assures_tryTarget (follows : Bool) :
    Assures (bench.Respects place) (fun scene => bench.Guards place holds scene.disk)
      (bench.tryTarget target follows) fun outcome scene => ∀ record, outcome = .ok record →
        bench.Guards place (fun d => holds d ∧ bench.Vouches place target record d) scene.disk := by
  rw [tryTarget_eq]
  -- The wish to stop, the stages and the sweep behind them all leave the runs safe.
  have asked := assures_of_upholds stable Upholds.stopIfAsked
  refine asked.bind (fun _ => ?_) fun _ _ _ _ none => by cases none
  refine (assures_drive real planned stable).bind (fun status => ?_) fun _ _ _ _ none => by cases none
  -- Nothing that is used from here on bears the name of a file of the target.
  have kept : Stable bench.lab.runs place (fun _ => False)
      fun d => holds d ∧ bench.Tells place target (.ok status) d :=
    (stable.anti fun _ => False.elim).and (stable_tells planned (fun _ _ => id) _)
  have swept : (if follows then bench.cleanResults else pure ()).Upholds
      (bench.Guards place fun d => holds d ∧ bench.Tells place target (.ok status) d) := by
    split
    · exact upholds_sweep kept real
    · exact .pure ()
  refine (assures_of_upholds kept swept).bind (fun _ => ?_) fun _ _ _ _ none => by cases none
  refine .pure _ fun scene guards record given => ?_
  obtain rfl := Except.ok.inj given
  exact ⟨guards.secures, guards.secludes, guards.held.1, rfl, guards.held.2⟩

end Targets

/-- The TiDB targets bear different names. -/
theorem variants_distinct (bench : Bench) : (bench.variants.map Target.identifier).Nodup := by
  unfold variants Target.variants
  split <;> simp [Target.community, Target.mysqlDialect, Target.core]

/-- None of the TiDB targets bears the name of MySQL. -/
theorem identifier_variants (bench : Bench) :
    ∀ target ∈ bench.variants, target.identifier ≠ (Target.baseline bench.lab).identifier := by
  unfold variants Target.variants
  split <;> simp [Target.community, Target.mysqlDialect, Target.core, Target.baseline]

/-- Each of several reports is vouched for by a target of the comparison. -/
def VouchesAll (bench : Bench) (place : Location) (records : List TargetRecord) (d : Disk) : Prop :=
  ∀ record ∈ records, ∃ target ∈ bench.planned, bench.Vouches place target record d

/-- MySQL is planned, and vouches for each of several reports. -/
def VouchesBaseline (bench : Bench) (place : Location) (records : List TargetRecord) (d : Disk) :
    Prop :=
  ∀ record ∈ records, Target.baseline bench.lab ∈ bench.planned ∧
    bench.Vouches place (Target.baseline bench.lab) record d

/-- A target that vouches for reports is one of those of the comparison. -/
theorem VouchesBaseline.all {records : List TargetRecord}
    (vouches : bench.VouchesBaseline place records d) : bench.VouchesAll place records d :=
  fun record member => ⟨_, (vouches record member).1, (vouches record member).2⟩

/-- What MySQL has filed stays while another target files something. -/
theorem stable_vouchesBaseline (planned : target ∈ bench.planned)
    (other : target.identifier ≠ (Target.baseline bench.lab).identifier)
    (records : List TargetRecord) :
    Stable bench.lab.runs place target.Names (bench.VouchesBaseline place records) := by
  intro d e keeps vouches record listed
  obtain ⟨mine, same, tells⟩ := vouches record listed
  refine ⟨mine, same, stable_tells mine (fun name names again => other ?_) _ d e keeps tells⟩
  exact again.identifier_eq names (Target.identifier_mem planned) (Target.identifier_mem mine)

/-- What is done once the targets have run upholds everything. -/
theorem upholds_concludeReport (targets : List TargetRecord) :
    (bench.concludeReport targets).Upholds holds := by
  have told : (tellGivenUp targets).Upholds holds := Upholds.forM (fun _ => .tell _) _
  unfold concludeReport
  split
  · refine Upholds.bind ?_ fun _ => told.bind fun _ => .pure _
    exact (Upholds.look _).bind fun _ => (Upholds.forM (fun _ => .tell _) _).bind fun _ => .pure _
  · exact told.bind fun _ => .pure _

/-- The preparation of a run calls for the container tool, and then the directory of runs is safe. -/
theorem assures_prepareRun :
    Assures (bench.Respects place) (fun _ => True) bench.prepareRun fun outcome scene =>
      ∀ value, outcome = .ok value → bench.Guards place (fun _ => True) scene.disk := by
  -- Before the container tool has been asked nothing is known of the tree, nor is anything needed.
  have made : Assures (bench.Respects place) (fun _ => True)
      (bench.prepareDirectories bench.lab.workingDirectories) fun _ _ => True :=
    .of_quiet (bench.quiet_prepareDirectories _) fun _ _ => trivial
  have stays : Stable bench.lab.runs place (fun _ => True) fun _ => True := fun _ _ _ => id
  have called : Assures (bench.Respects place) (fun _ => True) (run bench.runner infoCommand)
      fun _ scene => bench.Guards place (fun _ => True) scene.disk :=
    .run _ _ fun _ _ _ _ respects => respects.guards stays trivial
  -- It is the answer to this call that makes the directory of runs safe.
  have asked : Assures (bench.Respects place) (fun _ => True)
      (Action.within .dockerMissing (run bench.runner infoCommand))
      fun _ scene => bench.Guards place (fun _ => True) scene.disk :=
    called.within _ fun _ _ => id
  refine made.bind (fun _ => asked.bind (fun output => ?_) ?_) ?_
  · split
    · exact .pure () fun _ guards _ _ => guards
    · exact .throw _ fun _ _ _ none => by cases none
  · exact fun _ _ _ _ none => by cases none
  · exact fun _ _ _ _ none => by cases none

section Runs

variable (real : bench.options.dryRun = false)
include real

/-- Targets are tried in turn, and what their reports tell is filed: each uses names of its own. -/
theorem assures_tryTargets {targets : List Target} (planned : ∀ target ∈ targets, target ∈ bench.planned)
    (distinct : (targets.map Target.identifier).Nodup)
    (stable : ∀ target ∈ targets, Stable bench.lab.runs place target.Names holds) :
    Assures (bench.Respects place) (fun scene => bench.Guards place holds scene.disk)
      (bench.tryTargets targets) fun outcome scene => ∀ records, outcome = .ok records →
        bench.Guards place (fun d => holds d ∧ bench.VouchesAll place records d) scene.disk := by
  -- The induction is over the targets, and what the reports so far tell is part of what stays.
  induction targets generalizing holds with
  | nil =>
    refine .pure _ fun scene guards records given => ?_
    obtain rfl := Except.ok.inj given
    exact ⟨guards.secures, guards.secludes, guards.held, by simp [VouchesAll]⟩
  | cons target targets ih =>
    obtain ⟨own, others⟩ := List.forall_mem_cons.mp planned
    obtain ⟨mine, rest⟩ := List.forall_mem_cons.mp stable
    rw [List.map_cons, List.nodup_cons] at distinct
    refine (assures_tryTarget real own mine _).bind (fun record => ?_)
      fun _ _ _ _ none => by cases none
    -- The report that is there already speaks of a target of another name.
    have kept : ∀ other ∈ targets, Stable bench.lab.runs place other.Names
        fun d => holds d ∧ bench.Vouches place target record d := by
      intro other member
      refine (rest other member).and fun d e keeps vouches => ⟨vouches.1, ?_⟩
      refine stable_tells own (fun name names again => ?_) _ d e keeps vouches.2
      have same := names.identifier_eq again (Target.identifier_mem own)
        (Target.identifier_mem (others other member))
      exact distinct.1 (same ▸ List.mem_map_of_mem member)
    refine ((ih others distinct.2 kept).narrow fun scene held => held record rfl).bind
      (fun records => ?_) fun _ _ _ _ none => by cases none
    refine .pure _ fun scene held all given => ?_
    obtain rfl := Except.ok.inj given
    have guards := held records rfl
    exact ⟨guards.secures, guards.secludes, guards.held.1.1,
      List.forall_mem_cons.mpr ⟨⟨target, own, guards.held.1.2⟩, guards.held.2⟩⟩

/-- The TiDB targets are tried behind the patch of the workspace, or given up without it. -/
theorem assures_tryVariants (planned : ∀ target ∈ bench.variants, target ∈ bench.planned)
    (stable : ∀ target ∈ bench.variants, Stable bench.lab.runs place target.Names holds) :
    Assures (bench.Respects place) (fun scene => bench.Guards place holds scene.disk)
      bench.tryVariants fun outcome scene => ∀ records, outcome = .ok records →
        bench.Guards place (fun d => holds d ∧ bench.VouchesAll place records d) scene.disk := by
  obtain ⟨target, first⟩ := List.exists_mem_of_ne_nil _ bench.variants_ne_nil
  -- Any of the variants will do to show that the patch leaves the runs safe.
  have patched := assures_of_upholds (stable target first) bench.upholds_adaptWorkspace
  refine patched.attempt_bind fun result => ?_
  cases result with
  | ok _ => exact assures_tryTargets real planned bench.variants_distinct stable
  -- With the patch the variants are tried; without it each is given up, and none of them tells
  -- anything.
  | error failure =>
    unfold Progress.ofResult
    dsimp only
    cases failure.isInterruption with
    | true => exact .throw failure fun _ _ _ none => by cases none
    | false =>
      refine .of_quiet ((quiet_warn _).bind fun _ => .pure _) fun s guards records given => ?_
      obtain rfl := Except.ok.inj given
      refine ⟨guards.secures, guards.secludes, guards.held, fun record member => ?_⟩
      obtain ⟨other, listed, rfl⟩ := List.mem_map.mp member
      exact ⟨other, planned other listed, rfl, fun _ _ _ none => by cases none⟩

/-- MySQL is tried if it is planned, and what its report tells is filed. -/
theorem assures_tryBaseline
    (planned : bench.options.skipMysql = false → Target.baseline bench.lab ∈ bench.planned) :
    Assures (bench.Respects place) (fun scene => bench.Guards place (fun _ => True) scene.disk)
      bench.tryBaseline fun outcome scene => ∀ records, outcome = .ok records →
        bench.Guards place (bench.VouchesBaseline place records) scene.disk := by
  unfold tryBaseline
  split
  · refine .pure _ fun scene guards records given => ?_
    obtain rfl := Except.ok.inj given
    exact ⟨guards.secures, guards.secludes, by simp [VouchesBaseline]⟩
  next taken =>
    have mine := planned (by simpa using taken)
    refine (assures_tryTarget real mine (fun _ _ _ => id) _).bind (fun record => ?_)
      fun _ _ _ _ none => by cases none
    refine .pure _ fun scene held records given => ?_
    obtain rfl := Except.ok.inj given
    have guards := held record rfl
    exact ⟨guards.secures, guards.secludes, List.forall_mem_singleton.mpr ⟨mine, guards.held.2⟩⟩

/-- All targets are tried, and what their reports tell is filed. -/
theorem assures_tryAll :
    Assures (bench.Respects place) (fun scene => bench.Guards place (fun _ => True) scene.disk)
      bench.tryAll fun outcome scene => ∀ records, outcome = .ok records →
        bench.VouchesAll place records scene.disk := by
  unfold tryAll
  split
  · refine .pure _ fun scene _ records given => ?_
    obtain rfl := Except.ok.inj given
    simp [VouchesAll]
  next runs =>
    -- What the options do not skip is planned.
    have planned : (bench.options.skipMysql = false → Target.baseline bench.lab ∈ bench.planned) ∧
        (bench.options.skipTidb = false → ∀ target ∈ bench.variants, target ∈ bench.planned) := by
      unfold Bench.planned
      rw [if_neg runs]
      exact ⟨fun taken => by simp [taken], fun taken target member => by simp [taken, member]⟩
    refine (assures_tryBaseline real planned.1).bind (fun records => ?_)
      fun _ _ _ _ none => by cases none
    split
    · refine .pure _ fun scene held all given => ?_
      obtain rfl := Except.ok.inj given
      exact (held records rfl).held.all
    next taken =>
      have rest := planned.2 (by simpa using taken)
      -- MySQL has come first, and no other target files under its names.
      have kept : ∀ target ∈ bench.variants, Stable bench.lab.runs place target.Names
          (bench.VouchesBaseline place records) := fun target member =>
        stable_vouchesBaseline (rest target member) (bench.identifier_variants target member) records
      refine ((assures_tryVariants real rest kept).narrow fun scene held => held records rfl).bind
        (fun others => ?_) fun _ _ _ _ none => by cases none
      refine .pure _ fun scene held whole given => ?_
      obtain rfl := Except.ok.inj given
      have guards := held others rfl
      exact List.forall_mem_append.mpr ⟨guards.held.1.all, guards.held.2⟩

/-- A comparison that ends with a report has filed what it tells, and compares the newest summaries that
are there in the end. -/
theorem assures_execute :
    Assures (bench.Respects place) (fun _ => True) bench.execute fun outcome scene =>
      ∀ report, outcome = .ok report → bench.VouchesAll place report.targets scene.disk ∧
        report.comparisons =
          if compares bench.options then Comparison.latest scene.disk bench.lab.runs else [] := by
  have same : bench.execute = bench.prepareRun >>= fun _ => bench.tryAll >>= fun targets =>
      bench.concludeReport targets := rfl
  rw [same]
  refine assures_prepareRun.bind (fun _ => ?_) fun _ _ _ _ none => by cases none
  refine ((assures_tryAll real).narrow fun scene held => held () rfl).bind (fun targets => ?_)
    fun _ _ _ _ none => by cases none
  refine .of_quiet (bench.quiet_concludeReport targets) fun s held report passed => ?_
  rw [outcome_concludeReport] at passed
  obtain rfl := Except.ok.inj passed
  -- Behind the targets the newest summaries are read and compared, and the tree stays as it is.
  have still : (bench.concludeReport targets).Upholds (· = s.scene.disk) :=
    upholds_concludeReport targets
  rw [still.after_of_quiet (bench.quiet_concludeReport targets) rfl]
  exact ⟨held targets rfl, rfl⟩

end Runs

end Bench

end DialectBench
