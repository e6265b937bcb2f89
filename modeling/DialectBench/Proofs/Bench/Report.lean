import DialectBench.Proofs.Bench.Opening
import Mathlib.Data.List.Forall2

/-! The report of a comparison tells of every planned target once, and tells the truth. -/

namespace DialectBench

/-- What legs have to do with the report of a target. -/
inductive Settled (bench : Bench) (legs : List Leg) (target : Target) : TargetRecord → Prop where
  /-- A leg tried the target. -/
  | tried {leg : Leg} {follows : Bool} {status : TargetFate} (member : leg ∈ legs)
      (part : leg.part = .trying target follows) (tries : leg.Tries bench target)
      (outcome : leg.outcome = .ok [⟨target.identifier, status⟩]) :
    Settled bench legs target ⟨target.identifier, status⟩
  /-- The last leg could not patch the workspace for the target. -/
  | unpatched {front : List Leg} {leg : Leg} {plan : List Target} {failure : Failure}
      (legs_eq : legs = front ++ [leg]) (part : leg.part = .patching plan) (mine : target ∈ plan)
      (failed : bench.adaptWorkspace.outcome leg.before = .error failure)
      (ordinary : failure.isInterruption = false) :
    Settled bench legs target ⟨target.identifier, .abandoned .adaptWorkspace failure.account⟩

/-- What settles a target with some legs settles it with more of them before. -/
theorem Settled.cons {bench : Bench} {legs : List Leg} {target : Target} {record : TargetRecord}
    (settled : Settled bench legs target record) (leg : Leg) :
    Settled bench (leg :: legs) target record := by
  -- A leg that is found is found behind one more, and the last leg stays the last one.
  cases settled with
  | tried member part tries outcome =>
    exact .tried (List.mem_cons_of_mem leg member) part tries outcome
  | @unpatched front _ _ _ legs_eq part mine failed ordinary =>
    exact .unpatched (legs_eq ▸ rfl : leg :: legs = (leg :: front) ++ _) part mine failed ordinary

/-- A target that is tried is reported with what came of it. -/
theorem Leg.Tries.reported {bench : Bench} {target : Target} {leg : Leg}
    (tries : leg.Tries bench target) {records : List TargetRecord}
    (passed : leg.outcome = .ok records) : ∃ status, records = [⟨target.identifier, status⟩] := by
  -- A target that is refused is not reported.
  cases tries with
  | refused _ _ outcome =>
    rw [outcome] at passed
    cases passed
  | driven _ _ _ _ outcome =>
    rw [outcome] at passed
    obtain ⟨status, -, rfl⟩ := map_eq_ok.mp passed
    exact ⟨status, rfl⟩

/-- The reports of a journey settle the targets of its parts in turn. -/
theorem Journey.settles {bench : Bench} {parts : List Part} {s t : Session} {legs : List Leg}
    {outcome : Except Failure (List TargetRecord)} (journey : Journey bench parts s legs outcome t)
    {records : List TargetRecord} (reported : outcome = .ok records) :
    List.Forall₂ (Settled bench legs) (parts.flatMap Part.targets) records := by
  -- Each part settles its own targets, and the reports of the parts follow one another.
  induction journey generalizing records with
  | finished =>
    cases reported
    exact .nil
  | @goes part parts s t legs first outcome passed on _ ih =>
    -- The reports of the leg come before those of the others.
    obtain ⟨others, rfl, rfl⟩ := map_eq_ok.mp reported
    have later := (ih rfl).imp fun _ _ settled => settled.cons (Leg.of bench part s)
    have fits := bench.fits_leg s part
    cases part with
    | opening =>
      rw [(fits.opens rfl).2 first passed]
      exact later
    | patching plan =>
      have none : first = [] := by simpa [bench.goesOn_patching s passed] using on
      rw [none]
      exact later
    -- The only target of the part is settled by its leg.
    | trying target follows =>
      obtain ⟨status, rfl⟩ := (fits.tries rfl).reported passed
      exact .cons (.tried (by simp) rfl (fits.tries rfl) passed) later
  | @givenUp plan s reports passed off =>
    cases reported
    obtain ⟨failure, failed, ordinary, rfl⟩ := Bench.unpatched passed off
    -- The targets behind the patch are those of its plan, and all are given up in one way.
    rw [List.flatMap_cons, Bench.flatMap_targets_parts]
    refine List.forall₂_map_right_iff.mpr (List.forall₂_same.mpr fun target mine => ?_)
    exact .unpatched (List.nil_append _).symm rfl mine failed ordinary
  | stopped => cases reported

/-- The report of a target tells what became of it in a comparison. -/
inductive Accounted (bench : Bench) (s : Session) (target : Target) : TargetRecord → Prop where
  /-- The target went through all its stages, no stage failed, and the exit code is that of the
  command that was watched for it. -/
  | completed {leg : Leg} {follows : Bool} {removal stream : Exchange} {ending : Ending}
      {collection summary : Path} (member : leg ∈ bench.legs s)
      (part : leg.part = .trying target follows)
      (fits : ∀ visit ∈ leg.visits bench target, visit.Fits bench target)
      (all : (leg.visits bench target).map Visit.stage = target.stages)
      (passed : ∀ visit ∈ leg.visits bench target, visit.failure = none)
      (calls : leg.calls = (leg.visits bench target).flatMap Visit.calls ++ [removal])
      (removes : removal.call = .run (Bench.removeCommand target.container))
      (made : stream ∈ leg.calls) (watches : stream.Watches (.ok ending))
      (only : ∀ other ∈ leg.calls, other.IsWatched → other = stream) :
    Accounted bench s target
      ⟨target.identifier, .completed collection summary ending.exitCode⟩
  /-- The target was given up at the first stage that failed, and nothing was called for a later
  one. -/
  | abandoned {leg : Leg} {follows : Bool} {earlier : List Visit} {visit : Visit}
      {failure : Failure} {removals : List Exchange} (member : leg ∈ bench.legs s)
      (part : leg.part = .trying target follows)
      (fits : ∀ visit ∈ leg.visits bench target, visit.Fits bench target)
      (visits : leg.visits bench target = earlier ++ [visit])
      (first : (leg.visits bench target).map Visit.stage <+: target.stages)
      (passed : ∀ other ∈ earlier, other.failure = none) (failed : visit.failure = some failure)
      (ordinary : failure.isInterruption = false)
      (calls : leg.calls = (leg.visits bench target).flatMap Visit.calls ++ removals)
      (removes : ∀ removal ∈ removals,
        removal.call = .run (Bench.removeCommand target.container)) :
    Accounted bench s target ⟨target.identifier, .abandoned visit.stage failure.account⟩
  /-- The workspace could not be patched, and nothing was called for the target. -/
  | unpatched {front : List Leg} {leg : Leg} {failure : Failure}
      (legs_eq : bench.legs s = front ++ [leg]) (part : leg.part = .patching bench.variants)
      (mine : target ∈ bench.variants)
      (failed : bench.adaptWorkspace.outcome leg.before = .error failure)
      (ordinary : failure.isInterruption = false)
      (alone : ∀ other ∈ bench.legs s, ∀ follows, other.part ≠ .trying target follows) :
    Accounted bench s target ⟨target.identifier, .abandoned .adaptWorkspace failure.account⟩

/-- A target that a leg tried is accounted for by that leg. -/
theorem Leg.Tries.accounted {bench : Bench} {s : Session} {target : Target} {leg : Leg}
    {follows : Bool} {status : TargetFate} (tries : leg.Tries bench target)
    (member : leg ∈ bench.legs s) (part : leg.part = .trying target follows)
    (outcome : leg.outcome = .ok [⟨target.identifier, status⟩]) :
    Accounted bench s target ⟨target.identifier, status⟩ := by
  obtain ⟨unasked, decided⟩ := tries.fate outcome
  have journal := tries.journal
  have same : leg.visits bench target = bench.visits target leg.before := by
    simp [Leg.visits, unasked]
  cases tries with
  | refused asked => simp [asked] at unasked
  | @driven _ last _ course ends made =>
    rw [decided] at course
    rw [← same] at course ends made
    have fits : ∀ visit ∈ leg.visits bench target, visit.Fits bench target := fun _ => course.fits
    -- Either all stages were passed, or the first one that failed decides.
    obtain ⟨all, passed, collection, summary, code, completed⟩ |
      ⟨earlier, visit, failure, visits, passed, failed, decides⟩ := course.account
    · cases completed
      obtain ⟨visit, there, -, stream, within, ending, watches, rfl⟩ :=
        Bench.exitCode_of_drive decided
      rw [← same] at there
      have made' : stream ∈ leg.calls :=
        made ▸ List.mem_append_left last (List.mem_flatMap.mpr ⟨visit, there, within⟩)
      -- All stages were visited, the start of the database among them, so its container is removed.
      have started : ((leg.visits bench target).any
          fun visit => visit.stage == .startDatabase) = true := by
        have begun : Stage.startDatabase ∈ (leg.visits bench target).map Visit.stage :=
          all ▸ List.mem_append_right _ (by simp)
        obtain ⟨first, member, named⟩ := List.mem_map.mp begun
        exact List.any_eq_true.mpr ⟨first, member, by simp [named]⟩
      rw [if_pos started] at ends
      obtain ⟨removal, rfl, removes⟩ := List.map_eq_singleton_iff.mp ends
      exact .completed member part fits all passed made removes made' watches
        fun other also sees => journal.watched_unique also sees made' watches.1
    -- A stage that was interrupted would not be reported.
    · cases interrupted : failure.isInterruption with
      | true => simp [interrupted] at decides
      | false =>
        simp only [interrupted] at decides
        cases decides
        refine .abandoned member part fits visits course.stages_prefix passed failed interrupted made
          fun removal there => ?_
        have call := ends ▸ List.mem_map_of_mem there
        split at call
        · exact List.mem_singleton.mp call
        · cases call

/-- Behind a patch that is the last leg no TiDB target is tried, and none is tried before it. -/
theorem Bench.untried_of_last_patch {bench : Bench} {s : Session} {front : List Leg} {leg : Leg}
    {plan : List Target} {target : Target} (legs_eq : bench.legs s = front ++ [leg])
    (part : leg.part = .patching plan) (variant : target ∈ bench.variants) :
    ∀ other ∈ bench.legs s, ∀ follows, other.part ≠ .trying target follows := by
  obtain ⟨-, lead, -⟩ := Bench.legs_around_patch legs_eq part
  intro other member follows trying
  rw [legs_eq] at member
  -- A leg before the patch tries MySQL at most, and there is none behind it.
  rcases List.mem_append.mp member with early | last
  · have there : other.part ∈ bench.leadParts := lead ▸ List.mem_map_of_mem early
    exact (Bench.leadParts_apart there).2 target variant follows trying
  · rw [List.mem_singleton.mp last, part] at trying
    cases trying

/-- What settles a planned target of a comparison accounts for it. -/
theorem Settled.accounted {bench : Bench} {s : Session} {target : Target} {record : TargetRecord}
    (settled : Settled bench (bench.legs s) target record) : Accounted bench s target record := by
  cases settled with
  | tried member part tries outcome => exact tries.accounted member part outcome
  | unpatched legs_eq part mine failed ordinary =>
    obtain ⟨rfl, -⟩ := Bench.legs_around_patch legs_eq part
    exact .unpatched legs_eq part mine failed ordinary
      (Bench.untried_of_last_patch legs_eq part mine)

/-- When the workspace cannot be patched every TiDB target is given up for that, and none of them is
tried. -/
theorem Bench.givenUp_of_unpatched {bench : Bench} {s : Session} {report : BenchReport}
    (reported : bench.execute.outcome s = .ok report) {leg : Leg} {plan : List Target}
    {failure : Failure} (member : leg ∈ bench.legs s) (part : leg.part = .patching plan)
    (failed : bench.adaptWorkspace.outcome leg.before = .error failure) {target : Target}
    (variant : target ∈ bench.variants) :
    ⟨target.identifier, .abandoned .adaptWorkspace failure.account⟩ ∈ report.targets ∧
      ∀ other ∈ bench.legs s, ∀ follows, other.part ≠ .trying target follows := by
  obtain ⟨front, back, legs_eq⟩ := List.append_of_mem member
  obtain ⟨rfl, -⟩ := Bench.legs_around_patch legs_eq part
  obtain ⟨t, journey, -⟩ := bench.journey s
  rw [reported] at journey
  cases back with
  | cons next back =>
    -- Another leg follows a patch only if it succeeded.
    obtain ⟨same, on, records, passed⟩ := journey.goesOn legs_eq
    rw [same, part] at on passed
    obtain ⟨value, succeeded⟩ := Bench.patched passed on bench.variants_ne_nil
    rw [failed] at succeeded
    cases succeeded
  | nil =>
    refine ⟨?_, Bench.untried_of_last_patch legs_eq part variant⟩
    obtain ⟨_, whole, kept, -⟩ | ⟨_, _, _, -, -, stopped⟩ := journey.account
    · cases whole
      obtain ⟨own, passed, within⟩ := kept leg member
      have outcome := ((Bench.fits_of_mem member).patches part).outcome
      rw [failed, passed] at outcome
      cases interrupted : failure.isInterruption with
      | true => simp [interrupted] at outcome
      | false =>
        -- The reports of the last leg are kept, and they are those of the TiDB targets.
        simp only [interrupted] at outcome
        cases outcome
        exact within (List.mem_map_of_mem variant)
    · cases stopped

/-- The report of a target bears its name. -/
theorem Accounted.identifier_eq {bench : Bench} {s : Session} {target : Target}
    {record : TargetRecord} (accounted : Accounted bench s target record) :
    record.identifier = target.identifier := by
  cases accounted <;> rfl

/-- The reports of targets bear their names in turn. -/
theorem identifiers_eq {bench : Bench} {s : Session} {targets : List Target}
    {records : List TargetRecord} (accounted : List.Forall₂ (Accounted bench s) targets records) :
    records.map TargetRecord.identifier = targets.map Target.identifier := by
  -- Reports and targets are gone through side by side.
  induction accounted with
  | nil => rfl
  | cons first _ ih => rw [List.map_cons, List.map_cons, first.identifier_eq, ih]

/-- A target was given up when its status says so. -/
theorem isGivenUp_iff (record : TargetRecord) :
    record.isGivenUp = true ↔ ∃ stage reason, record.status = .abandoned stage reason := by
  unfold TargetRecord.isGivenUp
  cases record.status <;> simp

/-- The exit code of a report is two if a target was given up, and else zero. -/
theorem exitCode_cases (report : BenchReport) :
    (report.exitCode = 2 ∨ report.exitCode = 0) ∧
      (report.exitCode = 2 ↔
        ∃ record ∈ report.targets, ∃ stage reason, record.status = .abandoned stage reason) := by
  simp only [← isGivenUp_iff]
  unfold BenchReport.exitCode
  -- A report with a target that was given up has the code two, and any other one zero.
  cases given : report.targets.any TargetRecord.isGivenUp with
  | true => simpa using given
  | false => simpa using given

/-- A report accounts for the targets of a comparison. -/
structure BenchReport.Accounts (bench : Bench) (s : Session) (report : BenchReport) : Prop where
  /-- The planned targets are reported, each once and in order. -/
  names : report.targets.map TargetRecord.identifier = bench.planned.map Target.identifier
  /-- What is reported of a target is what became of it. -/
  accounted : List.Forall₂ (Accounted bench s) bench.planned report.targets
  /-- When the workspace cannot be patched every TiDB target is given up, and none is tried. -/
  unpatched : ∀ leg ∈ bench.legs s, ∀ plan, leg.part = .patching plan → ∀ failure,
    bench.adaptWorkspace.outcome leg.before = .error failure → ∀ target ∈ bench.variants,
      ⟨target.identifier, .abandoned .adaptWorkspace failure.account⟩ ∈ report.targets ∧
        ∀ other ∈ bench.legs s, ∀ follows, other.part ≠ .trying target follows
  /-- The calls are those of the legs in turn. -/
  trace : bench.execute.trace s = (bench.legs s).flatMap Leg.calls
  /-- The legs are the first parts of the comparison. -/
  parts : (bench.legs s).map Leg.part <+: bench.parts
  /-- The exit code is two or zero. -/
  code : report.exitCode = 2 ∨ report.exitCode = 0
  /-- It is two when a target was given up, and only then. -/
  givenUp : report.exitCode = 2 ↔
    ∃ record ∈ report.targets, ∃ stage reason, record.status = .abandoned stage reason

/-- A comparison that ends reports every planned target once and in order, and what it reports is
what became of it; its exit code tells whether one was given up. -/
theorem report_accounts_for_targets (bench : Bench) (s : Session) (report : BenchReport)
    (reported : bench.execute.outcome s = .ok report) : report.Accounts bench s := by
  obtain ⟨t, journey, -⟩ := bench.journey s
  rw [reported] at journey
  -- The reports of the journey belong to the targets of its parts, and those are the planned ones.
  have settles := journey.settles rfl
  rw [Bench.flatMap_targets_planned] at settles
  have accounted := settles.imp fun _ _ settled => settled.accounted
  obtain ⟨code, givenUp⟩ := exitCode_cases report
  exact {
    names := identifiers_eq accounted
    accounted
    unpatched := fun leg member plan part failure failed target variant =>
      Bench.givenUp_of_unpatched reported member part failed variant
    trace := (bench.leads_execute s).since_eq
    parts := bench.parts_prefix s
    code
    givenUp }

/-- A comparison in which the caches cannot be cleaned. -/
def Bench.unclean : Bench :=
  .sample false [{ pattern := "gradlew clean", status := 1 }]

/-- Where the caches cannot be cleaned the only target is given up for that, and the report accounts
for it. -/
theorem unclean_report_accounts :
    ∃ report, Bench.unclean.execute.outcome .sample = .ok report ∧ report.exitCode = 2 ∧
      report.Accounts Bench.unclean .sample := by
  have answers : (Action.run Bench.unclean.runner Bench.infoCommand).outcome .sample =
      .ok ⟨0, "", ""⟩ := by decide
  obtain ⟨report, reported, code⟩ : ∃ report,
      Bench.unclean.execute.outcome .sample = .ok report ∧ report.exitCode = 2 :=
    Bench.sample_exitCode answers rfl (by decide +kernel)
  exact ⟨report, reported, code,
    report_accounts_for_targets Bench.unclean .sample report reported⟩

end DialectBench
