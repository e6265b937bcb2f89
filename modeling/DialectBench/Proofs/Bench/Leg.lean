import DialectBench.Proofs.Bench.Journal

/-! The parts of a comparison one by one: a leg is the work on a target, or what is done before. -/

namespace DialectBench

/-- A part of a comparison. -/
inductive Part where
  /-- Making the directories and looking for the container service. -/
  | opening
  /-- Patching the workspace for targets. -/
  | patching (plan : List Target)
  /-- Running a target, and cleaning up for one that follows. -/
  | trying (target : Target) (follows : Bool)

namespace Part

/-- The targets that a part runs. -/
def targets : Part → List Target
  | trying target _ => [target]
  | _ => []

/-- What a part does, and the reports that come of it. -/
def action (bench : Bench) : Part → Action (List TargetRecord)
  | opening => do
    bench.prepareRun
    return []
  | patching plan => do
    match Progress.ofResult (← Action.attempt bench.adaptWorkspace) with
    | .done _ => return []
    | .failed reason =>
      Action.warn "TiDB workspace patch failed; abandoning all variants"
      return plan.map fun target => ⟨target.identifier, .abandoned .adaptWorkspace reason⟩
    | .fatal failure => throw failure
  | trying target follows => do
    return [← bench.tryTarget target follows]

end Part

/-- The parts that run targets in turn. -/
def Target.parts : List Target → List Part
  | [] => []
  | target :: targets => .trying target (!targets.isEmpty) :: parts targets

/-- A part of a comparison that was begun. -/
structure Leg where
  /-- The part. -/
  part : Part
  /-- The session in which it began. -/
  before : Session
  /-- The reports that came of it. -/
  outcome : Except Failure (List TargetRecord)
  /-- The session in which it ended. -/
  after : Session

namespace Leg

/-- The calls of a leg, the oldest first. -/
def calls (leg : Leg) : List Exchange :=
  leg.after.since leg.before

/-- The part of a comparison in a session. -/
def of (bench : Bench) (part : Part) (s : Session) : Leg :=
  ⟨part, s, (part.action bench).outcome s, (part.action bench).after s⟩

/-- The next part follows, unless the leg failed or all further targets are given up. -/
def goesOn (leg : Leg) : Bool :=
  match leg.part, leg.outcome with
  | _, .error _ => false
  | .patching _, .ok records => records.isEmpty
  | _, .ok _ => true

end Leg

namespace Bench

/-- The TiDB targets of a comparison, whether or not it runs them. -/
def variants (bench : Bench) : List Target :=
  Target.variants bench.lab bench.options.tidbDialect

/-- The targets of a comparison in the order in which they run. -/
def planned (bench : Bench) : List Target :=
  if bench.options.compareOnly then []
  else (if bench.options.skipMysql then [] else [Target.baseline bench.lab]) ++
    if bench.options.skipTidb then [] else bench.variants

/-- The parts that patch the workspace and run the TiDB targets. -/
def variantParts (bench : Bench) : List Part :=
  .patching bench.variants :: Target.parts bench.variants

/-- The parts of a comparison. -/
def parts (bench : Bench) : List Part :=
  .opening :: if bench.options.compareOnly then []
    else (if bench.options.skipMysql then []
        else [.trying (Target.baseline bench.lab) (!bench.options.skipTidb)]) ++
      if bench.options.skipTidb then [] else bench.variantParts

/-- The legs of parts in turn. -/
def legsFrom (bench : Bench) : List Part → Session → List Leg
  | [], _ => []
  | part :: parts, s =>
    let leg := Leg.of bench part s
    leg :: if leg.goesOn then bench.legsFrom parts leg.after else []

/-- The legs of a comparison. -/
def legs (bench : Bench) (s : Session) : List Leg :=
  bench.legsFrom bench.parts s

end Bench

/-- The visits of a leg that tries a target: none if a request to stop was made before. -/
def Leg.visits (bench : Bench) (target : Target) (leg : Leg) : List Visit :=
  if leg.before.scene.interrupted then [] else bench.visits target leg.before

/-- A target is tried: nothing is done for it if a request to stop was made before, and else it goes
through its stages. -/
inductive Leg.Tries (bench : Bench) (target : Target) (leg : Leg) : Prop where
  /-- A request to stop was made before. -/
  | refused (asked : leg.before.scene.interrupted = true) (none : leg.calls = [])
      (outcome : leg.outcome = .error .interruption)
  /-- The target goes through its stages. -/
  | driven {t : Session} {last : List Exchange} (unasked : leg.before.scene.interrupted = false)
      (course : Course bench target target.stages leg.before (bench.visits target leg.before)
        ((bench.drive target).outcome leg.before) t)
      (ends : last.map Exchange.call =
        if (bench.visits target leg.before).any fun visit => visit.stage == .startDatabase then
          [.run (Bench.removeCommand target.container)] else [])
      (made : leg.calls = (bench.visits target leg.before).flatMap Visit.calls ++ last)
      (outcome : leg.outcome =
        ((bench.drive target).outcome leg.before).map fun status => [⟨target.identifier, status⟩])

namespace Leg.Tries

variable {bench : Bench} {target : Target} {leg : Leg}

/-- The calls for a target are those of its visits, and the removal of its container in the end if
its database was to be started. -/
theorem calls_eq (tries : leg.Tries bench target) :
    ∃ last, leg.calls = (leg.visits bench target).flatMap Visit.calls ++ last ∧
      last.map Exchange.call =
        if (leg.visits bench target).any fun visit => visit.stage == .startDatabase then
          [.run (Bench.removeCommand target.container)] else [] := by
  -- A target that is refused is not visited, so nothing is removed for it.
  cases tries with
  | refused asked none => exact ⟨[], by simp [none, visits, asked], by simp [visits, asked]⟩
  | @driven _ last unasked _ ends made =>
    exact ⟨last, by simp [made, visits, unasked], by simpa [visits, unasked] using ends⟩

/-- What comes of going through the stages is what is reported for a target. -/
theorem fate (tries : leg.Tries bench target) {status : TargetFate}
    (reported : leg.outcome = .ok [⟨target.identifier, status⟩]) :
    leg.before.scene.interrupted = false ∧
      (bench.drive target).outcome leg.before = .ok status := by
  cases tries with
  | refused _ _ outcome =>
    rw [outcome] at reported
    cases reported
  | driven unasked _ _ _ outcome =>
    rw [outcome] at reported
    -- The report is made of what comes of the stages, so that is a fate.
    obtain ⟨other, decided, same⟩ := map_eq_ok.mp reported
    have same : other = status := by simpa using same
    exact ⟨unasked, same ▸ decided⟩

/-- A target that is given up at one of its opening stages has not come to its database. -/
theorem idle_of_abandoned (tries : leg.Tries bench target) {stage : Stage} {reason : String}
    (reported : leg.outcome = .ok [⟨target.identifier, .abandoned stage reason⟩])
    (early : stage ∈ target.openingStages) :
    ∀ visit ∈ leg.visits bench target, visit.stage ≠ .startDatabase := by
  obtain ⟨-, abandoned⟩ := tries.fate reported
  -- A target that is refused is not reported, and has no visits in any case.
  cases tries with
  | refused asked => simp [visits, asked]
  | driven unasked course =>
    rw [visits, unasked]
    exact course.idle_of_abandoned abandoned early

/-- Without the start of its database the calls for a target are those of its opening. -/
theorem unstarted (tries : leg.Tries bench target)
    (idle : ∀ visit ∈ leg.visits bench target, visit.stage ≠ .startDatabase) :
    leg.calls.map Exchange.call <+: (bench.openingCommands target).map .run := by
  cases tries with
  | refused _ none => simp [none]
  | driven unasked course ends made =>
    rw [visits, unasked] at idle
    -- Without that visit nothing is removed in the end, so the visits make all calls.
    have nothing : ((bench.visits target leg.before).any
        fun visit => visit.stage == .startDatabase) = false := by
      simpa using idle
    rw [nothing] at ends
    rw [made, List.map_eq_nil_iff.mp ends, List.append_nil]
    exact course.unstarted idle

/-- The calls for a target make a journal. -/
theorem journal (tries : leg.Tries bench target) : Journal bench target leg.calls := by
  cases tries with
  | refused _ none => exact none ▸ .unstarted (by simp)
  | driven _ course ends made => exact made ▸ course.journal ends

end Leg.Tries

/-- The workspace is patched for targets: all of them are given up if that fails. -/
structure Leg.Patches (bench : Bench) (plan : List Target) (leg : Leg) : Prop where
  /-- The patch is a stage of its own. -/
  performs : (Visit.of .adaptWorkspace bench.adaptWorkspace leg.before).Performs
    bench.patchCommands leg.calls
  /-- The reports say why the patch failed. -/
  outcome : leg.outcome =
    match bench.adaptWorkspace.outcome leg.before with
    | .ok _ => .ok []
    | .error failure =>
      if failure.isInterruption then .error failure
      else .ok (plan.map fun target =>
        ⟨target.identifier, .abandoned .adaptWorkspace failure.account⟩)

/-- What a leg does. -/
def Leg.Does (bench : Bench) (leg : Leg) : Prop :=
  match leg.part with
  | .opening => leg.calls.map Exchange.call <+: [.run Bench.infoCommand] ∧
      ∀ records, leg.outcome = .ok records → records = []
  | .patching plan => leg.Patches bench plan
  | .trying target _ => leg.Tries bench target

/-- A leg leads through its calls and does what it should. -/
structure Leg.Fits (bench : Bench) (leg : Leg) : Prop where
  /-- The calls lead from its start to its end. -/
  leads : leg.before.Leads leg.calls leg.after
  /-- They are the calls of its part. -/
  does : leg.Does bench

namespace Leg.Fits

variable {bench : Bench} {leg : Leg}

/-- The opening asks at most for the container service, and reports nothing. -/
theorem opens (fits : leg.Fits bench) (part : leg.part = .opening) :
    leg.calls.map Exchange.call <+: [Bench.infoCommand].map .run ∧
      ∀ records, leg.outcome = .ok records → records = [] := by
  have does := fits.does
  rwa [Does, part] at does

/-- A leg that patches the workspace does so for the targets of its plan. -/
theorem patches (fits : leg.Fits bench) {plan : List Target} (part : leg.part = .patching plan) :
    leg.Patches bench plan := by
  have does := fits.does
  rwa [Does, part] at does

/-- A leg that tries a target tries that one. -/
theorem tries (fits : leg.Fits bench) {target : Target} {follows : Bool}
    (part : leg.part = .trying target follows) : leg.Tries bench target := by
  have does := fits.does
  rwa [Does, part] at does

end Leg.Fits

namespace Bench

open DialectBench.Action

variable (bench : Bench) (s : Session)

/-- The calls of a leg are those that its action makes. -/
theorem leads_of (part : Part) {calls : List Exchange}
    (led : s.Leads calls ((part.action bench).after s)) :
    s.Leads (Leg.of bench part s).calls (Leg.of bench part s).after ∧
      (Leg.of bench part s).calls = calls := by
  have same : (Leg.of bench part s).calls = calls := led.since_eq
  exact ⟨same ▸ led, same⟩

/-- The first leg asks at most for the container service. -/
theorem fits_opening : (Leg.of bench .opening s).Fits bench := by
  -- What follows the preparation only gives an empty report.
  obtain ⟨calls, led, made, -⟩ := bench.runs_prepareRun.bind (fun _ => (Quiet.pure []).runs) s
  obtain ⟨led, same⟩ := bench.leads_of s .opening led
  refine ⟨led, same ▸ made, fun records passed => ?_⟩
  obtain ⟨-, -, passed⟩ := outcome_bind_eq_ok.mp passed
  cases passed
  rfl

/-- What comes of patching the workspace for targets is what comes of the patch. -/
theorem outcome_patching (plan : List Target) :
    (Leg.of bench (.patching plan) s).outcome =
      match bench.adaptWorkspace.outcome s with
      | .ok _ => .ok []
      | .error failure =>
        if failure.isInterruption then .error failure
        else .ok (plan.map fun target =>
          ⟨target.identifier, .abandoned .adaptWorkspace failure.account⟩) := by
  show ((Part.patching plan).action bench).outcome s = _
  rw [Part.action, outcome_bind_of_ok (outcome_attempt _ s)]
  -- The patch is attempted, so its failure is a report unless it is an interruption.
  cases result : bench.adaptWorkspace.outcome s with
  | ok value => simp [Progress.ofResult]
  | error failure =>
    cases interrupted : failure.isInterruption <;>
      simp [Progress.ofResult, interrupted, Except.map]

/-- Behind the patch of the workspace a leg only tells and reports. -/
theorem leads_patching (plan : List Target) {calls : List Exchange}
    (led : s.Leads calls (bench.adaptWorkspace.after s)) :
    s.Leads calls (((Part.patching plan).action bench).after s) := by
  refine leads_bind_quiet (by rwa [after_attempt]) fun result => ?_
  cases Progress.ofResult result with
  | done value => exact Quiet.pure _
  | failed reason => exact (quiet_warn _).bind fun _ => Quiet.pure _
  | fatal failure => exact Quiet.throw _

/-- Patching the workspace is a stage, and without it all targets are given up. -/
theorem fits_patching (plan : List Target) : (Leg.of bench (.patching plan) s).Fits bench := by
  obtain ⟨led, performs⟩ :=
    Visit.performs_of_runs .adaptWorkspace bench.runs_adaptWorkspace s
  obtain ⟨led, same⟩ := bench.leads_of s (.patching plan) (bench.leads_patching s plan led)
  exact ⟨led, same ▸ performs, bench.outcome_patching s plan⟩

/-- Removing directories as far as possible is quiet. -/
theorem quiet_removeAll (paths : List Path) : (removeAll paths).Quiet := by
  induction paths with
  | nil => exact Quiet.pure ()
  | cons path paths ih =>
    refine (quiet_removeIfPresent path).attempt.bind fun result => ?_
    -- A directory that stays is told, and the others are still removed.
    cases result with
    | ok removed => exact ih
    | error failure => exact (quiet_warn _).bind fun _ => ih

/-- Removing directories as far as possible never fails. -/
theorem outcome_removeAll (paths : List Path) (s : Session) :
    (removeAll paths).outcome s = .ok () := by
  -- What is left of each removal is where the next one begins, so the session stays open.
  induction paths generalizing s with
  | nil => rfl
  | cons path paths ih =>
    rw [removeAll, outcome_bind_of_ok (outcome_attempt _ s)]
    cases (Action.removeIfPresent path).outcome s with
    | ok removed => exact ih _
    | error failure => exact (outcome_bind_of_ok rfl _).trans (ih _)

/-- Cleaning up between targets is quiet. -/
theorem quiet_cleanResults : bench.cleanResults.Quiet := by
  refine (quiet_look _).bind fun doomed => ?_
  -- A rehearsal only tells how many directories would go.
  split
  · exact Quiet.tell _
  · exact quiet_removeAll doomed

/-- Cleaning up between targets never fails. -/
theorem outcome_cleanResults : bench.cleanResults.outcome s = .ok () := by
  rw [cleanResults, outcome_bind_of_ok (outcome_look _ s)]
  split
  · rfl
  · exact outcome_removeAll _ _

/-- A target goes through its stages unless a request to stop was made before, and cleaning up after
it is quiet. -/
theorem tryTarget_eq (target : Target) (follows : Bool) :
    bench.tryTarget target follows = Action.stopIfAsked >>= fun _ =>
      bench.drive target >>= fun status =>
      (if follows then bench.cleanResults else pure ()) >>= fun _ =>
      pure ⟨target.identifier, status⟩ := by
  unfold tryTarget
  refine bind_congr fun _ => bind_congr fun status => ?_
  -- Cleaning up is the branch of a condition in front of the report.
  cases follows <;> simp

/-- What comes of a target that is tried is what comes of its stages. -/
theorem outcome_trying {target : Target} (follows : Bool) (unasked : s.scene.interrupted = false) :
    ((Part.trying target follows).action bench).outcome s =
      ((bench.drive target).outcome s).map fun status => [⟨target.identifier, status⟩] := by
  -- Nobody asked to stop before, and cleaning up cannot fail.
  have goes : stopIfAsked.outcome s = .ok () := by simp [unasked]
  have cleans : ∀ t, (if follows then bench.cleanResults else pure ()).outcome t = .ok () := by
    intro t
    split
    · exact bench.outcome_cleanResults t
    · rfl
  rw [Part.action, outcome_bind, tryTarget_eq, outcome_bind_of_ok goes, after_stopIfAsked]
  cases result : (bench.drive target).outcome s with
  | error failure => simp [outcome_bind_of_error result, Except.map]
  | ok status => simp [outcome_bind_of_ok result, cleans, Except.map]

/-- Trying a target is going through its stages. -/
theorem fits_trying (target : Target) (follows : Bool) :
    (Leg.of bench (.trying target follows) s).Fits bench := by
  cases asked : s.scene.interrupted with
  -- The request is met at once, so nothing is called.
  | true =>
    have stops : stopIfAsked.outcome s = .error .interruption := by simp [asked]
    have same : (Part.trying target follows).action bench = Action.stopIfAsked >>= fun _ =>
        bench.drive target >>= fun status =>
        (if follows then bench.cleanResults else pure ()) >>= fun _ =>
        pure [⟨target.identifier, status⟩] := by
      simp [Part.action, tryTarget_eq]
    have led : s.Leads [] (((Part.trying target follows).action bench).after s) := by
      rw [same, after_bind_of_error stops, after_stopIfAsked]
      exact .refl s
    obtain ⟨led, none⟩ := bench.leads_of s (.trying target follows) led
    refine ⟨led, .refused asked none ?_⟩
    show ((Part.trying target follows).action bench).outcome s = _
    rw [same, outcome_bind_of_error stops]
  -- The stages and the removal in the end make the calls, and cleaning up makes none.
  | false =>
    obtain ⟨t, course, closed⟩ := bench.follows_drive target s
    obtain ⟨last, ended, ends⟩ := bench.leads_teardown target (bench.visits target s) t
    have driven := course.leads.trans ended
    rw [← closed] at driven
    have goes : stopIfAsked.outcome s = .ok () := by simp [asked]
    have led : s.Leads ((bench.visits target s).flatMap Visit.calls ++ last)
        (((Part.trying target follows).action bench).after s) := by
      refine leads_bind_quiet ?_ fun _ => Quiet.pure _
      rw [tryTarget_eq, after_bind_of_ok goes, after_stopIfAsked]
      refine leads_bind_quiet driven fun status => Quiet.bind ?_ fun _ => Quiet.pure _
      split
      · exact bench.quiet_cleanResults
      · exact Quiet.pure ()
    obtain ⟨led, made⟩ := bench.leads_of s (.trying target follows) led
    exact ⟨led, .driven asked course ends made (bench.outcome_trying s follows asked)⟩

/-- Targets are run after a patch only if none of them was given up for it. -/
theorem goesOn_patching {plan : List Target} {records : List TargetRecord}
    (passed : (Leg.of bench (.patching plan) s).outcome = .ok records) :
    (Leg.of bench (.patching plan) s).goesOn = records.isEmpty := by
  rw [Leg.goesOn, passed]
  rfl

/-- Every leg of a comparison does what it should. -/
theorem fits_leg (part : Part) : (Leg.of bench part s).Fits bench := by
  cases part with
  | opening => exact bench.fits_opening s
  | patching plan => exact bench.fits_patching s plan
  | trying target follows => exact bench.fits_trying s target follows

end Bench

namespace Bench

variable {bench : Bench} {plan : List Target} {s : Session} {records : List TargetRecord}

/-- Targets are given up for a patch that failed without an interruption. -/
theorem unpatched (passed : (Leg.of bench (.patching plan) s).outcome = .ok records)
    (off : (Leg.of bench (.patching plan) s).goesOn = false) :
    ∃ failure, bench.adaptWorkspace.outcome s = .error failure ∧
      failure.isInterruption = false ∧
      records = plan.map fun target =>
        ⟨target.identifier, .abandoned .adaptWorkspace failure.account⟩ := by
  have given := bench.goesOn_patching s passed ▸ off
  have does := bench.outcome_patching s plan
  rw [passed] at does
  -- A patch that succeeds reports nothing and goes on, so this one failed.
  cases result : bench.adaptWorkspace.outcome s with
  | ok value =>
    have none : records = [] := by simpa [result] using does
    simp [none] at given
  | error failure =>
    cases interrupted : failure.isInterruption with
    | true => simp [result, interrupted] at does
    | false => exact ⟨failure, rfl, interrupted, by simpa [result, interrupted] using does⟩

/-- Targets are run behind a patch only if it succeeded. -/
theorem patched (passed : (Leg.of bench (.patching plan) s).outcome = .ok records)
    (on : (Leg.of bench (.patching plan) s).goesOn = true) (some : plan ≠ []) :
    ∃ value, bench.adaptWorkspace.outcome s = .ok value := by
  have none : records = [] := by simpa [bench.goesOn_patching s passed] using on
  have does := bench.outcome_patching s plan
  rw [passed, none] at does
  -- A patch that fails reports a target at least, and then nothing follows.
  cases result : bench.adaptWorkspace.outcome s with
  | ok value => exact ⟨value, rfl⟩
  | error failure =>
    cases interrupted : failure.isInterruption <;> simp [result, interrupted, some] at does

end Bench

end DialectBench
