import DialectBench.Program
import DialectBench.Proofs.Bench.Opening

/-! A request to stop ends a comparison, except where the last failure hides it. -/

namespace DialectBench

section Course

variable {bench : Bench} {target : Target} {s t : Session} {visits : List Visit}
  {outcome : Except Failure TargetFate}

/-- Only an interruption stops a target without a report. -/
theorem Course.isInterruption {stages : List Stage}
    (course : Course bench target stages s visits outcome t) {failure : Failure}
    (stopped : outcome = .error failure) : failure.isInterruption = true := by
  -- A failure that is no interruption would have given the target up instead.
  induction course with
  | completed | abandoned => cases stopped
  | passed _ _ _ _ _ ih => exact ih stopped
  | stopped _ _ _ _ interruption =>
    cases stopped
    exact interruption

/-- The stages of a target end with what follows the launch of its tests. -/
theorem Target.stages_eq (target : Target) :
    target.stages =
      (target.openingStages ++ [.startDatabase]) ++ ([.launchTests] ++ [.collect, .summarize]) := by
  simp [stages]

/-- A target that passes all its stages meets no request to stop up to the end of its tests. -/
theorem Passes.watched_before (passes : Passes bench target target.stages s visits t)
    {last before after : List Exchange} {exchange : Exchange}
    (calls : visits.flatMap Visit.calls ++ last = before ++ exchange :: after)
    (raised : exchange.Raises) : ∃ stream ∈ before, stream.IsWatched := by
  -- The visits are split right behind the launch of the tests.
  rw [Target.stages_eq] at passes
  obtain ⟨opening, _, u, rfl, opens, goes⟩ := passes.split
  obtain ⟨launching, ending, v, rfl, launches, -⟩ := goes.split
  obtain ⟨launch, rfl, fits, named, rfl, passed, rfl⟩ := launches.single
  obtain ⟨stream, result, rest, made, streams, -, -, decides⟩ := fits.tests named
  -- The tests are passed only if no request to stop holds behind them.
  have unasked : launch.after.scene.interrupted = false := by
    rw [passed] at decides
    cases result with
    | error failure => cases decides
    | ok watched => simpa using decides
  -- Up to the end of the launch a request would still hold, so none was made.
  have led := opens.leads.trans fits.leads
  have none : ∀ other ∈ opening.flatMap Visit.calls ++ launch.calls, ¬ other.Raises := by
    intro other member raises
    simp [led.interrupted_of_raises member raises] at unasked
  have whole : opening.flatMap Visit.calls ++ stream :: (rest ++ ending.flatMap Visit.calls ++ last) =
      before ++ exchange :: after := by
    simpa [made] using calls
  -- The call that raised it lies behind the watched one.
  refine ⟨stream, mem_of_append_eq whole (fun other member => none other ?_) (none stream ?_) raised,
    _, _, _, streams⟩
  · exact List.mem_append_left _ member
  · simp [made]

end Course

namespace Leg.Tries

variable {bench : Bench} {target : Target} {leg : Leg}

/-- Only an interruption ends the work on a target without a report. -/
theorem isInterruption (tries : leg.Tries bench target) {failure : Failure}
    (stopped : leg.outcome = .error failure) : failure.isInterruption = true := by
  -- A target that is refused ends with an interruption, and one that is driven as its stages do.
  cases tries with
  | refused _ _ outcome =>
    rw [outcome] at stopped
    cases stopped
    rfl
  | driven _ course _ _ outcome =>
    rw [outcome] at stopped
    exact course.isInterruption (map_eq_error.mp stopped)

/-- No target is tried once a request to stop was made. -/
theorem stopped_of_asked (tries : leg.Tries bench target)
    (asked : leg.before.scene.interrupted = true) : leg.outcome = .error .interruption := by
  cases tries with
  | refused _ _ outcome => exact outcome
  | driven unasked => simp [asked] at unasked

/-- A target that is reported is completed, and then it met no request to stop up to the end of its
tests, or its last visit failed without an interruption. -/
theorem completed_or_failed (tries : leg.Tries bench target) {records : List TargetRecord}
    (reported : leg.outcome = .ok records) :
    (∀ before exchange after, leg.calls = before ++ exchange :: after → exchange.Raises →
      ∃ stream ∈ before, stream.IsWatched) ∨
    ∃ earlier visit failure, leg.visits bench target = earlier ++ [visit] ∧
      visit.failure = some failure ∧ failure.isInterruption = false := by
  cases tries with
  | refused _ _ outcome =>
    rw [outcome] at reported
    cases reported
  | @driven _ last unasked course ends made outcome =>
    rw [outcome] at reported
    -- A target that was completed has passed all its stages.
    obtain ⟨-, -, collection, summary, code, completed⟩ |
      ⟨earlier, visit, failure, visits, -, failed, decides⟩ := course.account
    · rw [completed] at course
      have passes : Passes bench target target.stages leg.before _ _ := ⟨_, _, _, course⟩
      exact .inl fun before exchange after calls raised =>
        passes.watched_before (made ▸ calls) raised
    · refine .inr ⟨earlier, visit, failure, by simpa [Leg.visits, unasked] using visits, failed, ?_⟩
      -- An interruption would have ended the work without a report.
      cases interrupted : failure.isInterruption with
      | false => rfl
      | true => simp [decides, interrupted, Except.map] at reported

/-- A target whose last visit failed without an interruption is given up. -/
theorem givenUp_of_failed (tries : leg.Tries bench target) {earlier : List Visit} {visit : Visit}
    {failure : Failure} (visits : leg.visits bench target = earlier ++ [visit])
    (failed : visit.failure = some failure) (ordinary : failure.isInterruption = false) :
    leg.outcome = .ok [⟨target.identifier, .abandoned visit.stage failure.account⟩] := by
  cases tries with
  | refused asked => simp [Leg.visits, asked] at visits
  | driven unasked course _ _ outcome =>
    have visits : bench.visits target leg.before = earlier ++ [visit] := by
      simpa [Leg.visits, unasked] using visits
    -- The last visit is the one that failed, so the fate says so.
    obtain ⟨-, none, -⟩ | ⟨_, last, other, same, -, because, decides⟩ := course.account
    · rw [none visit (by simp [visits])] at failed
      cases failed
    · obtain ⟨-, rfl⟩ := List.append_singleton_inj.mp (visits.symm.trans same)
      rw [failed] at because
      cases because
      rw [outcome, decides, ordinary]
      rfl

end Leg.Tries

/-- A patch ends a comparison without a report only if it was interrupted. -/
theorem Leg.Patches.isInterruption {bench : Bench} {plan : List Target} {leg : Leg}
    (patches : leg.Patches bench plan) {failure : Failure}
    (stopped : leg.outcome = .error failure) : failure.isInterruption = true := by
  rw [patches.outcome] at stopped
  -- A failure of another kind gives the targets up, and that is a report.
  cases result : bench.adaptWorkspace.outcome leg.before with
  | ok value => simp [result] at stopped
  | error other =>
    cases interrupted : other.isInterruption with
    | true =>
      have same : other = failure := by simpa [result, interrupted] using stopped
      exact same ▸ interrupted
    | false => simp [result, interrupted] at stopped

/-- Behind the opening only an interruption ends a leg without a report. -/
theorem Leg.Fits.isInterruption {bench : Bench} {leg : Leg} (fits : leg.Fits bench)
    (behind : leg.part ≠ .opening) {failure : Failure} (stopped : leg.outcome = .error failure) :
    failure.isInterruption = true := by
  -- Only the opening may fail for another reason.
  cases part : leg.part with
  | opening => exact absurd part behind
  | patching plan => exact (fits.patches part).isInterruption stopped
  | trying target follows => exact (fits.tries part).isInterruption stopped

/-- A request to stop is made in time: during a call behind the opening of a comparison, and not
behind the watched call of the last target. -/
inductive AskedInTime (bench : Bench) (s : Session) : Prop where
  /-- It is made during a call of a leg. -/
  | during {earlier later : List Leg} {leg : Leg} {before after : List Exchange}
      {exchange : Exchange} (legs_eq : bench.legs s = earlier ++ leg :: later)
      (behind : leg.part ≠ .opening) (calls : leg.calls = before ++ exchange :: after)
      (raised : exchange.Raises)
      (in_time : ∀ target follows, leg.part = .trying target follows →
        bench.planned.getLast? = some target → ∀ other ∈ before, ¬ other.IsWatched) :
    AskedInTime bench s

/-- A request to stop is overlooked: the last stage of a comparison fails for a reason of its own, and
the last target is given up for it. -/
inductive Overlooks (bench : Bench) (s : Session) : Prop where
  /-- The workspace could not be patched for the TiDB targets. -/
  | patch {front : List Leg} {leg : Leg} {plan : List Target} {failure : Failure}
      (legs_eq : bench.legs s = front ++ [leg]) (part : leg.part = .patching plan)
      (failed : bench.adaptWorkspace.outcome leg.before = .error failure)
      (ordinary : failure.isInterruption = false) :
    Overlooks bench s
  /-- A stage of the last target failed. -/
  | stage {front : List Leg} {leg : Leg} {target : Target} {follows : Bool} {earlier : List Visit}
      {visit : Visit} {failure : Failure} (legs_eq : bench.legs s = front ++ [leg])
      (part : leg.part = .trying target follows) (last : bench.planned.getLast? = some target)
      (visits : leg.visits bench target = earlier ++ [visit])
      (failed : visit.failure = some failure) (ordinary : failure.isInterruption = false) :
    Overlooks bench s

namespace Bench

variable {bench : Bench} {s : Session}

/-- Targets that are run in turn end with one of them. -/
theorem parts_eq_concat {targets : List Target} (some : targets ≠ []) :
    ∃ front target follows, Target.parts targets = front ++ [.trying target follows] := by
  -- The last part tries the last target, whatever comes before it.
  induction targets with
  | nil => exact absurd rfl some
  | cons target targets ih =>
    cases targets with
    | nil => exact ⟨[], target, false, rfl⟩
    | cons next targets =>
      obtain ⟨front, last, follows, same⟩ := ih (by simp)
      exact ⟨.trying target true :: front, last, follows, by rw [Target.parts, same]; rfl⟩

/-- A comparison consists of its opening, or it ends with its last target. -/
theorem parts_end (bench : Bench) :
    bench.parts = [.opening] ∨ ∃ front target follows,
      bench.parts = front ++ [.trying target follows] ∧ bench.planned.getLast? = some target := by
  have ends : bench.parts = [.opening] ∨ ∃ front target follows,
      bench.parts = front ++ [.trying target follows] := by
    obtain ⟨front, target, follows, same⟩ := parts_eq_concat bench.variants_ne_nil
    unfold parts variantParts
    rw [same]
    -- The TiDB targets come last unless they are left out, and then MySQL does.
    by_cases compares : bench.options.compareOnly = true
    · exact .inl (by simp [compares])
    · by_cases other : bench.options.skipTidb = true
      · by_cases one : bench.options.skipMysql = true
        · exact .inl (by simp [compares, one, other])
        · exact .inr ⟨[.opening], Target.baseline bench.lab, false, by simp [compares, one, other]⟩
      · refine .inr ⟨.opening :: ((if bench.options.skipMysql then []
          else [.trying (Target.baseline bench.lab) (!bench.options.skipTidb)]) ++
            .patching bench.variants :: front), target, follows, ?_⟩
        simp [compares, other]
  refine ends.imp_right fun ⟨front, target, follows, same⟩ => ⟨front, target, follows, same, ?_⟩
  rw [← flatMap_targets_planned, same]
  simp [Part.targets]

/-- A comparison that came to another part than its opening did not end with that. -/
theorem last_behind_opening {front : List Leg} {last other : Leg}
    (legs_eq : bench.legs s = front ++ [last]) (member : other ∈ bench.legs s)
    (behind : other.part ≠ .opening) : last.part ≠ .opening := by
  rw [legs_eq] at member
  -- The only leg is the other one, or the last leg has one before it.
  cases front with
  | nil => exact List.mem_singleton.mp member ▸ behind
  | cons first front =>
    obtain ⟨rest, whole⟩ := bench.parts_prefix s
    have late : last.part ∈ bench.parts.tail := by simp [← whole, legs_eq]
    intro opening
    exact bench.opening_not_mem_tail (opening ▸ late)

end Bench

section Asked

variable {bench : Bench} {s : Session}

/-- A request to stop that is overlooked leaves the report of the last leg, and a target is given up
in it. -/
theorem Overlooks.reported (overlooks : Overlooks bench s) :
    ∃ front leg records, bench.legs s = front ++ [leg] ∧ leg.outcome = .ok records ∧
      ∃ record ∈ records, record.isGivenUp = true := by
  -- In both cases the leg that failed is the last one, and it reports a target that was given up.
  cases overlooks with
  | @patch front leg plan failure legs_eq part failed ordinary =>
    obtain ⟨rfl, -⟩ := Bench.legs_around_patch legs_eq part
    have member : leg ∈ bench.legs s := by simp [legs_eq]
    have reported := ((Bench.fits_of_mem member).patches part).outcome
    rw [failed] at reported
    obtain ⟨target, mine⟩ := List.exists_mem_of_ne_nil _ bench.variants_ne_nil
    refine ⟨front, leg, _, legs_eq, by simpa [ordinary] using reported, _,
      List.mem_map_of_mem mine, rfl⟩
  | @stage front leg target follows earlier visit failure legs_eq part last visits failed ordinary =>
    have member : leg ∈ bench.legs s := by simp [legs_eq]
    have tries := (Bench.fits_of_mem member).tries part
    exact ⟨front, leg, _, legs_eq, tries.givenUp_of_failed visits failed ordinary, _,
      List.mem_cons_self, rfl⟩

/-- A report tells of a target that was given up if its last leg did. -/
theorem exitCode_of_overlooks (overlooks : Overlooks bench s) {report : BenchReport}
    (reported : bench.execute.outcome s = .ok report) : report.exitCode = 2 := by
  obtain ⟨front, leg, records, legs_eq, passed, record, there, given⟩ := overlooks.reported
  obtain ⟨t, journey, -⟩ := bench.journey s
  rw [reported] at journey
  -- What the last leg reports is kept, so the target that was given up is in the report.
  obtain ⟨_, whole, kept, -⟩ | ⟨_, _, _, -, -, stopped⟩ := journey.account
  · obtain ⟨own, same, within⟩ := kept leg (by simp [legs_eq])
    rw [passed] at same
    cases same
    cases whole
    exact if_pos (List.any_eq_true.mpr ⟨record, within there, given⟩)
  · cases stopped

/-- A request to stop that is made in time and does not stop the comparison is overlooked. -/
theorem AskedInTime.overlooks (asked : AskedInTime bench s) {report : BenchReport}
    (reported : bench.execute.outcome s = .ok report) : Overlooks bench s := by
  obtain @⟨earlier, later, leg, before, after, exchange, legs_eq, behind, calls, raised, in_time⟩ :=
    asked
  obtain ⟨t, journey, -⟩ := bench.journey s
  rw [reported] at journey
  obtain ⟨_, -, kept, all | ⟨_, _, _, _, last, part, failed, ordinary⟩⟩ |
    ⟨_, _, _, -, -, stopped⟩ := journey.account
  -- All parts were gone through, so the last leg tried the last target.
  · rcases bench.parts_end with alone | ⟨front, target, follows, ends, planned⟩
    · -- Without targets there is only the opening.
      rw [legs_eq, alone] at all
      have there : leg.part ∈ [Part.opening] :=
        all ▸ List.mem_map_of_mem (List.mem_append_right _ List.mem_cons_self)
      exact absurd (List.mem_singleton.mp there) behind
    · rw [ends] at all
      obtain ⟨legs, lasts, same, -, single⟩ := List.map_eq_append_iff.mp all
      obtain ⟨last, rfl, part⟩ := List.map_eq_singleton_iff.mp single
      have member : last ∈ bench.legs s := by simp [same]
      have tries := (Bench.fits_of_mem member).tries part
      obtain ⟨own, passed, -⟩ := kept last member
      rcases tries.completed_or_failed passed with watched | ⟨_, _, _, visits, failed, ordinary⟩
      · rcases List.eq_nil_or_concat later with rfl | ⟨more, final, rfl⟩
        · -- The request was made in the last leg, but only behind its tests.
          obtain ⟨-, rfl⟩ := List.append_singleton_inj.mp (legs_eq.symm.trans same)
          obtain ⟨stream, early, sees⟩ := watched _ _ _ calls raised
          exact absurd sees (in_time target follows part planned stream early)
        · -- The request was made before the last leg, so that one was refused.
          have whole : (earlier ++ leg :: more) ++ [final] = legs ++ [last] := by
            simpa [legs_eq] using same
          obtain ⟨rfl, rfl⟩ := List.append_singleton_inj.mp whole
          have made : exchange ∈ (earlier ++ leg :: more).flatMap Leg.calls :=
            List.mem_flatMap.mpr ⟨leg, by simp, by simp [calls]⟩
          have asked := (journey.leads_to same).interrupted_of_raises made raised
          rw [tries.stopped_of_asked asked] at passed
          cases passed
      · exact .stage same part planned visits failed ordinary
  · exact .patch last part failed ordinary
  · cases stopped

/-- A comparison that fails behind its opening fails with an interruption, and then none was
overlooked. -/
theorem AskedInTime.stops (asked : AskedInTime bench s) {failure : Failure}
    (failed : bench.execute.outcome s = .error failure) :
    failure.isInterruption = true ∧ ¬ Overlooks bench s := by
  obtain @⟨_, _, leg, _, _, _, legs_eq, behind, -, -, -⟩ := asked
  obtain ⟨t, journey, -⟩ := bench.journey s
  rw [failed] at journey
  -- The last leg failed, so it reported nothing that could have been given up.
  obtain ⟨_, whole, -⟩ | ⟨front, last, other, same, stopped, whole⟩ := journey.account
  · cases whole
  · cases whole
    have member : last ∈ bench.legs s := by simp [same]
    refine ⟨(Bench.fits_of_mem member).isInterruption ?_ stopped, fun overlooks => ?_⟩
    · have there : leg ∈ bench.legs s := by simp [legs_eq]
      exact Bench.last_behind_opening same there behind
    · obtain ⟨_, _, _, ends, passed, -⟩ := overlooks.reported
      obtain ⟨-, rfl⟩ := List.append_singleton_inj.mp (ends.symm.trans same)
      rw [stopped] at passed
      cases passed

/-- A request to stop that is made in time stops the comparison unless it is overlooked, and then the
comparison ends as if the targets had been given up for no reason but their own: the program ends with
130 in the first case, and with 2 in the second one. -/
theorem request_stops_iff_not_overlooked (bench : Bench) (s : Session)
    (asked : AskedInTime bench s) :
    ((∃ failure, bench.execute.outcome s = .error failure ∧ failure.isInterruption = true ∧
        (Program.Outcome.failed failure).exitCode = 130) ↔ ¬ Overlooks bench s) ∧
      ((∃ report, bench.execute.outcome s = .ok report ∧ report.exitCode = 2) ↔
        Overlooks bench s) := by
  -- The comparison ends in one of two ways, and each of them belongs to one side.
  cases result : bench.execute.outcome s with
  | error failure =>
    obtain ⟨interruption, stops⟩ := asked.stops result
    have code : (Program.Outcome.failed failure).exitCode = 130 := if_pos interruption
    simp [interruption, stops, code]
  | ok report =>
    have overlooks := asked.overlooks result
    simp [overlooks, exitCode_of_overlooks overlooks result]

end Asked

/-- A comparison in which the operator asks to stop while the caches are cleaned, and cleaning them
fails. -/
def Bench.hasty : Bench :=
  .sample false [{ pattern := "gradlew clean", triggers := true, status := 1 }]

namespace Bench

/-- The container service answers. -/
theorem hasty_answers : (Action.run hasty.runner infoCommand).outcome .sample = .ok ⟨0, "", ""⟩ := by
  decide

/-- The target is tried behind the call of the container service. -/
def hastyLeg : Leg :=
  .of hasty (.trying (Target.baseline .sample) false)
    ((Action.run hasty.runner infoCommand).after .sample)

/-- The operator asks to stop during the only call for the target. -/
theorem hasty_asked : AskedInTime hasty .sample := by
  have legs : hasty.legs .sample = [Leg.of hasty .opening .sample] ++ [hastyLeg] :=
    sample_legs hasty_answers rfl
  have made : hastyLeg.calls.map
      (fun exchange => (exchange.before.interrupted, exchange.after.interrupted)) =
        [(false, true)] := by decide +kernel
  obtain ⟨exchange, calls, raised⟩ := List.map_eq_singleton_iff.mp made
  have whole : hastyLeg.calls = [] ++ [exchange] := calls
  exact .during legs (by simp [hastyLeg, Leg.of]) whole (Prod.mk.inj raised) (by simp)

/-- A request to stop that is made in time does not always stop the comparison: here the target is
given up instead, and the comparison ends with its report. -/
theorem request_overlooked_while_cleaning :
    hasty.options.compareOnly = false ∧ AskedInTime hasty .sample ∧
      ∃ report, hasty.execute.outcome .sample = .ok report ∧ report.exitCode = 2 :=
  ⟨rfl, hasty_asked, sample_exitCode hasty_answers rfl (by decide +kernel)⟩

/-- The last stage of the comparison failed for a reason of its own, and so the theorem says that it
ends with a report. -/
theorem hasty_stops_iff_not_overlooked :
    AskedInTime hasty .sample ∧
      ((∃ failure, hasty.execute.outcome .sample = .error failure ∧
          failure.isInterruption = true ∧ (Program.Outcome.failed failure).exitCode = 130) ↔
        ¬ Overlooks hasty .sample) ∧
      ((∃ report, hasty.execute.outcome .sample = .ok report ∧ report.exitCode = 2) ↔
        Overlooks hasty .sample) :=
  ⟨hasty_asked, request_stops_iff_not_overlooked hasty .sample hasty_asked⟩

end Bench

end DialectBench
