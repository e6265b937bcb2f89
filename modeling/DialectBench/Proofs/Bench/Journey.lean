import DialectBench.Proofs.Bench.Leg
import DialectBench.Proofs.Bench.Pairing

/-! A whole comparison as a journey through its parts: the legs, and where the workspace is patched
among them. -/

namespace DialectBench

/-- Parts are gone through from one session to another: the legs, and the reports that come of
them. -/
inductive Journey (bench : Bench) : List Part → Session → List Leg →
    Except Failure (List TargetRecord) → Session → Prop where
  /-- No part is left. -/
  | finished (s : Session) : Journey bench [] s [] (.ok []) s
  /-- A part is done, and others follow. -/
  | goes {part : Part} {parts : List Part} {s t : Session} {legs : List Leg}
      {records : List TargetRecord} {outcome : Except Failure (List TargetRecord)}
      (passed : (Leg.of bench part s).outcome = .ok records)
      (on : (Leg.of bench part s).goesOn = true)
      (rest : Journey bench parts (Leg.of bench part s).after legs outcome t) :
    Journey bench (part :: parts) s (Leg.of bench part s :: legs) (outcome.map (records ++ ·)) t
  /-- The workspace cannot be patched, and the targets that need it are given up. -/
  | givenUp {plan : List Target} {s : Session} {records : List TargetRecord}
      (passed : (Leg.of bench (.patching plan) s).outcome = .ok records)
      (off : (Leg.of bench (.patching plan) s).goesOn = false) :
    Journey bench (.patching plan :: Target.parts plan) s [Leg.of bench (.patching plan) s]
      (.ok records) (Leg.of bench (.patching plan) s).after
  /-- A part fails, and so does the comparison. -/
  | stopped {part : Part} {parts : List Part} {s : Session} {failure : Failure}
      (failed : (Leg.of bench part s).outcome = .error failure) :
    Journey bench (part :: parts) s [Leg.of bench part s] (.error failure)
      (Leg.of bench part s).after

namespace Bench

open DialectBench.Action

variable {bench : Bench}

/-- An action goes through parts with the legs that are listed for them. -/
def Tours (bench : Bench) (parts : List Part) (action : Action (List TargetRecord)) : Prop :=
  ∀ s, Journey bench parts s (bench.legsFrom parts s) (action.outcome s) (action.after s)

/-- Without parts nothing is done. -/
theorem tours_nil (bench : Bench) : Tours bench [] (pure []) := fun s => .finished s

/-- A part other than a patch stands in front of parts. -/
theorem tours_cons {part : Part} {parts : List Part} {next : Action (List TargetRecord)}
    (other : ∀ plan, part ≠ .patching plan) (rest : Tours bench parts next) :
    Tours bench (part :: parts)
      (part.action bench >>= fun records => (records ++ ·) <$> next) := by
  intro s
  -- A part that fails ends the journey, and any other one goes on.
  cases result : (part.action bench).outcome s with
  | error failure =>
    have off : (Leg.of bench part s).goesOn = false := by
      cases part <;> simp [Leg.goesOn, Leg.of, result]
    rw [outcome_bind_of_error result, after_bind_of_error result, legsFrom, off]
    exact .stopped result
  | ok records =>
    have on : (Leg.of bench part s).goesOn = true := by
      cases part with
      | patching plan => exact absurd rfl (other plan)
      | opening | trying => simp [Leg.goesOn, Leg.of, result]
    rw [outcome_bind_of_ok result, after_bind_of_ok result, legsFrom, on, outcome_map, after_map]
    exact .goes result on (rest _)

/-- Targets are run in turn. -/
theorem tours_tryTargets (targets : List Target) :
    Tours bench (Target.parts targets) (bench.tryTargets targets) := by
  -- The targets are run one by one, and each of them is a part in front of the others.
  induction targets with
  | nil => exact tours_nil bench
  | cons target targets ih =>
    have same : bench.tryTargets (target :: targets) =
        (Part.trying target (!targets.isEmpty)).action bench >>= fun records =>
          (records ++ ·) <$> bench.tryTargets targets := by
      simp [tryTargets, Part.action]
    rw [same]
    exact tours_cons (by simp) ih

/-- A patch stands in front of the targets that need it. -/
theorem tours_patching {plan : List Target} {next : Action (List TargetRecord)}
    (rest : Tours bench (Target.parts plan) next) :
    Tours bench (.patching plan :: Target.parts plan)
      ((Part.patching plan).action bench >>= fun records =>
        if records.isEmpty then next else pure records) := by
  intro s
  cases result : ((Part.patching plan).action bench).outcome s with
  | error failure =>
    have off : (Leg.of bench (.patching plan) s).goesOn = false := by
      simp [Leg.goesOn, Leg.of, result]
    rw [outcome_bind_of_error result, after_bind_of_error result, legsFrom, off]
    exact .stopped result
  | ok records =>
    have goes := bench.goesOn_patching s result
    rw [outcome_bind_of_ok result, after_bind_of_ok result, legsFrom, goes]
    -- The patch reports nothing when it succeeds, and then the targets follow.
    cases records with
    | nil =>
      -- What is put in front of the other reports is empty.
      have same : ∀ outcome : Except Failure (List TargetRecord), outcome.map ([] ++ ·) = outcome :=
        fun outcome => by cases outcome <;> rfl
      have whole := Journey.goes result goes (rest _)
      rw [same] at whole
      exact whole
    | cons record records => exact .givenUp result goes

/-- There is always a TiDB target. -/
theorem variants_ne_nil (bench : Bench) : bench.variants ≠ [] := by
  unfold variants
  cases bench.options.tidbDialect <;> simp [Target.variants]

/-- The workspace is patched, and then the TiDB targets are run. -/
theorem tours_tryVariants (bench : Bench) : Tours bench bench.variantParts bench.tryVariants := by
  have same : bench.tryVariants = (Part.patching bench.variants).action bench >>= fun records =>
      if records.isEmpty then bench.tryTargets bench.variants else pure records := by
    unfold tryVariants Part.action
    rw [bind_assoc]
    refine bind_congr fun result => ?_
    -- A failure is reported for every target, and there is always one, so the reports are not
    -- empty.
    cases Progress.ofResult result with
    | done value => simp [variants]
    | failed reason =>
      have some := bench.variants_ne_nil
      unfold variants at some
      simp [variants, some]
    | fatal failure => rfl
  rw [same]
  exact tours_patching (tours_tryTargets _)

/-- The parts of a comparison are gone through in turn. -/
theorem tours_tryAll (bench : Bench) :
    Tours bench bench.parts (bench.prepareRun >>= fun _ => bench.tryAll) := by
  have same : (bench.prepareRun >>= fun _ => bench.tryAll) =
      Part.opening.action bench >>= fun records => (records ++ ·) <$> bench.tryAll := by
    simp [Part.action]
  rw [same]
  refine tours_cons (by simp) ?_
  unfold tryAll tryBaseline
  -- The options decide which parts there are, and the action has a branch for each of them.
  by_cases compares : bench.options.compareOnly = true
  · simpa [compares] using tours_nil bench
  · by_cases one : bench.options.skipMysql = true <;> by_cases other : bench.options.skipTidb = true
    · simpa [compares, one, other] using tours_nil bench
    · simpa [compares, one, other] using bench.tours_tryVariants
    · have last : Tours bench [.trying (Target.baseline bench.lab) false] _ :=
        tours_cons (by simp) (tours_nil bench)
      simpa [compares, one, other, Part.action] using last
    · have both : Tours bench (.trying (Target.baseline bench.lab) true :: _) _ :=
        tours_cons (by simp) bench.tours_tryVariants
      simpa [compares, one, other, Part.action] using both

/-- What a comparison does once its targets have run. -/
def concludeReport (bench : Bench) (targets : List TargetRecord) : Action BenchReport := do
  let comparisons ←
    if compares bench.options then Comparison.compareNewest bench.lab.runs else pure []
  tellGivenUp targets
  return { targets, comparisons }

/-- What is done once the targets have run is quiet. -/
theorem quiet_concludeReport (bench : Bench) (targets : List TargetRecord) :
    (bench.concludeReport targets).Quiet := by
  have told : (tellGivenUp targets).Quiet := quiet_forM fun _ => quiet_warn _
  unfold concludeReport
  -- The newest summaries are looked up only when there is something to compare.
  split
  · exact (Comparison.quiet_compareNewest _).bind fun _ => told.bind fun _ => Quiet.pure _
  · exact told.bind fun _ => Quiet.pure _

/-- What is done once the targets have run does not fail: it keeps their reports, and compares the newest
summaries if that is wanted. -/
theorem outcome_concludeReport (bench : Bench) (targets : List TargetRecord) (s : Session) :
    (bench.concludeReport targets).outcome s =
      .ok { targets, comparisons :=
        if compares bench.options then Comparison.latest s.scene.disk bench.lab.runs else [] } := by
  -- Neither telling nor comparing can fail.
  have told : ∀ t, (tellGivenUp targets).outcome t = .ok () :=
    outcome_forM (fun _ t => outcome_warn "target abandoned" t) _
  unfold concludeReport
  split
  next wanted =>
    rw [outcome_bind_of_ok (Comparison.outcome_compareNewest _ _), outcome_bind_of_ok (told _)]
    rfl
  next =>
    show (tellGivenUp targets >>= fun _ => pure _).outcome s = _
    rw [outcome_bind_of_ok (told s)]
    rfl

/-- A comparison is a journey through its parts, and nothing is called after it. -/
theorem journey (bench : Bench) (s : Session) :
    ∃ t, Journey bench bench.parts s (bench.legs s)
        ((bench.execute.outcome s).map BenchReport.targets) t ∧
      t.Leads [] (bench.execute.after s) := by
  have tours := bench.tours_tryAll s
  have same : bench.execute =
      (bench.prepareRun >>= fun _ => bench.tryAll) >>= fun targets =>
        bench.concludeReport targets := by
    rw [bind_assoc]
    rfl
  refine ⟨(bench.prepareRun >>= fun _ => bench.tryAll).after s, ?_⟩
  rw [same]
  -- What is done behind the targets is quiet, and it keeps their reports.
  cases result : (bench.prepareRun >>= fun _ => bench.tryAll).outcome s with
  | error failure =>
    rw [result] at tours
    rw [outcome_bind_of_error result, after_bind_of_error result]
    exact ⟨tours, .refl _⟩
  | ok targets =>
    rw [result] at tours
    rw [outcome_bind_of_ok result, after_bind_of_ok result, outcome_concludeReport, Except.map]
    exact ⟨tours, (bench.quiet_concludeReport targets).leads _⟩

end Bench

namespace Journey

variable {bench : Bench} {parts : List Part} {s t : Session} {legs : List Leg}
  {outcome : Except Failure (List TargetRecord)}

/-- The calls of the legs lead from the start to the end. -/
theorem leads (journey : Journey bench parts s legs outcome t) :
    s.Leads (legs.flatMap Leg.calls) t := by
  -- A leg leads from where it began, and the others lead on from there.
  induction journey with
  | finished s => exact .refl s
  | goes _ _ _ ih => exact (bench.fits_leg _ _).leads.trans ih
  | givenUp | stopped =>
    rw [List.flatMap_singleton]
    exact (bench.fits_leg _ _).leads

/-- The calls of the legs before another one lead to it. -/
theorem leads_to (journey : Journey bench parts s legs outcome t) {front back : List Leg} {leg : Leg}
    (split : legs = front ++ leg :: back) : s.Leads (front.flatMap Leg.calls) leg.before := by
  -- The first leg begins where the journey does, and a later one behind the calls before it.
  induction journey generalizing front with
  | finished => simp at split
  | goes _ _ _ ih =>
    cases front with
    | nil =>
      obtain ⟨rfl, -⟩ := List.cons.inj split
      exact .refl _
    | cons first front =>
      obtain ⟨rfl, others⟩ := List.cons.inj split
      exact (bench.fits_leg _ _).leads.trans (ih others)
  | givenUp | stopped =>
    cases front with
    | nil =>
      obtain ⟨rfl, -⟩ := List.cons.inj split
      exact .refl _
    | cons first front => simp at split

/-- Every leg does what its part should. -/
theorem fits (journey : Journey bench parts s legs outcome t) {leg : Leg} (member : leg ∈ legs) :
    leg.Fits bench := by
  induction journey with
  | finished => cases member
  | goes _ _ _ ih =>
    rcases List.mem_cons.mp member with rfl | later
    · exact bench.fits_leg _ _
    · exact ih later
  | givenUp | stopped =>
    rw [List.mem_singleton.mp member]
    exact bench.fits_leg _ _

/-- Every leg is the part of its name, begun where it began. -/
theorem eq_of (journey : Journey bench parts s legs outcome t) {leg : Leg} (member : leg ∈ legs) :
    leg = Leg.of bench leg.part leg.before := by
  induction journey with
  | finished => cases member
  | goes _ _ _ ih =>
    rcases List.mem_cons.mp member with rfl | later
    · rfl
    · exact ih later
  | givenUp | stopped =>
    rw [List.mem_singleton.mp member]
    rfl

/-- A leg that is followed by another one went on to it. -/
theorem goesOn (journey : Journey bench parts s legs outcome t) {front back : List Leg}
    {leg next : Leg} (split : legs = front ++ leg :: next :: back) :
    leg = Leg.of bench leg.part leg.before ∧ leg.goesOn = true ∧
      ∃ records, leg.outcome = .ok records := by
  -- The legs are taken off one by one, and only a leg that goes on has another one behind it.
  induction journey generalizing front with
  | finished => simp at split
  | @goes part _ s _ _ records _ passed on _ ih =>
    cases front with
    | nil =>
      obtain ⟨rfl, -⟩ := List.cons.inj split
      exact ⟨rfl, on, records, passed⟩
    | cons first front => exact ih (List.cons.inj split).2
  | givenUp | stopped => cases front <;> simp at split

/-- A journey ends without a failure behind its last part, or behind a patch that failed, and keeps
what every leg reports; else its last leg failed. -/
theorem account (journey : Journey bench parts s legs outcome t) :
    (∃ records, outcome = .ok records ∧
      (∀ leg ∈ legs, ∃ own, leg.outcome = .ok own ∧ own ⊆ records) ∧
      (legs.map Leg.part = parts ∨ ∃ front leg plan failure, legs = front ++ [leg] ∧
        leg.part = .patching plan ∧ bench.adaptWorkspace.outcome leg.before = .error failure ∧
        failure.isInterruption = false)) ∨
    ∃ front leg failure, legs = front ++ [leg] ∧ leg.outcome = .error failure ∧
      outcome = .error failure := by
  -- The last leg decides, so what is known of the others is carried along.
  induction journey with
  | finished => exact .inl ⟨[], rfl, by simp, .inl rfl⟩
  | @goes part parts s _ legs first _ passed _ _ ih =>
    obtain ⟨others, rfl, kept, ends⟩ | ⟨front, leg, failure, rfl, failed, rfl⟩ := ih
    · refine .inl ⟨first ++ others, rfl, ?_, ?_⟩
      -- The reports of the first leg come in front of those of the others.
      · rw [List.forall_mem_cons]
        refine ⟨⟨first, passed, List.subset_append_left _ _⟩, fun leg member => ?_⟩
        obtain ⟨own, reported, there⟩ := kept leg member
        exact ⟨own, reported, List.subset_append_of_subset_right _ there⟩
      · rcases ends with all | ⟨front, leg, plan, failure, rfl, patch⟩
        · exact .inl (by simp [Leg.of, all])
        · exact .inr ⟨Leg.of bench part s :: front, leg, plan, failure, rfl, patch⟩
    · exact .inr ⟨Leg.of bench part s :: front, leg, failure, rfl, failed, rfl⟩
  | @givenUp plan s records passed off =>
    obtain ⟨failure, failed, ordinary, -⟩ := Bench.unpatched passed off
    refine .inl ⟨records, rfl, ?_, .inr ⟨[], _, plan, failure, rfl, rfl, failed, ordinary⟩⟩
    simpa using ⟨records, passed, List.Subset.refl records⟩
  | @stopped part _ s failure failed => exact .inr ⟨[], _, failure, rfl, failed, rfl⟩

/-- The legs are the first parts. -/
theorem parts_prefix (journey : Journey bench parts s legs outcome t) :
    legs.map Leg.part <+: parts := by
  -- A journey that ends early leaves the other parts out.
  induction journey with
  | finished => simp
  | goes _ _ _ ih => simpa [Leg.of] using ih
  | givenUp | stopped => simp [Leg.of]

end Journey

namespace Bench

/-- The calls of a comparison are those of its legs in turn. -/
theorem leads_execute (bench : Bench) (s : Session) :
    s.Leads ((bench.legs s).flatMap Leg.calls) (bench.execute.after s) := by
  obtain ⟨t, journey, quiet⟩ := bench.journey s
  simpa using journey.leads.trans quiet

/-- Every leg of a comparison does what its part should. -/
theorem fits_of_mem {bench : Bench} {s : Session} {leg : Leg} (member : leg ∈ bench.legs s) :
    leg.Fits bench := by
  obtain ⟨t, journey, -⟩ := bench.journey s
  exact journey.fits member

/-- The legs of a comparison are its first parts. -/
theorem parts_prefix (bench : Bench) (s : Session) : (bench.legs s).map Leg.part <+: bench.parts := by
  obtain ⟨t, journey, -⟩ := bench.journey s
  exact journey.parts_prefix

/-- The targets of parts that run targets in turn. -/
theorem flatMap_targets_parts (targets : List Target) :
    (Target.parts targets).flatMap Part.targets = targets := by
  induction targets with
  | nil => rfl
  | cons target targets ih => simp [Target.parts, Part.targets, ih]

/-- The planned targets are those of the parts. -/
theorem flatMap_targets_planned (bench : Bench) :
    bench.parts.flatMap Part.targets = bench.planned := by
  unfold parts planned
  -- The options decide in the same way about the parts and about the targets.
  by_cases compares : bench.options.compareOnly = true
  · simp [compares, Part.targets]
  · by_cases one : bench.options.skipMysql = true <;> by_cases other : bench.options.skipTidb = true <;>
      simp [compares, one, other, Part.targets, variantParts, flatMap_targets_parts]

/-- A leg that tries a target tries a planned one. -/
theorem mem_planned {bench : Bench} {s : Session} {leg : Leg} {target : Target} {follows : Bool}
    (member : leg ∈ bench.legs s) (part : leg.part = .trying target follows) :
    target ∈ bench.planned := by
  have there : leg.part ∈ bench.parts :=
    (bench.parts_prefix s).subset (List.mem_map_of_mem member)
  -- The part of the leg is one of the comparison, and the targets of those are the planned ones.
  rw [← flatMap_targets_planned]
  exact List.mem_flatMap.mpr ⟨leg.part, there, by simp [part, Part.targets]⟩

/-- The parts before the workspace is patched. -/
def leadParts (bench : Bench) : List Part :=
  .opening :: if bench.options.skipMysql then []
    else [.trying (Target.baseline bench.lab) (!bench.options.skipTidb)]

/-- MySQL is none of the TiDB targets. -/
theorem baseline_not_mem_variants (bench : Bench) : Target.baseline bench.lab ∉ bench.variants := by
  unfold variants
  cases bench.options.tidbDialect <;>
    simp [Target.variants, Target.baseline, Target.community, Target.mysqlDialect, Target.core]

/-- A TiDB target has a preset. -/
theorem preset_of_mem_variants {bench : Bench} {target : Target} (member : target ∈ bench.variants) :
    ∃ preset, target.preset = some preset := by
  unfold variants at member
  -- Whatever dialects are chosen, each of them stands for a preset.
  cases choice : bench.options.tidbDialect <;> simp [choice, Target.variants] at member
  case both => rcases member with rfl | rfl <;> exact ⟨_, rfl⟩
  all_goals exact member ▸ ⟨_, rfl⟩

/-- Before the workspace is patched it is neither patched nor used for a TiDB target. -/
theorem leadParts_apart {bench : Bench} {part : Part} (member : part ∈ bench.leadParts) :
    (∀ plan, part ≠ .patching plan) ∧
      ∀ target ∈ bench.variants, ∀ follows, part ≠ .trying target follows := by
  have apart := bench.baseline_not_mem_variants
  unfold leadParts at member
  -- Only the opening and MySQL come before the patch, and MySQL is no TiDB target.
  rcases List.mem_cons.mp member with rfl | member
  · exact ⟨fun _ => by simp, fun _ _ _ => by simp⟩
  · split at member
    · cases member
    · rw [List.mem_singleton.mp member]
      refine ⟨fun _ => by simp, fun target there follows same => ?_⟩
      cases same
      exact apart there

/-- Parts that run targets in turn do nothing else. -/
theorem not_mem_parts (targets : List Target) {part : Part}
    (other : ∀ target follows, part ≠ .trying target follows) : part ∉ Target.parts targets := by
  induction targets with
  | nil => simp [Target.parts]
  | cons target targets ih => simp [Target.parts, other, ih]

/-- The opening comes first only. -/
theorem opening_not_mem_tail (bench : Bench) : Part.opening ∉ bench.parts.tail := by
  -- Behind the opening workspaces are patched and targets are tried, and nothing else.
  have none : Part.opening ∉ Target.parts bench.variants := not_mem_parts _ (by simp)
  unfold parts
  split
  · simp
  · split <;> split <;> simp [variantParts, none]

/-- A comparison ends before the workspace is patched, or patches it for the TiDB targets. -/
theorem parts_cases (bench : Bench) :
    bench.parts <+: bench.leadParts ∨
      bench.parts = bench.leadParts ++ .patching bench.variants :: Target.parts bench.variants := by
  unfold parts leadParts
  -- The patch is left out with the targets, or with TiDB.
  by_cases compares : bench.options.compareOnly = true
  · exact .inl (by simp [compares])
  · by_cases other : bench.options.skipTidb = true
    · exact .inl (by simp [compares, other])
    · exact .inr (by simp [compares, other, variantParts, variants])

/-- The legs before the patch are those of the parts before it, and the ones after it try TiDB
targets. -/
theorem legs_around_patch {bench : Bench} {s : Session} {front back : List Leg} {leg : Leg}
    {plan : List Target} (legs : bench.legs s = front ++ leg :: back)
    (part : leg.part = .patching plan) :
    plan = bench.variants ∧ front.map Leg.part = bench.leadParts ∧
      back.map Leg.part <+: Target.parts bench.variants := by
  obtain ⟨rest, whole⟩ := bench.parts_prefix s
  have split : bench.parts = front.map Leg.part ++ .patching plan :: (back.map Leg.part ++ rest) := by
    rw [← whole, legs, ← part]
    simp
  -- The patch is a part only when TiDB is not left out, and then it stands at one place.
  rcases bench.parts_cases with few | all
  · have there : Part.patching plan ∈ bench.leadParts := few.subset (by simp [split])
    exact absurd rfl ((leadParts_apart there).1 plan)
  · have same := all.symm.trans split
    have lead : Part.patching plan ∉ bench.leadParts := fun there =>
      (leadParts_apart there).1 plan rfl
    obtain ⟨front, patch, back⟩ := (List.append_cons_inj_of_notMem lead
      (not_mem_parts bench.variants (by simp))).mp same
    cases patch
    exact ⟨rfl, front.symm, ⟨rest, back.symm⟩⟩

end Bench

end DialectBench
