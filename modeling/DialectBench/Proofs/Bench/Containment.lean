import DialectBench.Proofs.Bench.Heeding
import DialectBench.Proofs.Bench.Interruption
import DialectBench.Proofs.Bench.Removals

/-! An interruption stays with the target it meets: what is still called after it, and what is
not. -/

namespace DialectBench

/-- An item of two lists is one of the first list, unless it is the only one of the second. -/
theorem mem_first_of_short {α : Type} {first second own rest : List α} {item : α}
    (same : first ++ second = own ++ item :: rest) (short : second.length ≤ 1) :
    (own = first ∧ second = [item] ∧ rest = []) ∨
      ∃ between, first = own ++ item :: between ∧ rest = between ++ second := by
  rcases List.append_eq_append_iff.mp same with ⟨between, rfl, late⟩ | ⟨between, rfl, late⟩
  · -- There is no room for anything around the item.
    rw [late, List.length_append, List.length_cons] at short
    obtain rfl : between = [] := List.eq_nil_of_length_eq_zero (by omega)
    obtain rfl : rest = [] := List.eq_nil_of_length_eq_zero (by omega)
    exact .inl ⟨List.append_nil _, late, rfl⟩
  · cases between with
    | nil =>
      have late : second = item :: rest := late.symm
      rw [late, List.length_cons] at short
      obtain rfl : rest = [] := List.eq_nil_of_length_eq_zero (by omega)
      exact .inl ⟨(List.append_nil _).symm, late, rfl⟩
    | cons head between =>
      obtain ⟨rfl, others⟩ := List.cons.inj late
      exact .inr ⟨between, rfl, others⟩

/-- The removals that may still follow a call of a part that was interrupted. -/
def Part.removals : Part → List Call
  | .trying target _ =>
    [.run (Bench.removeCommand target.testContainer), .run (Bench.removeCommand target.container)]
  | _ => []

/-- A leg heeds interruptions: a call that is interrupted ends it with an interruption, and only
removals for its target follow. Removals as far as possible are no such calls. -/
def Leg.Heeds (leg : Leg) : Prop :=
  ∀ own exchange rest, leg.calls = own ++ exchange :: rest → exchange.reply.interrupted = true →
    ¬ IsBestEffort (own.reverse.map Exchange.call) exchange.call →
      Stops leg.outcome ∧ (rest.map Exchange.call).Sublist leg.part.removals

/-- A target that is tried heeds interruptions. -/
theorem Leg.Tries.heeds {bench : Bench} {target : Target} {leg : Leg} {follows : Bool}
    (tries : leg.Tries bench target) (part : leg.part = .trying target follows) : leg.Heeds := by
  intro own exchange rest split interrupted counts
  have journal := tries.journal
  -- The calls before one of those that count are not for the target, if it is a removal.
  have apart : ∀ newest container, own.getLast? = some newest → newest.call.ServesTarget →
      exchange.call ≠ .run (Bench.removeCommand container) := by
    intro newest container last serves call
    refine counts ⟨⟨container, call⟩, newest.call, ?_, serves⟩
    rw [List.head?_map, List.head?_reverse, last]
    rfl
  rw [part, Part.removals]
  cases tries with
  | refused _ none =>
    rw [none] at split
    simp at split
  | @driven _ last _ course ends made outcome =>
    have few : (last.map Exchange.call).Sublist [.run (Bench.removeCommand target.container)] := by
      rw [ends]
      split
      · exact List.Sublist.refl _
      · exact List.nil_sublist _
    have short : last.length ≤ 1 := by simpa using few.length_le
    rcases mem_first_of_short (made.symm.trans split) short with
      ⟨own_eq, rfl, rfl⟩ | ⟨between, same, back⟩
    · -- The last call is the removal of the container, which is made as far as possible.
      have removes : exchange.call = .run (Bench.removeCommand target.container) := by
        simpa using few
      rcases journal.removal_cases split removes with opens | ⟨-, newest, found, serves⟩
      · -- The database was to be started, so there was another removal before.
        obtain ⟨visit, there, starts⟩ : ∃ visit ∈ bench.visits target leg.before,
            visit.stage = .startDatabase := by
          by_contra idle
          rw [if_neg (by simpa using idle)] at ends
          cases ends
        obtain ⟨removal, more, calls, first, -⟩ := (course.fits there).starts starts
        have before : removal ∈ own := by
          rw [own_eq]
          exact List.mem_flatMap.mpr ⟨visit, there, by simp [calls]⟩
        exact absurd (Exchange.removes_of_call first)
          ((opens.harmless removal before).not_removes _)
      · exact absurd removes (apart newest _ found serves)
    · obtain ⟨earlier, visit, later, before, after, visits, mine, rfl⟩ :=
        flatMap_eq_append_cons same
      have member : visit ∈ bench.visits target leg.before := by simp [visits]
      -- Right behind a watched call there are only removals, and this is none that counts.
      have unwatched : ∀ newest, before.getLast? = some newest → ¬ newest.IsWatched := by
        intro newest found watched
        obtain ⟨front, rfl⟩ := List.getLast?_eq_some_iff.mp found
        have behind : leg.calls = (earlier.flatMap Visit.calls ++ front) ++
            newest :: exchange :: rest := by simp [split]
        obtain ⟨container, removes⟩ := journal.removes_behind behind watched List.mem_cons_self
        obtain ⟨_, _, _, call⟩ := watched
        exact apart newest container (by simp [List.getLast?_append]) (call ▸ .tests _ _ _) removes
      obtain ⟨⟨failure, failed, interruption⟩, drops⟩ :=
        bench.visits_heed target leg.before visit member before exchange after mine interrupted
          unwatched
      -- The visit failed, so it is the last one.
      obtain ⟨-, none, -⟩ | ⟨front, final, cause, all, none, because, decides⟩ := course.account
      · rw [none visit member] at failed
        cases failed
      obtain ⟨rfl, rfl⟩ : later = [] ∧ visit = final := by
        rcases List.eq_nil_or_concat later with rfl | ⟨more, other, rfl⟩
        · exact ⟨rfl, (List.append_singleton_inj.mp (visits.symm.trans all)).2⟩
        · have whole : (earlier ++ visit :: more) ++ [other] = front ++ [final] := by
            simpa [visits] using all
          obtain ⟨rfl, -⟩ := List.append_singleton_inj.mp whole
          rw [none visit (by simp)] at failed
          cases failed
      obtain rfl : between = after := by
        rw [visits] at same
        simpa [mine] using same.symm
      rw [failed] at because
      cases because
      refine ⟨⟨failure, ?_, interruption⟩, ?_⟩
      · rw [outcome, decides, if_pos interruption]
        rfl
      · rw [back, List.map_append]
        exact drops.append few

namespace Bench

open DialectBench.Action

/-- Every leg of a comparison heeds interruptions. -/
theorem heeds_of_mem {bench : Bench} {s : Session} {leg : Leg} (member : leg ∈ bench.legs s) :
    leg.Heeds := by
  obtain ⟨t, journey, -⟩ := bench.journey s
  have same := journey.eq_of member
  cases part : leg.part with
  | trying target follows => exact ((fits_of_mem member).tries part).heeds part
  | opening =>
    rw [part] at same
    obtain ⟨calls, led, heeds⟩ :=
      (bench.heeds_prepareRun.bind fun _ => (Quiet.pure []).heeds) leg.before
    intro own exchange rest split interrupted _
    rw [same, (bench.leads_of leg.before .opening led).2] at split
    obtain ⟨rfl, stops⟩ := heeds own exchange rest split interrupted
    exact ⟨same ▸ stops, List.nil_sublist _⟩
  | patching plan =>
    rw [part] at same
    obtain ⟨calls, led, heeds⟩ := bench.heeds_adaptWorkspace leg.before
    intro own exchange rest split interrupted _
    rw [same, (bench.leads_of leg.before _ (bench.leads_patching leg.before plan led)).2] at split
    obtain ⟨rfl, failure, failed, interruption⟩ := heeds own exchange rest split interrupted
    -- A patch that was interrupted gives no target up, but ends the comparison.
    refine ⟨⟨failure, ?_, interruption⟩, List.nil_sublist _⟩
    rw [same, outcome_patching, failed]
    exact if_pos interruption

/-- Legs that begin after a request to stop, behind the opening, make no call for a target, and patch
the workspace at most. -/
theorem calls_of_asked {bench : Bench} {s : Session} {front back : List Leg}
    (legs_eq : bench.legs s = front ++ back) (behind : front ≠ [])
    (asked : ∀ leg ∈ back, leg.before.scene.interrupted = true) :
    ((back.flatMap Leg.calls).map Exchange.call).Sublist (bench.patchCommands.map .run) ∧
      ∀ leg ∈ back, ∀ target follows, leg.part = .trying target follows → leg.calls = [] := by
  have member : ∀ leg ∈ back, leg ∈ bench.legs s := fun leg there => by simp [legs_eq, there]
  -- A target is refused at once.
  have refused : ∀ leg ∈ back, ∀ target follows, leg.part = .trying target follows →
      leg.calls = [] := by
    intro leg there target follows part
    cases (fits_of_mem (member leg there)).tries part with
    | refused _ none => exact none
    | driven unasked =>
      rw [asked leg there] at unasked
      cases unasked
  have tail : ∀ leg ∈ back, leg.part ≠ .opening := by
    intro leg there opening
    obtain ⟨first, front, rfl⟩ := List.exists_cons_of_ne_nil behind
    obtain ⟨rest, whole⟩ := bench.parts_prefix s
    have late : leg.part ∈ bench.parts.tail := by
      simpa [← whole, legs_eq] using Or.inr (.inl ⟨leg, there, rfl⟩)
    exact bench.opening_not_mem_tail (opening ▸ late)
  -- So only a patch makes calls.
  have idle : ∀ legs : List Leg, (∀ leg ∈ legs, leg ∈ back ∧ ∀ plan, leg.part ≠ .patching plan) →
      legs.flatMap Leg.calls = [] := by
    intro legs others
    refine List.flatMap_eq_nil_iff.mpr fun leg there => ?_
    obtain ⟨there, other⟩ := others leg there
    cases part : leg.part with
    | opening => exact absurd part (tail leg there)
    | patching plan => exact absurd part (other plan)
    | trying target follows => exact refused leg there target follows part
  refine ⟨?_, refused⟩
  by_cases patches : ∃ leg ∈ back, ∃ plan, leg.part = .patching plan
  · -- There is one patch at most, so the legs around it make no call.
    obtain ⟨leg, there, plan, part⟩ := patches
    obtain ⟨earlier, later, rfl⟩ := List.append_of_mem there
    rw [← List.append_assoc] at legs_eq
    obtain ⟨-, lead, last⟩ := legs_around_patch legs_eq part
    have none : ∀ other ∈ earlier ++ later, other ∈ earlier ++ leg :: later ∧
        ∀ plan, other.part ≠ .patching plan := by
      intro other member
      rcases List.mem_append.mp member with early | late
      · have there : other.part ∈ bench.leadParts :=
          lead ▸ List.mem_map_of_mem (List.mem_append_right _ early)
        exact ⟨by simp [early], (leadParts_apart there).1⟩
      · have there := last.subset (List.mem_map_of_mem late)
        refine ⟨by simp [late], fun plan same => ?_⟩
        exact not_mem_parts bench.variants (by simp) (same ▸ there)
    have before := idle earlier fun other member => none other (List.mem_append_left _ member)
    have after := idle later fun other member => none other (List.mem_append_right _ member)
    have performs := ((fits_of_mem (member leg there)).patches part).performs.1
    rw [List.flatMap_append, List.flatMap_cons, before, after, List.append_nil, List.nil_append]
    exact performs.sublist
  · have none := idle back fun leg there => ⟨there, fun plan part => patches ⟨leg, there, plan, part⟩⟩
    rw [none]
    exact List.nil_sublist _

/-- Legs that begin behind a call after which a request to stop holds begin with that request. -/
theorem asked_of_leads {s t : Session} {calls : List Exchange} (led : s.Leads calls t)
    (asked : s.scene.interrupted = true ∨ ∃ exchange ∈ calls, exchange.after.interrupted = true) :
    t.scene.interrupted = true := by
  rcases asked with before | ⟨exchange, member, made⟩
  · have carried := led.carried
    rw [before] at carried
    exact carried.of_asked.1
  · exact led.carried.of_mem member made

end Bench

/-- An interruption of a comparison is contained, whether the operator asks to stop or a command is
interrupted. -/
structure Contained (bench : Bench) (s : Session) : Prop where
  /-- If there is a request to stop from the start, the container service is still asked for and the
  workspace may be patched, but nothing is called for a target. -/
  asked_before : s.scene.interrupted = true →
    ((bench.execute.trace s).map Exchange.call).Sublist
        ((Bench.infoCommand :: bench.patchCommands).map .run) ∧
      ∀ leg ∈ bench.legs s, ∀ target follows, leg.part = .trying target follows → leg.calls = []
  /-- Behind a call after which a request to stop holds, there are only the remaining calls of the
  same leg and at most the patch of the workspace, and nothing is called for a later target. -/
  asked : ∀ before exchange after, bench.execute.trace s = before ++ exchange :: after →
    exchange.after.interrupted = true →
      ∃ earlier leg later own rest, bench.legs s = earlier ++ leg :: later ∧
        leg.calls = own ++ exchange :: rest ∧ before = earlier.flatMap Leg.calls ++ own ∧
        after = rest ++ later.flatMap Leg.calls ∧
        ((later.flatMap Leg.calls).map Exchange.call).Sublist (bench.patchCommands.map .run) ∧
        ∀ other ∈ later, ∀ target follows, other.part = .trying target follows → other.calls = []
  /-- A call that is interrupted, other than a removal that is made as far as possible, ends the
  comparison with an interruption. It belongs to the last leg, and only the removals of the containers
  of that target follow. -/
  interrupted : ∀ before exchange after, bench.execute.trace s = before ++ exchange :: after →
    exchange.reply.interrupted = true →
    ¬ IsBestEffort (before.reverse.map Exchange.call ++ s.calls) exchange.call →
      Stops (bench.execute.outcome s) ∧
        ∃ front leg own, bench.legs s = front ++ [leg] ∧ leg.calls = own ++ exchange :: after ∧
          (after.map Exchange.call).Sublist leg.part.removals
  /-- A removal is made as far as possible if a container was removed for the same target before. The
  first removal for a target is the one with which its database is started. -/
  removals : ∀ before exchange after, bench.execute.trace s = before ++ exchange :: after →
    ∀ container, exchange.call = .run (Bench.removeCommand container) →
      ∃ earlier leg later own rest, bench.legs s = earlier ++ leg :: later ∧
        leg.calls = own ++ exchange :: rest ∧
        (∃ target follows, leg.part = .trying target follows) ∧
        (IsBestEffort (before.reverse.map Exchange.call ++ s.calls) exchange.call ↔
          ∃ other ∈ own, ∃ container, other.call = .run (Bench.removeCommand container))
  /-- What a removal gives back that is made as far as possible makes no difference to what comes of
  the comparison, to its calls or to the world that it leaves. -/
  indifferent : ∀ other, bench.runner.Agrees other IsBestEffort →
    (bench.under other).execute.outcome s = bench.execute.outcome s ∧
      (bench.execute.after s).Alike ((bench.under other).execute.after s)

section Comparison

variable {bench : Bench} {s : Session}

/-- A call of a comparison belongs to one of its legs, and the other legs make the calls around
those of that one. -/
theorem leg_of_trace {before after : List Exchange} {exchange : Exchange}
    (split : bench.execute.trace s = before ++ exchange :: after) :
    ∃ earlier leg later own rest, bench.legs s = earlier ++ leg :: later ∧
      leg.calls = own ++ exchange :: rest ∧ before = earlier.flatMap Leg.calls ++ own ∧
      after = rest ++ later.flatMap Leg.calls := by
  have whole := (bench.leads_execute s).since_eq.symm.trans split
  obtain ⟨earlier, leg, later, own, rest, legs_eq, mine, rfl⟩ := flatMap_eq_append_cons whole
  refine ⟨earlier, leg, later, own, rest, legs_eq, mine, rfl, ?_⟩
  -- What stands before the call is known, so the rest is what is left.
  rw [legs_eq] at whole
  simpa [mine] using whole.symm

/-- If a leg ends a comparison with an interruption, it is the last one. -/
theorem stops_of_leg {earlier later : List Leg} {leg : Leg}
    (legs_eq : bench.legs s = earlier ++ leg :: later) (stops : Stops leg.outcome) :
    later = [] ∧ Stops (bench.execute.outcome s) := by
  obtain ⟨t, journey, -⟩ := bench.journey s
  obtain ⟨failure, failed, interruption⟩ := stops
  -- Only a leg that succeeded is followed by another one.
  obtain rfl : later = [] := by
    cases later with
    | nil => rfl
    | cons next later =>
      obtain ⟨-, -, records, passed⟩ := journey.goesOn legs_eq
      rw [failed] at passed
      cases passed
  refine ⟨rfl, failure, ?_, interruption⟩
  obtain ⟨records, -, kept, -⟩ | ⟨front, last, other, same, stopped, whole⟩ := journey.account
  · obtain ⟨own, passed, -⟩ := kept leg (by simp [legs_eq])
    rw [failed] at passed
    cases passed
  · obtain ⟨-, rfl⟩ := List.append_singleton_inj.mp (legs_eq.symm.trans same)
    rw [failed] at stopped
    cases stopped
    exact map_eq_error.mp whole

/-- Older calls before it do not change that a removal is made as far as possible. -/
theorem IsBestEffort.append {calls : List Call} {call : Call} (best : IsBestEffort calls call)
    (older : List Call) : IsBestEffort (calls ++ older) call := by
  obtain ⟨removes, newest, head, serves⟩ := best
  refine ⟨removes, newest, ?_, serves⟩
  rw [List.head?_append, head]
  rfl

/-- Every comparison contains its interruptions, whatever its commands do. -/
theorem interruption_contained (bench : Bench) (s : Session) : Contained bench s where
  asked_before asked := by
    obtain ⟨t, journey, -⟩ := bench.journey s
    obtain ⟨back, legs_eq⟩ : ∃ back, bench.legs s = [Leg.of bench .opening s] ++ back :=
      ⟨_, rfl⟩
    have every : ∀ leg ∈ bench.legs s, leg.before.scene.interrupted = true := by
      intro leg member
      obtain ⟨front, later, split⟩ := List.append_of_mem member
      exact Bench.asked_of_leads (journey.leads_to split) (.inl asked)
    obtain ⟨patches, refused⟩ := Bench.calls_of_asked legs_eq (by simp)
      fun leg member => every leg (by simp [legs_eq, member])
    constructor
    -- The opening asks for the service, and the patch follows at most.
    · have opens := ((bench.fits_opening s).opens rfl).1
      have whole := (bench.leads_execute s).since_eq
      rw [legs_eq, List.flatMap_append, List.flatMap_singleton] at whole
      show ((bench.execute.trace s).map Exchange.call).Sublist
        ([Bench.infoCommand].map .run ++ bench.patchCommands.map .run)
      rw [Action.trace, whole, List.map_append]
      exact opens.sublist.append patches
    · intro leg member target follows part
      rw [legs_eq] at member
      rcases List.mem_append.mp member with first | later
      · rw [List.mem_singleton.mp first] at part
        cases part
      · exact refused leg later target follows part
  asked before exchange after split made := by
    obtain ⟨t, journey, -⟩ := bench.journey s
    obtain ⟨earlier, leg, later, own, rest, legs_eq, mine, front, back⟩ := leg_of_trace split
    have asked : ∀ other ∈ later, other.before.scene.interrupted = true := by
      intro other member
      obtain ⟨between, last, rfl⟩ := List.append_of_mem member
      have whole : bench.legs s = (earlier ++ leg :: between) ++ other :: last := by simp [legs_eq]
      exact Bench.asked_of_leads (journey.leads_to whole) (.inr ⟨exchange, by simp [mine], made⟩)
    have legs_eq' : bench.legs s = (earlier ++ [leg]) ++ later := by simp [legs_eq]
    obtain ⟨patches, refused⟩ := Bench.calls_of_asked legs_eq' (by simp) asked
    exact ⟨earlier, leg, later, own, rest, legs_eq, mine, front, back, patches, refused⟩
  interrupted before exchange after split interrupted counts := by
    obtain ⟨earlier, leg, later, own, rest, legs_eq, mine, rfl, rfl⟩ := leg_of_trace split
    have member : leg ∈ bench.legs s := by simp [legs_eq]
    obtain ⟨stops, removals⟩ := Bench.heeds_of_mem member own exchange rest mine interrupted
      fun best => counts (by
        rw [List.reverse_append, List.map_append, List.append_assoc]
        exact best.append _)
    obtain ⟨rfl, whole⟩ := stops_of_leg legs_eq stops
    rw [List.flatMap_nil, List.append_nil]
    exact ⟨whole, earlier, leg, own, legs_eq, mine, removals⟩
  removals before exchange after split container removes := by
    obtain ⟨earlier, leg, later, own, rest, legs_eq, mine, rfl, -⟩ := leg_of_trace split
    have member : leg ∈ bench.legs s := by simp [legs_eq]
    exact ⟨earlier, leg, later, own, rest, legs_eq, mine,
      Bench.trying_of_removal member (by simp [mine]) removes,
      Bench.isBestEffort_iff legs_eq mine removes⟩
  indifferent other agrees := by
    obtain ⟨same, alike⟩ := Bench.execute_indifferent agrees s
    exact ⟨same.symm, alike⟩

end Comparison

/-- A session in which the operator has asked to stop before anything was done. -/
def Session.asked : Session :=
  { Session.sample with scene := { Session.sample.scene with interrupted := true } }

/-- A comparison that the operator has stopped before its start still makes a call, and that is neither
the patch of the workspace nor one for a target. -/
theorem asked_comparison_calls :
    Session.asked.scene.interrupted = true ∧
      ∃ exchange ∈ (Bench.sample true []).execute.trace .asked,
        exchange.call ≠ .run (Bench.sample true []).patchCommand ∧
        ∀ leg ∈ (Bench.sample true []).legs .asked, ∀ target follows,
          leg.part = .trying target follows → exchange ∉ leg.calls := by
  have answers : (Action.run (Bench.sample true []).runner Bench.infoCommand).outcome .asked =
      .ok ⟨0, "", ""⟩ := by decide
  have real : (Bench.sample true []).options.dryRun = false := rfl
  have ready : ∀ path ∈ (Bench.sample true []).lab.workingDirectories,
      Session.asked.scene.disk.makingAll path.ancestors = { changes := [] } := Session.sample_ready
  obtain ⟨opened, after⟩ := Bench.prepareRun_of_ready real ready answers rfl
  obtain ⟨exchange, led, call, -⟩ :=
    Action.leads_run (Bench.sample true []).runner Bench.infoCommand .asked
  have opening : (Leg.of (Bench.sample true []) .opening .asked).calls = [exchange] := by
    refine (Bench.leads_of _ _ .opening ?_).2
    rw [Part.action, Action.after_bind_of_ok opened, after]
    exact led
  have legs := Bench.legs_of_opened opened
  refine ⟨rfl, exchange, ?_, ?_, fun leg member target follows part => ?_⟩
  · have whole := ((Bench.sample true []).leads_execute .asked).since_eq
    rw [Action.trace, whole, legs, List.flatMap_cons, opening]
    exact List.mem_append_left _ List.mem_cons_self
  · rw [call]
    decide
  · -- The target is refused, so it has no call that could be this one.
    cases (Bench.fits_of_mem member).tries part with
    | refused _ none => simp [none]
    | driven unasked =>
      obtain ⟨t, journey, -⟩ := (Bench.sample true []).journey .asked
      obtain ⟨front, back, split⟩ := List.append_of_mem member
      have asked := Bench.asked_of_leads (journey.leads_to split) (.inl rfl)
      rw [asked] at unasked
      cases unasked

end DialectBench
