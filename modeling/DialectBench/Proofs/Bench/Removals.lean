import DialectBench.Proofs.Bench.BestEffort
import DialectBench.Proofs.Bench.Teardown

/-! The removals of containers in a comparison: which of them are made as far as possible. -/

namespace DialectBench

section Journals

variable {bench : Bench} {target : Target}

/-- Behind the watched call of a target there are only removals. -/
theorem Journal.removes_behind {calls front back : List Exchange} {stream exchange : Exchange}
    (journal : Journal bench target calls) (split : calls = front ++ stream :: back)
    (watched : stream.IsWatched) (member : exchange ∈ back) :
    ∃ container, exchange.call = .run (Bench.removeCommand container) := by
  obtain ⟨-, -, ending, -, cleared⟩ := journal.watched split watched
  obtain ⟨drops, removed⟩ := cleared
  -- The container of the tests is removed first, and that of the database last.
  rcases List.mem_append.mp member with dropped | last
  · exact ⟨_, (removes_of_drops drops dropped).2⟩
  · exact ⟨_, List.mem_singleton.mp last ▸ removed⟩

/-- A target that comes to its database makes the opening calls, a removal, and then only calls that
serve it, with another removal in the end. -/
theorem Journal.opened_or_served {calls : List Exchange} (journal : Journal bench target calls) :
    calls.map Exchange.call <+: (bench.openingCommands target).map .run ∨
      ∃ opening removal back teardown, calls = opening ++ removal :: back ++ [teardown] ∧
        Opening bench target opening removal ∧
        ∀ exchange ∈ removal :: back, exchange.call.ServesTarget := by
  cases journal with
  | unstarted opened => exact .inl opened
  | @untested opening rest removal teardown opens made removed =>
    refine .inr ⟨opening, removal, rest, teardown, by simp, opens, ?_⟩
    refine List.forall_mem_cons.mpr ⟨opens.removes ▸ .removal _, fun exchange member => ?_⟩
    -- The script and the question both serve the target.
    rcases List.mem_pair.mp (made.subset (List.mem_map_of_mem member)) with call | call
    · exact call ▸ .start bench target
    · exact call ▸ .inspection target
  | @tested before after stream ending stamp prepared streams ended cleared =>
    obtain @⟨opening, removal, start, inspection, opens, starts, -, inspects, -⟩ := prepared
    obtain @⟨dropped, teardown, drops, removed⟩ := cleared
    refine .inr ⟨opening, removal, start :: inspection :: stream :: dropped, teardown, by simp,
      opens, ?_⟩
    simp only [List.forall_mem_cons]
    exact ⟨opens.removes ▸ .removal _, starts ▸ .start bench target,
      inspects ▸ .inspection target, streams ▸ .tests _ _ _,
      fun exchange member => (removes_of_drops drops member).2 ▸ .removal _⟩

/-- What stands last behind an item is the item or one of those behind it. -/
theorem exists_getLast_mem {α : Type} (front : List α) (mark : α) (back : List α) :
    ∃ newest ∈ mark :: back, (front ++ mark :: back).getLast? = some newest := by
  obtain ⟨newest, found⟩ : ∃ newest, (mark :: back).getLast? = some newest :=
    ⟨_, List.getLast?_eq_some_getLast (List.cons_ne_nil mark back)⟩
  refine ⟨newest, List.mem_of_getLast? found, ?_⟩
  rw [List.getLast?_append, found]
  rfl

/-- Among the calls for a target the first removal follows the opening ones, and every other removal
follows a call that serves the target. -/
theorem Journal.removal_cases {calls own rest : List Exchange} {exchange : Exchange}
    {container : String} (journal : Journal bench target calls)
    (split : calls = own ++ exchange :: rest)
    (removes : exchange.call = .run (Bench.removeCommand container)) :
    Opening bench target own exchange ∨
      (∃ other ∈ own, ∃ container, other.call = .run (Bench.removeCommand container)) ∧
        ∃ newest, own.getLast? = some newest ∧ newest.call.ServesTarget := by
  have removal := Exchange.removes_of_call removes
  rcases journal.opened_or_served with opened | ⟨opening, first, back, last, whole, opens, serves⟩
  · -- No opening command is a removal.
    have member : exchange ∈ calls := by simp [split]
    have harmless := Bench.harmless_of_opening opened member
    exact absurd removal (harmless.not_removes container)
  have same : opening ++ first :: (back ++ [last]) = own ++ exchange :: rest := by
    simpa [whole] using split
  rcases List.append_eq_append_iff.mp same with ⟨between, rfl, behind⟩ | ⟨between, rfl, behind⟩
  · cases between with
    | nil =>
      obtain ⟨rfl, -⟩ := List.cons.inj behind
      exact .inl (by simpa using opens)
    | cons head between =>
      obtain ⟨rfl, others⟩ := List.cons.inj behind
      obtain ⟨newest, member, found⟩ := exists_getLast_mem opening first between
      refine .inr ⟨⟨first, by simp, _, opens.removes⟩, newest, found, serves newest ?_⟩
      -- What stands before the removal is behind the first one, and not the last call.
      have within : between <+: back := by
        rcases List.append_eq_append_iff.mp others with ⟨more, rfl, ends⟩ | ⟨more, rfl, _⟩
        · cases more with
          | nil => exact List.append_nil _ ▸ List.prefix_rfl
          | cons => simp at ends
        · exact List.prefix_append _ _
      rcases List.mem_cons.mp member with rfl | later
      · exact List.mem_cons_self
      · exact List.mem_cons_of_mem _ (within.subset later)
  · cases between with
    | nil =>
      obtain ⟨rfl, -⟩ := List.cons.inj behind
      exact .inl (by simpa using opens)
    | cons head between =>
      obtain ⟨rfl, -⟩ := List.cons.inj behind
      exact absurd removal ((opens.harmless exchange (by simp)).not_removes container)

end Journals

namespace Bench

variable {bench : Bench} {s : Session}

/-- No opening command of a target serves it yet. -/
theorem not_servesTarget_of_opening {target : Target} {command : Command}
    (member : command ∈ bench.openingCommands target) : ¬ (Call.run command).ServesTarget := by
  unfold openingCommands cleanCommands at member
  rcases List.mem_append.mp member with cleans | patches
  · split at cleans
    · cases cleans
    · exact List.mem_singleton.mp cleans ▸ clean_not_servesTarget _ _
  · obtain ⟨preset, -, rfl⟩ := List.mem_map.mp patches
    exact bench.preset_not_servesTarget preset

open DialectBench.Action in
/-- An opening that succeeds has asked for the container service last. -/
theorem calls_of_opened {records : List TargetRecord}
    (passed : (Leg.of bench .opening s).outcome = .ok records) :
    (Leg.of bench .opening s).calls.map Exchange.call = [.run infoCommand] := by
  obtain ⟨calls, led, -, all⟩ := bench.runs_prepareRun.bind (fun _ => (Quiet.pure []).runs) s
  rw [(bench.leads_of s .opening led).2]
  exact (all records passed).1

/-- A target without opening commands is MySQL, and only the opening comes before it. -/
theorem leads_of_unopened {earlier later : List Leg} {leg : Leg} {target : Target} {follows : Bool}
    (legs_eq : bench.legs s = earlier ++ leg :: later) (part : leg.part = .trying target follows)
    (none : target.preset = .none) : earlier.map Leg.part = [.opening] := by
  obtain ⟨rest, whole⟩ := bench.parts_prefix s
  have split : earlier.map Leg.part ++ .trying target follows :: (later.map Leg.part ++ rest) =
      bench.parts := by
    rw [← whole, legs_eq, ← part]
    simp
  -- The TiDB targets have presets, so this one is tried before the workspace is patched.
  have other : target ∉ bench.variants := by
    intro variant
    obtain ⟨preset, own⟩ := preset_of_mem_variants variant
    rw [none] at own
    cases own
  have late : ∀ targets : List Target, target ∉ targets →
      Part.trying target follows ∉ Target.parts targets := by
    intro targets apart member
    have there : target ∈ (Target.parts targets).flatMap Part.targets :=
      List.mem_flatMap.mpr ⟨_, member, by simp [Part.targets]⟩
    rw [flatMap_targets_parts] at there
    exact apart there
  -- So it stands right behind the opening, where MySQL is.
  have second : ∀ {front back tail : List Part} {mark : Part},
      front ++ .trying target follows :: back = .opening :: mark :: tail →
        .trying target follows ∉ tail → front = [.opening] := by
    intro front back tail mark same apart
    cases front with
    | nil => simp at same
    | cons first front =>
      obtain ⟨rfl, same⟩ := List.cons.inj same
      cases front with
      | nil => rfl
      | cons next front =>
        obtain ⟨-, same⟩ := List.cons.inj same
        obtain ⟨-, rfl⟩ := List.cons.inj same
        exact absurd (List.mem_append_right _ List.mem_cons_self) apart
  have member : Part.trying target follows ∈ bench.parts := by simp [← split]
  unfold parts at split member
  by_cases compares : bench.options.compareOnly = true
  · simp [compares] at member
  · by_cases one : bench.options.skipMysql = true
    · by_cases other : bench.options.skipTidb = true
      · simp [compares, one, other] at member
      · simp [compares, one, other, variantParts, late _ ‹_›] at member
    · by_cases other : bench.options.skipTidb = true
      · rw [if_neg compares, if_neg one, if_pos other] at split
        exact second split (by simp)
      · rw [if_neg compares, if_neg one, if_neg other] at split
        exact second split (by simp [variantParts, late _ ‹_›])

/-- A leg that removes a container tries a target. -/
theorem trying_of_removal {leg : Leg} (member : leg ∈ bench.legs s) {exchange : Exchange}
    (there : exchange ∈ leg.calls) {container : String}
    (removes : exchange.call = .run (removeCommand container)) :
    ∃ target follows, leg.part = .trying target follows := by
  have removal := Exchange.removes_of_call removes
  have fits := fits_of_mem member
  -- Neither the opening nor the patch removes anything.
  cases part : leg.part with
  | opening =>
    have call := List.mem_singleton.mp ((fits.opens part).1.subset (List.mem_map_of_mem there))
    exact absurd removal ((harmless_of_info call).not_removes container)
  | patching plan =>
    have harmless := harmless_of_patch (fits.patches part).performs.1 there
    exact absurd removal (harmless.not_removes container)
  | trying target follows => exact ⟨target, follows, rfl⟩

/-- A removal is made as far as possible if a container was removed for the same target before. The
first removal for a target is the one with which its database is started. -/
theorem isBestEffort_iff {earlier later : List Leg} {leg : Leg} {own rest : List Exchange}
    {exchange : Exchange} {container : String} (legs_eq : bench.legs s = earlier ++ leg :: later)
    (mine : leg.calls = own ++ exchange :: rest)
    (removes : exchange.call = .run (removeCommand container)) :
    IsBestEffort ((earlier.flatMap Leg.calls ++ own).reverse.map Exchange.call ++ s.calls)
        exchange.call ↔
      ∃ other ∈ own, ∃ container, other.call = .run (removeCommand container) := by
  have member : leg ∈ bench.legs s := by simp [legs_eq]
  obtain ⟨target, follows, part⟩ := trying_of_removal member (by simp [mine]) removes
  rw [List.reverse_append, List.map_append, List.append_assoc]
  rcases ((fits_of_mem member).tries part).journal.removal_cases mine removes with
    opens | ⟨before, newest, found, serves⟩
  · -- The first removal follows an opening command, and none of those serves a target.
    have fresh : ∀ calls, IsFresh (own.reverse.map Exchange.call ++
        ((earlier.flatMap Leg.calls).reverse.map Exchange.call ++ calls)) := by
      intro calls
      rcases List.eq_nil_or_concat own with rfl | ⟨front, last, rfl⟩
      · -- Without opening commands the container service was asked for last.
        have none : target.preset = .none := by
          have opened := opens.opened
          cases own : target.preset with
          | none => rfl
          | some preset => simp [openingCommands, own] at opened
        have alone := leads_of_unopened legs_eq part none
        obtain ⟨first, rfl, opening⟩ := List.map_eq_singleton_iff.mp alone
        obtain ⟨t, journey, -⟩ := bench.journey s
        have begins : bench.legs s = [] ++ first :: leg :: later := legs_eq
        obtain ⟨same, -, records, passed⟩ := journey.goesOn begins
        rw [opening] at same
        rw [same] at passed
        have asked := calls_of_opened passed
        rw [← same] at asked
        obtain ⟨only, made, call⟩ := List.map_eq_singleton_iff.mp asked
        exact isFresh_of_head (by simp [made, call]) info_not_servesTarget
      · have opened := opens.opened
        obtain ⟨command, there, call⟩ : ∃ command ∈ bench.openingCommands target,
            Call.run command = last.call := by
          have there : last.call ∈ (bench.openingCommands target).map .run := by
            rw [← opened]
            exact List.mem_map_of_mem (by simp)
          exact List.mem_map.mp there
        exact isFresh_of_head (by simp [call]) (not_servesTarget_of_opening there)
    refine ⟨fun best => absurd best ((fresh _).counts _), ?_⟩
    rintro ⟨other, there, container, removed⟩
    exact absurd (Exchange.removes_of_call removed) ((opens.harmless other there).not_removes _)
  · -- Every other removal follows a call that serves the target.
    refine ⟨fun _ => before, fun _ => ⟨⟨container, removes⟩, newest.call, ?_, serves⟩⟩
    rw [List.head?_append, List.head?_map, List.head?_reverse, found]
    rfl

end Bench

end DialectBench
