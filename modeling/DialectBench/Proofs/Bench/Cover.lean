import DialectBench.Proofs.Bench.Shelter
import DialectBench.Proofs.Collection.Chores
import DialectBench.Proofs.Disk.Cleared

/-! The directories of results that are looked for are the outermost ones: none of them lies in another one,
all others lie in them, and when they are removed none is left and nothing else is lost. -/

namespace DialectBench

open Disk Action

variable {d e : Disk} {root : Path} {home : Location} {way : List String}

namespace Suite

/-- A list of names is not ordered behind a longer one that begins with it. -/
theorem isLE_orderNames_append (names rest : List String) :
    (orderNames names (names ++ rest)).isLE = true := by
  induction names with
  | nil => cases rest <;> rfl
  | cons name names ih =>
    rw [List.cons_append, orderNames, Std.ReflOrd.compare_self]
    exact ih

/-- What is ordered behind a list of names is no beginning of it. -/
theorem not_prefix_of_orderNames {a b : List String} (less : orderNames a b = .lt) : ¬ b <+: a := by
  rintro ⟨rest, rfl⟩
  have least := isLE_orderNames_append b rest
  rw [orderNames_eq] at least less
  rw [Std.OrientedOrd.eq_swap, less] at least
  cases least

section Outermost

variable {wanted : List String → Bool} {chosen ways : List (List String)}

/-- No chosen way leads through another one, if no way leads through one that is listed later. -/
theorem outermost_pairwise (ordered : ways.Pairwise fun a b => ¬ b <+: a)
    (aloof : chosen.Pairwise Aloof) (first : ∀ outer ∈ chosen, ∀ way ∈ ways, ¬ way <+: outer) :
    (outermost wanted chosen ways).Pairwise Aloof := by
  induction ways generalizing chosen with
  | nil => exact aloof
  | cons way ways ih =>
    obtain ⟨behind, ordered⟩ := List.pairwise_cons.mp ordered
    have before : ∀ outer ∈ chosen, ∀ later ∈ ways, ¬ later <+: outer := fun outer listed later member =>
      first outer listed later (List.mem_cons_of_mem _ member)
    rw [outermost]
    split
    · exact ih ordered aloof before
    next uncovered =>
      split
      · -- The way leads through no chosen one, as that was asked, and none of them through it, as it comes
        -- behind them.
        have beside : ∀ outer ∈ chosen, Aloof outer way := fun outer listed =>
          ⟨fun inside => uncovered (List.any_eq_true.mpr
            ⟨outer, listed, List.isPrefixOf_iff_prefix.mpr inside⟩),
            first outer listed way List.mem_cons_self⟩
        refine ih ordered (List.pairwise_append.mpr ⟨aloof, List.pairwise_singleton _ _, ?_⟩) ?_
        · simpa using beside
        · intro outer listed later member
          rcases List.mem_append.mp listed with old | own
          · exact before outer old later member
          · obtain rfl := List.mem_singleton.mp own
            exact behind later member
      · exact ih ordered aloof before

end Outermost

/-- A way leads to a directory of results: it ends in the name of one, and before that it leads through a
build output. -/
def LeadsToResults (way : List String) : Prop :=
  ∃ above name, way = above ++ [name] ∧
    (name = "test-results" ∨ name = "reports" ∨ name = "classes") ∧ "target" ∈ above

/-- Such ways are looked for. -/
theorem isTransientWay_iff : isTransientWay way = true ↔ LeadsToResults way := by
  constructor
  · intro transient
    induction way using List.reverseRecOn with
    | nil => cases transient
    | append_singleton above name _ =>
      simp only [isTransientWay, List.getLast?_concat, List.dropLast_concat, Bool.and_eq_true,
        List.contains_iff_mem] at transient
      exact ⟨above, name, rfl, by simpa [transientNames, resultsName, reportsName] using transient.1, transient.2⟩
  · rintro ⟨above, name, rfl, known, inside⟩
    exact isTransientWay_append (by simpa [transientNames, resultsName, reportsName] using known) inside

/-- Ways lead to the outermost directories of results below a place. -/
structure OutermostResults (d : Disk) (home : Location) (ways : List (List String)) : Prop where
  /-- None of the directories lies in another one, and none is listed twice. -/
  aloof : ways.Pairwise Aloof
  /-- Each of them is a directory of results. -/
  results : ∀ way ∈ ways, LeadsToResults way ∧ d.isDirectoryAt (home ++ way) = true
  /-- Every directory of results is one of them or lies in one of them. -/
  covers : ∀ way, LeadsToResults way → d.isDirectoryAt (home ++ way) = true →
    ∃ outer ∈ ways, outer <+: way

/-- In a workspace the outermost directories of results are looked for. -/
theorem outermostResults (sound : d.Sound) (leads : d.Leads root home) :
    OutermostResults d home (transientWays d root) where
  aloof := outermost_pairwise ((waysBelow_ascending sound root _).imp not_prefix_of_orderNames) .nil
    (by simp)
  results way listed := by
    refine ⟨?_, (mem_transientWays sound leads listed).2⟩
    obtain none | ⟨-, transient⟩ := mem_outermost listed
    · cases none
    · exact isTransientWay_iff.mp transient
  covers way results stands := transientWays_cover sound leads (isTransientWay_iff.mpr results) stands

/-- What lies in one of the directories that ways lead to. -/
def Inside (home : Location) (ways : List (List String)) (place : Location) : Prop :=
  ∃ way ∈ ways, home ++ way <+: place

/-- Where what is in the outermost directories of results is gone, no directory of results is left. -/
theorem OutermostResults.swept {ways : List (List String)} (outer : OutermostResults d home ways)
    (clears : d.Clears (Inside home ways) e) : Swept e home := by
  intro way transient
  rw [← Bool.not_eq_true, ← view_eq_directory]
  by_cases lost : Inside home ways (home ++ way)
  · simp [clears.free _ lost]
  · rw [clears.kept _ lost, view_eq_directory]
    intro stands
    obtain ⟨first, listed, inside⟩ := outer.covers way (isTransientWay_iff.mp transient) stands
    exact lost ⟨first, listed, (List.prefix_append_right_inj home).mpr inside⟩

/-- Nothing is found in a workspace without directories of results. -/
theorem transientWays_of_swept (sound : d.Sound) (swept : ∀ home, d.Leads root home → Swept d home) :
    transientWays d root = [] := by
  by_cases there : ∃ home, d.Leads root home
  · obtain ⟨home, leads⟩ := there
    refine List.eq_nil_iff_forall_not_mem.mpr fun way listed => ?_
    obtain ⟨results, stands⟩ := (outermostResults sound leads).results way listed
    rw [swept home leads way (isTransientWay_iff.mpr results)] at stands
    cases stands
  · exact transientWays_of_not_leads (not_exists.mp there)

/-- A workspace is clean: what was in the outermost directories of results is gone, everything else is as it
was, no directory of results is left, and nothing is found when they are looked for again. -/
structure Cleaned (d : Disk) (root : Path) (home : Location) (e : Disk) : Prop where
  /-- The directories that were looked for are gone, and nothing else. -/
  clears : d.Clears (Inside home (transientWays d root)) e
  /-- No directory of results is left. -/
  swept : ∀ way, LeadsToResults way → e.isDirectoryAt (home ++ way) = false
  /-- Nothing is found again. -/
  again : transientWays e root = []

/-- A workspace is clean when the outermost directories of results are gone and nothing else. -/
theorem cleaned_of_clears (sound : d.Sound) (leads : d.Leads root home)
    (clears : d.Clears (Inside home (transientWays d root)) e) : Cleaned d root home e := by
  have swept : Swept e home := (outermostResults sound leads).swept clears
  refine ⟨clears, fun way results => swept way (isTransientWay_iff.mpr results), ?_⟩
  refine transientWays_of_swept clears.sound fun other found => ?_
  obtain rfl := leads.unique (found.mono clears.within clears.current.symm)
  exact swept

end Suite

namespace Bench

open Suite

variable {bench : Bench} {s : Session}

/-- When the workspace was cleaned nothing is found again. -/
theorem transientWays_cleanResults (real : bench.options.dryRun = false) (sound : s.scene.disk.Sound) :
    transientWays (bench.cleanResults.after s).scene.disk bench.lab.workspace = [] :=
  transientWays_of_swept (thins_cleanResults sound real).1 fun _ leads =>
    bench.swept_cleanResults real sound leads

/-- Cleaning a workspace that can still be found removes the outermost directories of results. -/
theorem cleaned_cleanResults (real : bench.options.dryRun = false) (sound : s.scene.disk.Sound)
    (leads : s.scene.disk.Leads bench.lab.workspace home)
    (still : (bench.cleanResults.after s).scene.disk.Leads bench.lab.workspace home) :
    Cleaned s.scene.disk bench.lab.workspace home (bench.cleanResults.after s).scene.disk := by
  obtain ⟨left, thins⟩ := thins_cleanResults_of_leads sound leads real
  have swept := bench.swept_cleanResults real sound still
  refine cleaned_of_clears sound leads (.of_thins left thins ?_)
  rintro place ⟨way, listed, rest, rfl⟩
  obtain ⟨results, stood⟩ := (outermostResults sound leads).results way listed
  have gone := swept way (isTransientWay_iff.mpr results)
  -- The directory stood before, so it is lost if it does not stand any more.
  refine left.view_eq_none_of_append ((thins.seen (home ++ way)).elim (fun same => ?_) And.right)
  rw [view_eq_directory.mpr stood, view_eq_directory, gone] at same
  cases same

end Bench

namespace Suite

/-- What is looked for in a workspace are its outermost directories of results. When they are removed the
workspace is clean; and when a comparison cleans it nothing but what is in them is lost, nothing is found
again, and it is clean if its path still leads to it. -/
theorem transientWays_outermost (sound : d.Sound) (root : Path) :
    ((∀ home, ¬ d.Leads root home) → transientWays d root = []) ∧
      ∀ home, d.Leads root home →
        OutermostResults d home (transientWays d root) ∧
        Cleaned d root home (d.cleared ((transientWays d root).map (home ++ ·))) ∧
        ∀ (bench : Bench) (s : Session), s.scene.disk = d → bench.lab.workspace = root →
          bench.options.dryRun = false →
          (∀ place, ¬ Inside home (transientWays d root) place →
            (bench.cleanResults.after s).scene.disk.view place = d.view place) ∧
          transientWays (bench.cleanResults.after s).scene.disk root = [] ∧
          ((bench.cleanResults.after s).scene.disk.Leads root home →
            Cleaned d root home (bench.cleanResults.after s).scene.disk) := by
  refine ⟨transientWays_of_not_leads, fun home leads => ⟨outermostResults sound leads, ?_, ?_⟩⟩
  · have inner : ∀ place ∈ (transientWays d root).map (home ++ ·), place ≠ [] := by
      intro place member
      obtain ⟨way, listed, rfl⟩ := List.mem_map.mp member
      simp [(mem_transientWays sound leads listed).1]
    have clears := clears_cleared sound inner
    have same : (fun other => ∃ place ∈ (transientWays d root).map (home ++ ·), place <+: other) =
        Inside home (transientWays d root) := by
      funext other
      simp [Inside]
    exact cleaned_of_clears sound leads (same ▸ clears)
  · rintro bench s rfl rfl real
    have thins := (bench.thins_cleanResults_of_leads sound leads real).2
    exact ⟨fun place spared => (thins.seen place).resolve_right fun gone => spared gone.1,
      bench.transientWays_cleanResults real sound,
      bench.cleaned_cleanResults real sound leads⟩

/-- A workspace in which directories of results lie in one another, behind a build output whose name begins like
that of another directory, and without a build output. -/
def layered : Disk where
  entries :=
    [(["ws"], .directory 0), (["ws", "a-b"], .directory 0), (["ws", "a-b", "classes"], .directory 0),
      (["ws", "a"], .directory 0), (["ws", "a", "target"], .directory 0),
      (["ws", "a", "target", "reports"], .directory 0),
      (["ws", "a", "target", "reports", "classes"], .directory 0),
      (["ws", "a", "target", "reports", "classes", "Main.class"], .file [] false 0),
      (["ws", "a", "target", "libs"], .directory 0),
      (["ws", "a", "target", "test-results"], .directory 0)]
  current := []
  clock := 0

/-- The path leads to that workspace. -/
theorem leads_layered : layered.Leads "ws" ["ws"] where
  named := fun none => absurd none (by decide)
  goes := by
    have steps : Path.steps "ws" = [.down "ws"] := by decide
    have seen : layered.view ["ws"] = some (.directory 0) := by decide
    rw [steps]
    exact ⟨linkLimit, .down (by decide) seen (by simp) .done⟩
  stands := by decide

/-- In that workspace two directories are removed, and everything else stays. -/
theorem layered_cleaned :
    layered.Sound ∧
      transientWays layered "ws" = [["a", "target", "reports"], ["a", "target", "test-results"]] ∧
      OutermostResults layered ["ws"] (transientWays layered "ws") ∧
      Cleaned layered "ws" ["ws"] (layered.cleared ((transientWays layered "ws").map (["ws"] ++ ·))) := by
  have sound : layered.Sound := ⟨by decide, by decide, by decide, by decide⟩
  have found : transientWays layered "ws" =
      [["a", "target", "reports"], ["a", "target", "test-results"]] := by
    rw [transientWays, directoryWays, waysBelow, directory?_eq_some.mpr leads_layered]
    decide
  obtain ⟨outer, cleaned, -⟩ := (transientWays_outermost sound "ws").2 ["ws"] leads_layered
  exact ⟨sound, found, outer, cleaned⟩

end Suite

end DialectBench
