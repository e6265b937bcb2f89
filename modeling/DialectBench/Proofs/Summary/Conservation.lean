import DialectBench.Proofs.Disk.Contents
import DialectBench.Proofs.Suite.Counted
import DialectBench.Proofs.Summary.Tally

/-!
The sums below a directory conserve counts: each suite file counts once, in all and under its module, and
no other file counts. One suite file more adds its counts to both, and any other file changes nothing.
-/

namespace DialectBench

open Disk

namespace Disk

variable {d e : Disk} {p : Path} {place spot other : Location} {bytes : Bytes}

/-- A tree has one file more than another one, and the directories above it that were missing. -/
def Gains (d : Disk) (spot : Location) (bytes : Bytes) (e : Disk) : Prop :=
  ∃ places middle, d.Makes places middle ∧ middle.view spot = none ∧ middle.Puts spot bytes e

/-- A file that is put where nothing is leaves all that is seen. -/
theorem Puts.within (puts : d.Puts spot bytes e) (vacant : d.view spot = none) : d.Within e := by
  obtain ⟨mode, modified, seen⟩ := puts.seen
  intro other node there
  rw [seen, if_neg]
  · exact there
  · rintro rfl
    rw [vacant] at there
    cases there

/-- A new file makes no directory, so a path leads to one only if it did before. -/
theorem Puts.leads_iff (puts : d.Puts spot bytes e) (vacant : d.view spot = none) :
    e.Leads p place ↔ d.Leads p place := by
  constructor
  · rintro ⟨named, ⟨left, goes⟩, stands⟩
    obtain ⟨mode, modified, seen⟩ := puts.seen
    -- What was put is a file, so whatever is no file was there before.
    have kept : ∀ inner node, node.isFile = false → e.view inner = some node →
        d.view inner = some node := by
      intro inner node solid there
      rw [seen] at there
      split at there
      · cases there
        cases solid
      · exact there
    refine ⟨named, ⟨left, ?_⟩, view_eq_directory.mp (kept _ _ rfl (view_eq_directory.mpr stands))⟩
    rw [start, ← puts.current]
    exact goes.of_kept stands kept
  · exact fun leads => leads.mono (puts.within vacant) puts.current

namespace Gains

/-- A tree that gains a file is sound. -/
theorem sound (gains : d.Gains spot bytes e) : e.Sound := by
  obtain ⟨_, _, -, -, puts⟩ := gains
  exact puts.sound

/-- A path to a directory still leads there. -/
theorem leads (gains : d.Gains spot bytes e) (leads : d.Leads p place) : e.Leads p place := by
  obtain ⟨_, middle, makes, vacant, puts⟩ := gains
  exact (puts.leads_iff vacant).mpr (leads.mono makes.within makes.current_eq)

/-- The new file is there. -/
theorem held (gains : d.Gains spot bytes e) : e.content? spot = some bytes := by
  obtain ⟨_, _, -, -, puts⟩ := gains
  rw [puts.content?_eq, if_pos rfl]

/-- There was no file where the new one is. -/
theorem vacant (gains : d.Gains spot bytes e) : d.content? spot = none := by
  obtain ⟨_, middle, makes, vacant, -⟩ := gains
  rw [← makes.content?_eq, content?_eq, vacant]
  rfl

/-- Every other file is as it was. -/
theorem content?_eq (gains : d.Gains spot bytes e) (apart : other ≠ spot) :
    e.content? other = d.content? other := by
  obtain ⟨_, middle, makes, -, puts⟩ := gains
  rw [puts.content?_eq, if_neg apart, makes.content?_eq]

end Gains

end Disk

namespace Suite

variable {d e : Disk} {root : Path} {place spot : Location} {way : List String} {bytes : Bytes}

/-- Where every result is as it was, the suite files are the same. -/
theorem countedFiles_eq (sound : d.Sound) (leads : d.Leads root place) (sound' : e.Sound)
    (leads' : e.Leads root place)
    (same : ∀ way, isResultWay way = true → e.content? (place ++ way) = d.content? (place ++ way)) :
    countedFiles e root place = countedFiles d root place := by
  have ways : resultWays e root = resultWays d root :=
    filter_fileWays_eq sound' leads' sound leads fun way result => by rw [same way result]
  unfold countedFiles
  rw [ways]
  refine List.filterMap_congr fun way listed => ?_
  rw [fileAt, countsAt, same way ((mem_resultWays sound leads).mp listed).2]
  rfl

/-- A result more is listed once among the others. -/
theorem resultWays_of_gains (sound : d.Sound) (leads : d.Leads root place)
    (gains : d.Gains (place ++ way) bytes e) (result : isResultWay way = true) :
    ∃ front back, resultWays e root = front ++ way :: back ∧ resultWays d root = front ++ back ∧
      way ∉ front ++ back := by
  have stays := gains.leads leads
  have listed : way ∈ resultWays e root :=
    (mem_resultWays gains.sound stays).mpr ⟨by simp [gains.held], result⟩
  obtain ⟨front, back, split⟩ := List.append_of_mem listed
  -- Both lists are in ascending order, so they are the same up to the new result if their members
  -- are.
  have ascends : (resultWays e root).Pairwise fun a b => orderNames a b = .lt :=
    (fileWays_ascending gains.sound root).filter _
  have others : List.Sublist (front ++ back) (resultWays e root) := by
    rw [split]
    exact (List.sublist_cons_self way back).append_left front
  have once : way ∉ front ++ back := by
    have distinct := nodup_of_ascending ascends
    rw [split] at distinct
    exact (List.nodup_middle.mp distinct).notMem
  refine ⟨front, back, split, ?_, once⟩
  refine eq_of_ascending ((fileWays_ascending sound root).filter _) (ascends.sublist others)
    fun names => ?_
  by_cases own : names = way
  · subst own
    exact iff_of_false (fun before => ((mem_resultWays sound leads).mp before).1 gains.vacant) once
  -- Any other way leads to the same content as before.
  · have apart : place ++ names ≠ place ++ way := fun same => own (List.append_cancel_left same)
    have kept : names ∈ resultWays d root ↔ names ∈ resultWays e root := by
      rw [mem_resultWays sound leads, mem_resultWays gains.sound stays, gains.content?_eq apart]
    rw [kept, split]
    simp [own]

/-- A new result is counted once among the others if it is a suite file. -/
theorem countedFiles_of_gains (sound : d.Sound) (leads : d.Leads root place)
    (gains : d.Gains (place ++ way) bytes e) (result : isResultWay way = true) :
    ∃ front back, countedFiles d root place = front ++ back ∧
      countedFiles e root place =
        front ++ (fileAt e place way).toList ++ back := by
  obtain ⟨front, back, after, before, once⟩ := resultWays_of_gains sound leads gains result
  -- The other results are still counted as they were.
  have same (list : List (List String)) (among : ∀ names ∈ list, names ∈ front ++ back) :
      list.filterMap (fileAt e place) = list.filterMap (fileAt d place) := by
    refine List.filterMap_congr fun names member => ?_
    have apart : place ++ names ≠ place ++ way := fun same =>
      once (List.append_cancel_left same ▸ among names member)
    rw [fileAt, countsAt, gains.content?_eq apart]
    rfl
  refine ⟨front.filterMap (fileAt d place), back.filterMap (fileAt d place), ?_, ?_⟩
  · rw [countedFiles, before, List.filterMap_append]
  · rw [countedFiles, after, List.filterMap_append, List.filterMap_cons,
      same front fun _ => List.mem_append_left back, same back fun _ => List.mem_append_right front]
    cases fileAt e place way <;> simp

end Suite

namespace Summary

open Totals Suite

variable {d e : Disk} {root : Path} {place spot : Location} {way : List String} {bytes : Bytes}
  {totals : Totals}

/-- Sums account for suite files: each counts once, in all and under its module. -/
structure Accounts (files : List (List String × Totals)) (sums : Aggregate) : Prop where
  /-- The counts in all are the sums over the files. -/
  overall : ∀ which, sums.overall.count which = (files.map fun file => file.2.count which).sum
  /-- No module has two sums. -/
  distinct : (sums.modules.map Prod.fst).Nodup
  /-- The counts of a module are the sums over its files, of which there is one at least. -/
  bucket : ∀ name sum, (name, sum) ∈ sums.modules → 1 ≤ sum.files ∧ ∀ which, sum.count which =
    ((files.filter fun file => moduleOf file.1 = name).map fun file => file.2.count which).sum
  /-- The module of a file has a sum. -/
  known : ∀ file ∈ files, moduleOf file.1 ∈ sums.modules.map Prod.fst
  /-- The counts of the modules add up to those in all. -/
  conserved : ∀ which, (sums.modules.map fun entry => entry.2.count which).sum =
    sums.overall.count which

/-- The suites of a module are those of its files. -/
theorem ownOf_map (files : List (List String × Totals)) (name : String) :
    ownOf name (files.map fun file => (moduleOf file.1, file.2)) =
      (files.filter fun file => moduleOf file.1 = name).map Prod.snd := by
  simp [ownOf, List.filter_map, Function.comp_def]

/-- The sums over suite files account for them. -/
theorem accounts_sumsOf (files : List (List String × Totals)) (once : ∀ file ∈ files, file.2.files = 1) :
    Accounts files (sumsOf (files.map fun file => (moduleOf file.1, file.2))) where
  overall which := by
    -- The sum in all runs over every file, and those of the modules over their own.
    rw [overall_sumsOf, count_total]
    simp [Function.comp_def]
  distinct := (ascends_sumsOf _).distinct
  bucket name sum member := by
    obtain ⟨some, rfl⟩ := mem_modules_sumsOf.mp member
    rw [ownOf_map] at some ⊢
    have counts (which : Count) :
        (total ((files.filter fun file => moduleOf file.1 = name).map Prod.snd)).count which =
          ((files.filter fun file => moduleOf file.1 = name).map fun file => file.2.count which).sum := by
      rw [count_total]
      simp [Function.comp_def]
    refine ⟨?_, counts⟩
    -- The first of the files counts one.
    obtain ⟨file, others, split⟩ :=
      List.exists_cons_of_ne_nil fun none => some (List.map_eq_nil_iff.mpr none)
    have member : file ∈ files := (List.mem_filter.mp (split ▸ List.mem_cons_self)).1
    have first : file.2.count .files = 1 := once file member
    refine le_of_le_of_eq ?_ (counts .files).symm
    rw [split, List.map_cons, List.sum_cons, first]
    exact Nat.le_add_right 1 _
  known file member := by
    -- The module of a file has that file among its own.
    have own : ownOf (moduleOf file.1) (files.map fun file => (moduleOf file.1, file.2)) ≠ [] := by
      rw [ownOf_map]
      exact List.ne_nil_of_mem (List.mem_map_of_mem (List.mem_filter.mpr ⟨member, by simp⟩))
    exact List.mem_map_of_mem (f := Prod.fst) (mem_modules_sumsOf.mpr ⟨own, rfl⟩)
  conserved which := sum_modules_sumsOf _ which

/-- The sums below a directory are those over the suite files in it. -/
theorem sumsBelow_eq_sumsOf (sound : d.Sound) (leads : d.Leads root place) :
    sumsBelow d root =
      sumsOf ((countedFiles d root place).map fun file => (moduleOf file.1, file.2)) := by
  rw [sumsOf, ← suites_eq_map sound leads]
  rfl

/-- Where there is no directory there are no sums. -/
theorem sumsBelow_of_none (none : d.directory? root = none) : sumsBelow d root = {} := by
  have ways : resultWays d root = [] := by
    simp [resultWays, Disk.fileWays, Disk.waysBelow, none]
  simp [sumsBelow, suites, ways]

/-- A file that is no suite file changes no sums. -/
theorem sumsBelow_of_gains (sound : d.Sound) (leads : d.Leads root place)
    (gains : d.Gains spot bytes e)
    (idle : ∀ way totals, spot = place ++ way → ¬ HoldsCounts e place way totals) :
    sumsBelow e root = sumsBelow d root := by
  rw [sumsBelow_eq_sumsOf gains.sound (gains.leads leads), sumsBelow_eq_sumsOf sound leads]
  -- The file is no result, or it is one in which there are no counts.
  by_cases own : ∃ way, spot = place ++ way ∧ isResultWay way = true
  · obtain ⟨way, rfl, result⟩ := own
    obtain ⟨front, back, before, after⟩ := countedFiles_of_gains sound leads gains result
    have none : fileAt e place way = none := by
      rw [fileAt, Option.map_eq_none_iff, Option.eq_none_iff_forall_ne_some]
      exact fun totals counts => idle way totals rfl (holdsCounts_iff.mpr ⟨result, counts⟩)
    rw [after, before, none, Option.toList_none, List.append_nil]
  · have same := countedFiles_eq sound leads gains.sound (gains.leads leads) fun way result =>
      gains.content?_eq fun here => own ⟨way, here.symm, result⟩
    rw [same]

/-- A suite file more is added to the sums in all and to those of its module. -/
theorem sumsBelow_of_counts (sound : d.Sound) (leads : d.Leads root place)
    (gains : d.Gains (place ++ way) bytes e) (holds : HoldsCounts e place way totals) :
    (∀ which, (sumsBelow e root).overall.count which =
      (sumsBelow d root).overall.count which + totals.count which) ∧
    (∀ other, other ≠ moduleOf way → (sumsBelow e root).modules.lookup other =
      (sumsBelow d root).modules.lookup other) ∧
    ∃ sum, (sumsBelow e root).modules.lookup (moduleOf way) = some sum ∧
      ∀ which, sum.count which =
        (((sumsBelow d root).modules.lookup (moduleOf way)).getD {}).count which +
          totals.count which := by
  obtain ⟨result, counts⟩ := holdsCounts_iff.mp holds
  -- The new file stands among the others in the order of their ways, and its place makes no
  -- difference.
  obtain ⟨front, back, before, after⟩ := countedFiles_of_gains sound leads gains result
  have found : fileAt e place way = some (way, totals) := by rw [fileAt, counts]; rfl
  rw [sumsBelow_eq_sumsOf gains.sound (gains.leads leads), sumsBelow_eq_sumsOf sound leads, after,
    before, found, Option.toList_some, List.append_assoc, List.singleton_append, List.map_append,
    List.map_append, List.map_cons]
  exact sumsOf_insert _ _ _ _

/-- The counts below a directory are the sums over the suite files in it, in all and of each module; one
suite file more adds its counts to those in all and to those of its module, and any other file changes
nothing. -/
theorem counts_conserved (sound : d.Sound) (root : Path) :
    (d.directory? root = none → sumsBelow d root = {} ∧ ∀ spot bytes e, d.view spot = none →
      d.Puts spot bytes e → sumsBelow e root = {}) ∧
    ∀ place, d.directory? root = some place →
      (∃ files : List (List String × Totals), (files.map Prod.fst).Nodup ∧
        (∀ way totals, (way, totals) ∈ files ↔ HoldsCounts d place way totals) ∧
        (∀ file ∈ files, file.2.files = 1) ∧ Accounts files (sumsBelow d root)) ∧
      ∀ spot bytes e, d.Gains spot bytes e →
        ((∀ way totals, spot = place ++ way → ¬ HoldsCounts e place way totals) →
          sumsBelow e root = sumsBelow d root) ∧
        ∀ way totals, spot = place ++ way → HoldsCounts e place way totals →
          (∀ which, (sumsBelow e root).overall.count which =
            (sumsBelow d root).overall.count which + totals.count which) ∧
          (∀ other, other ≠ moduleOf way → (sumsBelow e root).modules.lookup other =
            (sumsBelow d root).modules.lookup other) ∧
          ∃ sum, (sumsBelow e root).modules.lookup (moduleOf way) = some sum ∧
            ∀ which, sum.count which =
              (((sumsBelow d root).modules.lookup (moduleOf way)).getD {}).count which +
                totals.count which := by
  refine ⟨fun none => ⟨sumsBelow_of_none none, fun spot bytes e vacant puts => ?_⟩,
    fun place found => ?_⟩
  -- A file makes no directory, so there is still none to be summarized.
  · refine sumsBelow_of_none (Option.eq_none_iff_forall_ne_some.mpr fun place again => ?_)
    have before := directory?_eq_some.mpr ((puts.leads_iff vacant).mp (directory?_eq_some.mp again))
    rw [none] at before
    cases before
  · have leads := directory?_eq_some.mp found
    have members (way : List String) (totals : Totals) :
        (way, totals) ∈ countedFiles d root place ↔ HoldsCounts d place way totals :=
      mem_countedFiles sound leads
    -- Whatever holds counts is read as a single file.
    have once : ∀ file ∈ countedFiles d root place, file.2.files = 1 := by
      rintro ⟨way, totals⟩ member
      obtain ⟨_, _, _, _, _, -, -, -, -, rfl⟩ := ((members way totals).mp member).suite
      rfl
    refine ⟨⟨_, nodup_countedFiles sound root place, members, once, ?_⟩,
      fun spot bytes e gains => ⟨sumsBelow_of_gains sound leads gains, ?_⟩⟩
    · rw [sumsBelow_eq_sumsOf sound leads]
      exact accounts_sumsOf _ once
    · rintro way totals rfl holds
      exact sumsBelow_of_counts sound leads gains holds

/-- A workspace with one suite file, next to one that is no document and one outside the test results. -/
def shelf : Disk where
  entries := [(["w"], .directory 0), (["w", "a"], .directory 0), (["w", "a", "target"], .directory 0),
    (["w", "a", "target", "test-results"], .directory 0),
    (["w", "a", "target", "test-results", "t.XML"],
      .file (Text.encode "<testsuite tests=\"2\" failures=\"1\"/>") false 0),
    (["w", "a", "target", "test-results", "n.xml"], .file (Text.encode "<testsuite") false 0),
    (["w", "a", "target", "o.xml"], .file (Text.encode "<testsuite tests=\"9\"/>") false 0),
    (["w", "b"], .directory 0), (["w", "b", "test-results"], .directory 0)]
  current := []
  clock := 0

/-- That workspace with a suite file more in the test results of another module. -/
def fullerShelf : Disk :=
  shelf.apply (.writeFile ["w", "b", "test-results", "u.xml"] (Text.encode "<testsuite tests=\"3\"/>"))

/-- That workspace with a suite file more outside the test results. -/
def widerShelf : Disk :=
  shelf.apply (.writeFile ["w", "b", "u.xml"] (Text.encode "<testsuite tests=\"3\"/>"))

/-- The suite file is found with its counts, and the new one, too. -/
theorem evaluated_shelf :
    shelf.directory? ⟨"/w"⟩ = some ["w"] ∧
      ((sumsBelow shelf ⟨"/w"⟩).overall.tests = 2 ∧
        (sumsBelow shelf ⟨"/w"⟩).modules.map Prod.fst = ["a"]) ∧
      isResultWay ["b", "test-results", "u.xml"] = true ∧
      (countsAt fullerShelf ["w"] ["b", "test-results", "u.xml"]).map Totals.tests = some 3 := by
  decide +kernel

/-- In the small workspace the counts are those of its suite file, a second one adds its own to them, and
one outside the test results does not. -/
theorem counts_of_shelf :
    shelf.Sound ∧ shelf.directory? ⟨"/w"⟩ = some ["w"] ∧
      shelf.Gains ["w", "b", "test-results", "u.xml"] (Text.encode "<testsuite tests=\"3\"/>")
        fullerShelf ∧
      shelf.Gains ["w", "b", "u.xml"] (Text.encode "<testsuite tests=\"3\"/>") widerShelf ∧
      (sumsBelow shelf ⟨"/w"⟩).overall.tests = 2 ∧
      (sumsBelow fullerShelf ⟨"/w"⟩).overall.tests = 5 ∧
      (sumsBelow fullerShelf ⟨"/w"⟩).modules.lookup "a" =
        (sumsBelow shelf ⟨"/w"⟩).modules.lookup "a" ∧
      sumsBelow widerShelf ⟨"/w"⟩ = sumsBelow shelf ⟨"/w"⟩ := by
  have sound : shelf.Sound :=
    ⟨by decide, by decide, by decide, by decide⟩
  obtain ⟨here, ⟨tests, -⟩, result, counts⟩ := evaluated_shelf
  -- The files are put into directories that are there, so nothing is made on the way.
  have gains (spot : Location) (fits : shelf.Fits spot) (bytes : Bytes) :
      shelf.Gains spot bytes (shelf.apply (.writeFile spot bytes)) :=
    ⟨[], shelf, .done, view_eq_none.mpr fits.vacant, sound.puts_writeFile (.inl fits) bytes⟩
  have fuller := gains ["w", "b", "test-results", "u.xml"]
    ⟨by decide, by decide, by decide⟩ (Text.encode "<testsuite tests=\"3\"/>")
  have wider := gains ["w", "b", "u.xml"]
    ⟨by decide, by decide, by decide⟩ (Text.encode "<testsuite tests=\"3\"/>")
  obtain ⟨totals, held, three⟩ := Option.map_eq_some_iff.mp counts
  obtain ⟨-, adds⟩ := (counts_conserved sound ⟨"/w"⟩).2 _ here
  obtain ⟨more, others, -⟩ := (adds _ _ _ fuller).2 _ totals rfl (holdsCounts_iff.mpr ⟨result, held⟩)
  -- The second file lies outside of the test results.
  have idle := (adds _ _ _ wider).1 fun way totals own holds => by
    have split : ["w"] ++ ["b", "u.xml"] = ["w"] ++ way := own
    obtain rfl := List.append_cancel_left split
    exact absurd (holdsCounts_iff.mp holds).1 (by decide)
  refine ⟨sound, here, fuller, wider, tests, ?_, others "a" (by decide), idle⟩
  have sum := more .tests
  rw [show totals.count .tests = 3 from three, show (sumsBelow shelf ⟨"/w"⟩).overall.count .tests = 2
    from tests] at sum
  exact sum

end Summary

end DialectBench
