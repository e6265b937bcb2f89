import DialectBench.Proofs.Disk.Making
import DialectBench.Suite.Place

/-! The modules of a workspace: what makes a module, and that new directories make none. -/

namespace DialectBench

open Disk

namespace Disk

variable {d e : Disk} {root : Path} {home place : Location} {way : List String}

/-- A way is one to a file below a directory. -/
theorem mem_fileWays (sound : d.Sound) (leads : d.Leads root home) :
    way ∈ d.fileWays root ↔ way ≠ [] ∧ ∃ content executable modified,
      d.find? (home ++ way) = some (.file content executable modified) := by
  rw [fileWays, waysBelow, directory?_eq_some.mpr leads]
  simp only [mem_inOrder, List.mem_map, List.mem_filter, Prod.exists]
  constructor
  · rintro ⟨names, node, ⟨listed, file⟩, rfl⟩
    obtain ⟨some, found⟩ := sound.mem_below.mp listed
    cases node with
    | file content executable modified => exact ⟨some, content, executable, modified, found⟩
    | directory | link => simp [Node.isFile] at file
  · rintro ⟨some, content, executable, modified, found⟩
    exact ⟨way, _, ⟨sound.mem_below.mpr ⟨some, found⟩, rfl⟩, rfl⟩

/-- A way is one to a file below a directory if a file has a content there. -/
theorem mem_fileWays_iff (sound : d.Sound) (leads : d.Leads root home) :
    way ∈ d.fileWays root ↔ way ≠ [] ∧ d.content? (home ++ way) ≠ none := by
  rw [mem_fileWays sound leads, Option.ne_none_iff_exists']
  simp only [content?_eq_some]

/-- Names on the way to a file are plain. -/
theorem isPlain_of_mem_fileWays (sound : d.Sound) (member : way ∈ d.fileWays root) :
    ∀ name ∈ way, IsPlain name := by
  cases there : d.directory? root with
  | none => simp [fileWays, waysBelow, there] at member
  | some home =>
    obtain ⟨-, _, _, _, found⟩ :=
      (mem_fileWays sound (directory?_eq_some.mp there)).mp member
    intro name inside
    have seen : d.view (home ++ way) ≠ none := by
      rw [ne_eq, view_eq_none]
      simp [found]
    exact sound.isPlain seen (List.mem_append_right _ inside)

/-- The files among the entries, in the order in which they are listed. -/
def files (d : Disk) : List (Location × Node) :=
  d.entries.filter fun entry => entry.2.isFile

/-- The files below a place are those of the files that lie below it. -/
theorem filter_below (d : Disk) (place : Location) :
    ((d.below place).filter fun entry => entry.2.isFile) =
      d.files.filterMap fun entry => (place.below? entry.1).map fun names => (names, entry.2) := by
  unfold below files
  induction d.entries with
  | nil => rfl
  | cons entry entries ih =>
    rw [List.filterMap_cons, List.filter_cons]
    cases behind : place.below? entry.1 <;> cases file : entry.2.isFile <;>
      simp [behind, file, ih]

/-- A directory whose list of entries changes is no file, before or after. -/
theorem files_touchDirectory (d : Disk) (place : Location) :
    (d.touchDirectory place).files = d.files := by
  unfold touchDirectory replace files
  dsimp only
  induction d.entries with
  | nil => rfl
  | cons entry entries ih =>
    obtain ⟨other, node⟩ := entry
    rw [List.map_cons, List.filter_cons, List.filter_cons, ih]
    by_cases own : other = place <;> cases node <;> simp [own, Node.isFile]

/-- A new directory is no new file. -/
theorem files_makeDirectory (d : Disk) (place : Location) :
    (d.apply (.makeDirectory place)).files = d.files := by
  unfold apply insert
  rw [files_touchDirectory]
  simp [files, Node.isFile]

/-- New directories are no new files. -/
theorem Makes.files_eq {places : List Location} (makes : d.Makes places e) : e.files = d.files := by
  induction makes with
  | done => rfl
  | next _ _ ih => rw [ih, files_makeDirectory]

/-- New directories do not change the ways to files. -/
theorem Makes.fileWays_eq {places : List Location} (makes : d.Makes places e)
    (leads : d.Leads root home) : e.fileWays root = d.fileWays root := by
  have stays := leads.mono makes.within makes.current_eq
  unfold fileWays waysBelow
  rw [directory?_eq_some.mpr leads, directory?_eq_some.mpr stays]
  dsimp only
  rw [filter_below, filter_below, makes.files_eq]

end Disk

namespace Suite

variable {d : Disk} {root : Path} {home : Location} {way names : List String}

/-- The first build output with test results directly in it comes behind the names of the module. -/
theorem markerIndex?_eq_some {index : Nat} (marked : markerIndex? way = some index) :
    ∃ rest, way = way.take index ++ outputName :: resultsName :: rest := by
  -- By induction on the way, with its two first names looked at in every step.
  induction way generalizing index with
  | nil => simp [markerIndex?] at marked
  | cons first way ih =>
    cases way with
    | nil => simp [markerIndex?] at marked
    | cons second rest =>
      rw [markerIndex?] at marked
      -- Either the marker stands here, or it is found one name further on.
      split at marked
      next both =>
        obtain rfl := Option.some.inj marked
        simp only [Bool.and_eq_true, decide_eq_true_eq] at both
        exact ⟨rest, by simp [both.1, both.2]⟩
      next =>
        obtain ⟨below, inner, rfl⟩ := Option.map_eq_some_iff.mp marked
        obtain ⟨others, same⟩ := ih inner
        exact ⟨others, by rw [List.take_succ_cons, List.cons_append, ← same]⟩

/-- A file that belongs to a module is an XML file in its test results. -/
theorem owner?_eq_some (owned : owner? way = some names) :
    names ≠ [] ∧ isXmlWay way = true ∧
      ∃ rest, rest ≠ [] ∧ way = names ++ outputName :: resultsName :: rest := by
  unfold owner? at owned
  split at owned
  next xml =>
    split at owned
    next index marked =>
      obtain rfl := Option.some.inj owned
      obtain ⟨rest, same⟩ := markerIndex?_eq_some marked
      refine ⟨?_, xml, rest, ?_, same⟩
      · -- Otherwise the way would be cut to nothing, while it holds the marker.
        intro none
        rw [none] at same
        simp only [List.nil_append] at same
        rw [same] at none
        simp at none
      · -- The directory of the test results has no extension, so it is not the XML file itself.
        rintro rfl
        have ends : way.getLast? = .some resultsName := by
          rw [same]
          simp
        rw [isXmlWay, ends] at xml
        exact absurd xml (by decide)
    · simp at owned
  · simp at owned

/-- A module is the owner of a file. -/
theorem mem_modules :
    names ∈ modules d root ↔ ∃ way ∈ d.fileWays root, owner? way = some names := by
  simp [modules, mem_inOrder, List.mem_eraseDups]

/-- Names are ordered as lists of texts are. -/
theorem orderNames_eq (a b : List String) : orderNames a b = compare a b := by
  induction a generalizing b with
  | nil => cases b <;> rfl
  | cons first a ih =>
    cases b with
    | nil => rfl
    | cons other b =>
      rw [orderNames, ih]
      exact List.compareLex_cons_cons.symm

/-- Without what occurs again nothing occurs twice. -/
theorem nodup_eraseDups (list : List (List String)) : list.eraseDups.Nodup := by
  -- Behind the first element those that are like it are left out, so the rest gets shorter.
  induction size : list.length using Nat.strong_induction_on generalizing list with
  | _ size ih =>
    cases list with
    | nil => simp
    | cons first rest =>
      rw [List.eraseDups_cons]
      refine List.nodup_cons.mpr ⟨by simp [List.mem_eraseDups], ih _ ?_ _ rfl⟩
      have fewer := List.length_filter_le (fun other => !other == first) rest
      simp only [List.length_cons] at size
      omega

/-- What is ordered behind something that is ordered behind a third one is ordered behind that. -/
theorem orderNames_trans (a b c : List String) :
    (orderNames a b).isLE → (orderNames b c).isLE → (orderNames a c).isLE := by
  simpa only [orderNames_eq] using Std.TransCmp.isLE_trans

/-- Of two lists of names one is not ordered behind the other. -/
theorem orderNames_total (a b : List String) : (orderNames a b).isLE ∨ (orderNames b a).isLE := by
  simp only [orderNames_eq]
  by_cases least : (compare a b).isLE = true
  · exact Or.inl least
  · exact Or.inr (by rw [Std.OrientedCmp.lt_of_not_isLE least]; rfl)

/-- Lists of names are the same if neither is ordered behind the other. -/
theorem eq_of_orderNames {a b : List String} (least : (orderNames a b).isLE)
    (greatest : (orderNames b a).isLE) : a = b := by
  rw [orderNames_eq] at least greatest
  exact Std.LawfulEqCmp.eq_of_compare (Std.OrientedCmp.isLE_antisymm least greatest)

/-- Names that are put in order ascend if none of them occurs twice. -/
theorem ascending_inOrder {list : List (List String)} (distinct : list.Nodup) :
    (inOrder (fun a b => (orderNames a b).isLE) list).Pairwise fun a b => orderNames a b = .lt := by
  -- In order they ascend weakly, and as none occurs twice they ascend strictly.
  have ordered : (inOrder (fun a b => (orderNames a b).isLE) list).Pairwise fun a b =>
      (orderNames a b).isLE = true :=
    pairwise_inOrder orderNames_trans orderNames_total list
  have apart : (inOrder (fun a b => (orderNames a b).isLE) list).Nodup :=
    (perm_inOrder list).nodup_iff.mpr distinct
  refine (ordered.and apart).imp fun {a b} ⟨least, other⟩ => ?_
  rw [orderNames_eq] at least ⊢
  cases order : compare a b with
  | lt => rfl
  | eq => exact absurd (Std.LawfulEqCmp.eq_of_compare order) other
  | gt => simp [order] at least

/-- In an ascending list nothing occurs twice. -/
theorem nodup_of_ascending {list : List (List String)}
    (ascends : list.Pairwise fun a b => orderNames a b = .lt) : list.Nodup := by
  refine ascends.imp fun {a b} less => ?_
  rintro rfl
  rw [orderNames_eq] at less
  exact absurd (less.symm.trans Std.ReflOrd.compare_self) (by decide)

/-- Ascending lists with the same elements are the same. -/
theorem eq_of_ascending {first second : List (List String)}
    (one : first.Pairwise fun a b => orderNames a b = .lt)
    (other : second.Pairwise fun a b => orderNames a b = .lt)
    (same : ∀ names, names ∈ first ↔ names ∈ second) : first = second := by
  refine List.Perm.eq_of_pairwise (fun a b _ _ less greater => ?_) one other
    ((List.perm_ext_iff_of_nodup (nodup_of_ascending one) (nodup_of_ascending other)).mpr same)
  rw [orderNames_eq] at less greater
  rw [Std.OrientedOrd.eq_swap, greater] at less
  exact absurd less (by decide)

/-- The modules are listed in ascending order. -/
theorem modules_ascending (d : Disk) (root : Path) :
    (modules d root).Pairwise fun a b => orderNames a b = .lt :=
  ascending_inOrder (nodup_eraseDups _)

/-- No file below a directory is listed twice. -/
theorem nodup_below (sound : d.Sound) (place : Location) :
    ((d.below place).map Prod.fst).Nodup := by
  -- The ways are those of the places below, each with the same beginning taken off.
  have ways : (d.below place).map Prod.fst = d.places.filterMap place.below? := by
    rw [below, places, List.map_filterMap, List.filterMap_map]
    refine List.filterMap_congr fun entry _ => ?_
    cases h : place.below? entry.1 <;> simp [h]
  rw [ways]
  refine List.Pairwise.filterMap _ (fun a b other one from_a two from_b => ?_) sound.distinct
  rintro rfl
  exact other (((below?_eq_some.mp from_a).1).trans (below?_eq_some.mp from_b).1.symm)

/-- What is wanted below a directory is listed in ascending order. -/
theorem waysBelow_ascending (sound : d.Sound) (root : Path) (wanted : Node → Bool) :
    (d.waysBelow root wanted).Pairwise fun a b => orderNames a b = .lt := by
  unfold waysBelow
  split
  · exact .nil
  next place _ =>
    exact ascending_inOrder ((nodup_below sound place).sublist (List.filter_sublist.map _))

/-- The files below a directory are listed in ascending order. -/
theorem fileWays_ascending (sound : d.Sound) (root : Path) :
    (d.fileWays root).Pairwise fun a b => orderNames a b = .lt :=
  waysBelow_ascending sound root Node.isFile

/-- Below directories with the same files the same of them are listed. -/
theorem filter_fileWays_eq {e : Disk} {base : Path} {other : Location} (sound : d.Sound)
    (leads : d.Leads root home) (sound' : e.Sound) (leads' : e.Leads base other)
    {wanted : List String → Bool}
    (same : ∀ way, wanted way = true →
      (d.content? (home ++ way) = none ↔ e.content? (other ++ way) = none)) :
    (d.fileWays root).filter wanted = (e.fileWays base).filter wanted := by
  -- Both lists ascend, so it is enough that they have the same members.
  refine eq_of_ascending ((fileWays_ascending sound root).filter _)
    ((fileWays_ascending sound' base).filter _) fun way => ?_
  rw [List.mem_filter, List.mem_filter, mem_fileWays_iff sound leads, mem_fileWays_iff sound' leads']
  exact and_congr_left fun asked => and_congr_right fun _ => not_congr (same way asked)

/-- New directories make no module. -/
theorem modules_eq_of_makes {e : Disk} {places : List Location} (makes : d.Makes places e)
    (leads : d.Leads root home) : modules e root = modules d root := by
  rw [modules, modules, makes.fileWays_eq leads]

/-- Where there is no file there is no module. -/
theorem modules_eq_nil (none : d.files = []) (root : Path) : modules d root = [] := by
  have ways : d.fileWays root = [] := by
    unfold fileWays waysBelow
    cases d.directory? root with
    | none => rfl
    | some home => simp [filter_below, none]
  simp [modules, ways]

/-- The names of a module are plain, and there is one at least. -/
theorem modules_known (sound : d.Sound) (root : Path) :
    ∀ names ∈ modules d root, names ≠ [] ∧ ∀ name ∈ names, IsPlain name := by
  intro names member
  obtain ⟨way, listed, owned⟩ := mem_modules.mp member
  obtain ⟨some, -, rest, -, rfl⟩ := owner?_eq_some owned
  exact ⟨some, fun name inside =>
    isPlain_of_mem_fileWays sound listed name (List.mem_append_left _ inside)⟩

end Suite

end DialectBench
