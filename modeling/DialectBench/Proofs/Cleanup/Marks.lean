import DialectBench.Proofs.Collection.Chores
import DialectBench.Proofs.Disk.Contents
import DialectBench.Proofs.Disk.Shuffling
import DialectBench.Proofs.Suite.Counted

/-! What a cleanup looks for in a tree without links, and the places at which it is found. -/

namespace DialectBench

open Disk

namespace Disk

variable {d e : Disk} {p root : Path} {home place : Location} {names : List String}

/-- Names behind a path land below where the path lands. -/
theorem landing_extend (named : p.IsNamed) (plain : ∀ name ∈ names, IsPlain name) :
    d.landing (p.extend names) = d.landing p ++ names := by
  -- Each plain name is a step down, taken from wherever the path ends.
  have down (base : Location) : (names.map Step.down).foldl Step.move base = base ++ names := by
    induction names generalizing base with
    | nil => simp
    | cons name names ih =>
      rw [List.map_cons, List.foldl_cons, ih (List.forall_mem_cons.mp plain).2]
      simp [Step.move]
  rw [landing, start, Path.isAbsolute_extend named plain, Path.moves_extend named plain,
    List.foldl_append, down]
  rfl

/-- Without links they land below the directory that the path leads to. -/
theorem Leads.landing_extend (leads : d.Leads p home) (linkless : d.Linkless [])
    (plain : ∀ name ∈ names, IsPlain name) : d.landing (p.extend names) = home ++ names := by
  rw [Disk.landing_extend leads.named plain, ← leads.landing_eq linkless]

/-- An entry of a kind is seen at a place. -/
def Holds (d : Disk) (kind : Node → Bool) (place : Location) : Prop :=
  ∃ node, d.view place = some node ∧ kind node = true

/-- A directory is held where one stands. -/
theorem holds_isDirectory : d.Holds Node.isDirectory place ↔ d.isDirectoryAt place = true := by
  rw [← view_eq_directory]
  constructor
  · rintro ⟨node, seen, directory⟩
    obtain ⟨found, -, rfl⟩ := Option.map_eq_some_iff.mp seen
    cases found with
    | directory => exact seen
    | file | link => cases directory
  · exact fun seen => ⟨_, seen, rfl⟩

/-- What is held in a tree is held in one with more in it. -/
theorem Within.holds {kind : Node → Bool} (within : e.Within d) (held : e.Holds kind place) :
    d.Holds kind place :=
  held.imp fun _ => And.imp_left (within _ _)

/-- The path of an entry below a directory without links is that of a file if one is held there. -/
theorem Leads.isFile_extend (leads : d.Leads p home) (sound : d.Sound) (linkless : d.Linkless home)
    (plain : ∀ name ∈ names, IsPlain name) (some : names ≠ []) :
    d.isFile (p.extend names) = true ↔ d.Holds Node.isFile (home ++ names) := by
  constructor
  · -- No link is on the way, so the file is at that place and nowhere else.
    intro file
    obtain ⟨goal, content, mode, time, entry⟩ := exists_entry_of_isFile file
    obtain ⟨same, -⟩ := leads.resolve_below linkless plain some (entry_eq_ok.mp entry)
    obtain ⟨rfl, found⟩ := Spot.mk.inj same
    exact ⟨_, view_eq_file.mpr found.symm, rfl⟩
  · -- Above the file there are directories, so the path can be followed to it.
    rintro ⟨node, seen, file⟩
    have there : d.view (home ++ names) ≠ none := by simp [seen]
    have housed := sound.housed _ (mem_places (by simp [some]) there)
    have resolved : d.resolve (p.extend names) true = _ :=
      leads.resolve_below_eq sound linkless plain some housed
    obtain ⟨found, there, rfl⟩ := Option.map_eq_some_iff.mp seen
    rw [there] at resolved
    rw [isFile, entry_eq_ok.mpr resolved]
    cases found with
    | file => rfl
    | directory | link => cases file

/-- The entries of a directory that are listed are those that are seen in it. -/
theorem Sound.mem_sortedListing (sound : d.Sound) :
    p ∈ d.sortedListing root ↔
      ∃ home name, d.Leads root home ∧ d.view (home ++ [name]) ≠ none ∧ p = root / name := by
  unfold sortedListing listing
  -- Sorting neither adds nor drops an entry.
  rw [mem_inOrder]
  constructor
  · intro listed
    cases there : d.directory? root with
    | none => simp [there] at listed
    | some home =>
      simp only [there, List.mem_map, Prod.exists] at listed
      obtain ⟨name, node, member, rfl⟩ := listed
      refine ⟨home, name, directory?_eq_some.mp there, ?_, rfl⟩
      simp [view_eq_none, sound.mem_children.mp member]
  · rintro ⟨home, name, leads, seen, rfl⟩
    rw [directory?_eq_some.mpr leads]
    obtain ⟨node, found⟩ := Option.ne_none_iff_exists'.mp (mt view_eq_none.mpr seen)
    exact List.mem_map.mpr ⟨(name, node), sound.mem_children.mpr found, rfl⟩

/-- No entry of a directory is listed twice. -/
theorem nodup_children (sound : d.Sound) (place : Location) :
    ((d.children place).map Prod.fst).Nodup := by
  -- The entries are what of all that is below the directory has a single name.
  have single : (((d.children place).map Prod.fst).map fun name => [name]).Sublist
      ((d.below place).map Prod.fst) := by
    rw [children]
    induction d.below place with
    | nil => exact List.Sublist.refl []
    | cons entry entries ih =>
      obtain ⟨names, node⟩ := entry
      rcases names with _ | ⟨name, _ | ⟨next, names⟩⟩
      · exact ih.cons []
      · exact ih.cons_cons [name]
      · exact ih.cons (name :: next :: names)
  exact ((Suite.nodup_below sound place).sublist single).of_map

/-- The entries of a directory that are listed land at different places. -/
theorem nodup_landing_sortedListing (sound : d.Sound) (root : Path) :
    ((d.sortedListing root).map d.landing).Nodup := by
  -- In whatever order they are listed, each lands at its own name in the directory.
  rw [sortedListing, ((perm_inOrder _).map d.landing).nodup_iff]
  cases there : d.directory? root with
  | none => simp [listing, there]
  | some home =>
    have leads := directory?_eq_some.mp there
    have lands : ∀ name ∈ (d.children home).map Prod.fst,
        d.landing (root / name) = d.landing root ++ [name] := by
      intro name member
      obtain ⟨⟨name, node⟩, listed, rfl⟩ := List.mem_map.mp member
      have seen : d.view (home ++ [name]) ≠ none := by
        simp [view_eq_none, sound.mem_children.mp listed]
      have plain : IsPlain name := sound.isPlain seen (by simp)
      rw [show root / name = root.extend [name] from rfl]
      exact landing_extend leads.named (List.forall_mem_singleton.mpr plain)
    have entries : d.listing root = ((d.children home).map Prod.fst).map (root / ·) := by
      rw [listing, there, List.map_map]
      rfl
    rw [entries, List.map_map]
    refine (nodup_children sound home).map_on fun one member other member' same => ?_
    simpa [lands one member, lands other member'] using same

/-- The directory that a path leads to is found as before, and everything in it is as it was. -/
def Spares (d : Disk) (p : Path) (e : Disk) : Prop :=
  ∀ home, d.Leads p home → e.Leads p home ∧ ∀ names, e.view (home ++ names) = d.view (home ++ names)

/-- What is lost neither in a directory nor on the way to it spares it. -/
theorem Spares.of_thins {lost : Location → Prop} (thins : d.Thins lost e)
    (aside : ∀ home, d.Leads p home →
      (∀ inner ∈ d.trail p, ¬ lost inner) ∧ ∀ names, ¬ lost (home ++ names)) : d.Spares p e := by
  intro home leads
  have same {inner : Location} (spared : ¬ lost inner) : e.view inner = d.view inner :=
    (thins.seen inner).resolve_right fun gone => spared gone.1
  exact ⟨leads_congr thins.current (fun inner member => same ((aside home leads).1 inner member)) leads,
    fun names => same ((aside home leads).2 names)⟩

end Disk

namespace Cleanup

/-- What is looked for among the entries of a directory. -/
structure Quarry where
  /-- The names of the entries. -/
  wanted : String → Prop
  /-- The way from an entry to what is removed. -/
  behind : List String
  /-- The way from there to what it is known by. -/
  mark : List String
  /-- The kind of entry that it is known by. -/
  kind : Node → Bool

/-- Temporary files are known by their names: one of the extensions behind a point, and something in front of
that. -/
def temporary : Quarry where
  wanted name := ∃ stem suffix, stem ≠ "" ∧ (suffix = "log" ∨ suffix = "json") ∧
    name = stem ++ "." ++ suffix
  behind := []
  mark := []
  kind := Node.isFile

/-- Reports are directories of that name in a build output. -/
def reports : Quarry where
  wanted _ := True
  behind := ["target", "reports"]
  mark := []
  kind := Node.isDirectory

/-- Complete collections are known by their manifest. -/
def collection : Quarry where
  wanted _ := True
  behind := []
  mark := ["collection.json"]
  kind := Node.isFile

/-- An entry of a directory is one that is looked for. -/
def Quarry.Meets (quarry : Quarry) (d : Disk) (home : Location) (name : String) : Prop :=
  quarry.wanted name ∧ d.Holds quarry.kind (home ++ name :: quarry.behind ++ quarry.mark)

/-- What is looked for in a directory is at a place. -/
def Quarry.FoundAt (quarry : Quarry) (d : Disk) (root : Path) (place : Location) : Prop :=
  ∃ home name, d.Leads root home ∧ quarry.Meets d home name ∧ place = home ++ name :: quarry.behind

/-- Paths land at some places, each at another one. -/
structure Lists (d : Disk) (paths : List Path) (marked : Location → Prop) : Prop where
  /-- No two of them land at one place. -/
  distinct : (paths.map d.landing).Nodup
  /-- They land at those places. -/
  mem_iff : ∀ place, place ∈ paths.map d.landing ↔ marked place

/-- There are as many places of some kind as a number tells. -/
def Counts (count : Nat) (marked : Location → Prop) : Prop :=
  ∃ places : List Location, places.Nodup ∧ (∀ place, place ∈ places ↔ marked place) ∧
    places.length = count

variable {d e : Disk} {root : Path} {place : Location} {paths : List Path}
  {marked : Location → Prop} {quarry : Quarry}

/-- There are as many places as paths that land at them. -/
theorem Lists.counts (lists : Lists d paths marked) : Counts paths.length marked :=
  ⟨_, lists.distinct, lists.mem_iff, List.length_map _⟩

/-- Where there is no place the number is zero. -/
theorem Counts.eq_zero {count : Nat} (counts : Counts count marked) (none : ∀ place, ¬ marked place) :
    count = 0 := by
  obtain ⟨places, -, mem, rfl⟩ := counts
  rw [List.eq_nil_iff_forall_not_mem.mpr fun place listed => none place ((mem place).mp listed)]
  rfl

/-- A name has the extension of a temporary file if that is behind its last point, and something in front. -/
theorem temporary_wanted_iff {name : String} :
    ((Path.extensionOf? name).map tempExtensions.contains).getD false = true ↔ temporary.wanted name := by
  -- Of the extensions of temporary files there are two.
  have known (suffix : String) :
      tempExtensions.contains suffix = true ↔ suffix = "log" ∨ suffix = "json" := by
    simp [tempExtensions]
  constructor
  · intro wanted
    cases found : Path.extensionOf? name with
    | none => simp [found] at wanted
    | some suffix =>
      obtain ⟨stem, some, split, -⟩ := Path.extensionOf?_eq_some.mp found
      exact ⟨stem, suffix, some, (known suffix).mp (by simpa [found] using wanted), split⟩
  · rintro ⟨stem, suffix, some, listed, split⟩
    -- The extension has no point, so the one in front of it is the last in the name.
    have pointless : '.' ∉ suffix.toList := by
      rcases listed with rfl | rfl <;> decide
    rw [Path.extensionOf?_eq_some.mpr ⟨stem, some, split, pointless⟩]
    exact (known suffix).mpr listed

namespace Quarry

/-- What is found in a tree is found in one with more in it. -/
theorem FoundAt.mono (found : quarry.FoundAt e root place) (within : e.Within d)
    (current : e.current = d.current) : quarry.FoundAt d root place := by
  obtain ⟨home, name, leads, ⟨wanted, held⟩, rfl⟩ := found
  exact ⟨home, name, leads.mono within current.symm, ⟨wanted, within.holds held⟩, rfl⟩

/-- What is looked for in a directory that is spared is still found. -/
theorem FoundAt.of_spares (found : quarry.FoundAt d root place) (spares : d.Spares root e) :
    quarry.FoundAt e root place := by
  obtain ⟨home, name, leads, ⟨wanted, node, seen, kind⟩, rfl⟩ := found
  -- The root is found as before, and below it everything is seen as before.
  obtain ⟨still, same⟩ := spares home leads
  refine ⟨home, name, still, ⟨wanted, node, ?_, kind⟩, rfl⟩
  rw [List.append_assoc] at seen ⊢
  rw [same, seen]

/-- What is found is seen. -/
theorem FoundAt.view_ne_none (found : quarry.FoundAt d root place) (sound : d.Sound) :
    d.view place ≠ none := by
  obtain ⟨home, name, -, ⟨-, node, seen, -⟩, rfl⟩ := found
  intro free
  rw [sound.view_eq_none_of_append free] at seen
  cases seen

/-- An entry that is looked for is seen. -/
theorem Meets.view_ne_none {home : Location} {name : String} (meets : quarry.Meets d home name)
    (sound : d.Sound) : d.view (home ++ [name]) ≠ none := by
  obtain ⟨-, node, seen, -⟩ := meets
  -- What it is known by would have nothing above it.
  intro free
  have split : home ++ name :: quarry.behind ++ quarry.mark =
      home ++ [name] ++ (quarry.behind ++ quarry.mark) := by simp
  rw [split, sound.view_eq_none_of_append free] at seen
  cases seen

/-- The entries of a directory that pass a check, or what is behind them, are what is looked for, if the check
tells that. -/
theorem lists (quarry : Quarry) (sound : d.Sound) (linkless : d.Linkless []) (root : Path)
    (plain : ∀ name ∈ quarry.behind, IsPlain name) (check : Path → Bool)
    (checks : ∀ home name, d.Leads root home → (∀ other ∈ name :: quarry.behind, IsPlain other) →
      (check (root.extend (name :: quarry.behind)) = true ↔ quarry.Meets d home name)) :
    Lists d (((d.sortedListing root).map (·.extend quarry.behind)).filter check)
      (quarry.FoundAt d root) := by
  -- A path to what is looked for lands at one place, as its names are plain and no link is on the
  -- way.
  have lands {home : Location} {name : String} (leads : d.Leads root home)
      (seen : d.view (home ++ [name]) ≠ none) :
      (∀ other ∈ name :: quarry.behind, IsPlain other) ∧
        d.landing (root.extend (name :: quarry.behind)) = home ++ name :: quarry.behind := by
    have all : ∀ other ∈ name :: quarry.behind, IsPlain other :=
      List.forall_mem_cons.mpr ⟨sound.isPlain seen (by simp), plain⟩
    exact ⟨all, leads.landing_extend linkless all⟩
  refine ⟨?_, fun place => ?_⟩
  · -- Behind different entries there are different places.
    refine List.Nodup.sublist (List.filter_sublist.map _) ?_
    have places : ((d.sortedListing root).map (·.extend quarry.behind)).map d.landing =
        ((d.sortedListing root).map d.landing).map (· ++ quarry.behind) := by
      rw [List.map_map, List.map_map]
      refine List.map_congr_left fun entry listed => ?_
      obtain ⟨home, name, leads, seen, rfl⟩ := sound.mem_sortedListing.mp listed
      dsimp only [Function.comp]
      rw [show (root / name).extend quarry.behind = root.extend (name :: quarry.behind) from rfl,
        (lands leads seen).2, show root / name = root.extend [name] from rfl,
        leads.landing_extend linkless (List.forall_mem_singleton.mpr (sound.isPlain seen (by simp))),
        List.append_assoc, List.singleton_append]
    rw [places]
    exact (nodup_landing_sortedListing sound root).map (List.append_left_injective _)
  · rw [List.mem_map]
    constructor
    · -- A path on the list comes from an entry of the directory.
      rintro ⟨path, passed, rfl⟩
      obtain ⟨listed, wanted⟩ := List.mem_filter.mp passed
      obtain ⟨entry, member, rfl⟩ := List.mem_map.mp listed
      obtain ⟨home, name, leads, seen, rfl⟩ := sound.mem_sortedListing.mp member
      obtain ⟨all, place⟩ := lands leads seen
      exact ⟨home, name, leads, (checks home name leads all).mp wanted, place⟩
    · -- What meets the description is seen, so it is among the entries.
      rintro ⟨home, name, leads, meets, rfl⟩
      have seen := meets.view_ne_none sound
      obtain ⟨all, place⟩ := lands leads seen
      refine ⟨_, List.mem_filter.mpr ⟨List.mem_map.mpr ⟨root / name, ?_, rfl⟩,
        (checks home name leads all).mpr meets⟩, place⟩
      exact sound.mem_sortedListing.mpr ⟨home, name, leads, seen, rfl⟩

end Quarry

section Listed

variable (sound : d.Sound) (linkless : d.Linkless [])
include sound linkless

/-- The temporary files that are listed are those directly in the directory. -/
theorem lists_temporaryFiles (root : Path) :
    Lists d (temporaryFiles d root) (temporary.FoundAt d root) := by
  -- The list is one with nothing behind the entries, and a check that looks at the entry itself.
  have same : temporaryFiles d root = ((d.sortedListing root).map (·.extend temporary.behind)).filter
      fun path => d.isFile path && (path.extension?.map tempExtensions.contains).getD false := by
    rw [show (fun path : Path => path.extend temporary.behind) = id from rfl, List.map_id]
    rfl
  rw [same]
  refine temporary.lists sound linkless root (by simp [temporary]) _ fun home name leads plain => ?_
  -- The extension of the path is that of the name.
  have ends : (root.extend [name]).extension? = Path.extensionOf? name := by
    rw [Path.extension?, show root.extend [name] = root / name from rfl,
      Path.fileName?_div leads.named (List.forall_mem_cons.mp plain).1, Option.bind_some]
  have file := leads.isFile_extend sound (Collection.linkless_below linkless _) plain
    (List.cons_ne_nil name [])
  rw [Quarry.Meets, show temporary.behind = [] from rfl, show temporary.mark = [] from rfl,
    List.append_nil, Bool.and_eq_true, ends, temporary_wanted_iff, and_comm]
  exact and_congr_right fun _ => file

/-- The reports that are listed are those of the entries of the workspace. -/
theorem lists_reportDirectories (root : Path) :
    Lists d (reportDirectories d root) (reports.FoundAt d root) := by
  refine reports.lists sound linkless root (by decide) _ fun home name leads plain => ?_
  rw [leads.isDirectory_extend sound (Collection.linkless_below linkless _) plain, Quarry.Meets,
    show reports.mark = [] from rfl, List.append_nil, ← holds_isDirectory]
  exact (and_iff_right trivial).symm

/-- The collections that are listed are the entries of the directory with a manifest. -/
theorem lists_collectionsIn (root : Path) :
    Lists d (collectionsIn d root) (collection.FoundAt d root) := by
  -- The list is one with nothing behind the entries, and a check that looks for the manifest.
  have same : collectionsIn d root = ((d.sortedListing root).map (·.extend collection.behind)).filter
      fun entry => d.isFile (entry / Manifest.fileName) := by
    rw [show (fun path : Path => path.extend collection.behind) = id from rfl, List.map_id]
    rfl
  rw [same]
  refine collection.lists sound linkless root (by simp [collection]) _ fun home name leads plain => ?_
  have all : ∀ other ∈ [name, Manifest.fileName], IsPlain other :=
    List.forall_mem_cons.mpr ⟨(List.forall_mem_cons.mp plain).1, by decide⟩
  have file := leads.isFile_extend sound (Collection.linkless_below linkless _) all
    (List.cons_ne_nil _ _)
  rw [Quarry.Meets, show collection.behind = [] from rfl, List.append_assoc]
  exact file.trans (and_iff_right trivial).symm

end Listed

end Cleanup

end DialectBench
