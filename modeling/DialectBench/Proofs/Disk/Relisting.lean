import DialectBench.Proofs.Order
import DialectBench.Proofs.Path.Order
import DialectBench.Proofs.Suite.Modules

/-!
Trees that differ only in the order in which the system lists their entries: the same is found in both,
paths lead to the same, and what is put in order comes out the same.
-/

namespace DialectBench

namespace Disk

variable {d e : Disk} {place : Location} {entries : List (Location × Node)}

/-- The entries that are listed at a place. -/
def listedAt (entries : List (Location × Node)) (place : Location) : List (Location × Node) :=
  entries.filter (·.1 = place)

/-- A tree is listed in another order: at each place the same entries are listed as before. -/
structure Relisted (d e : Disk) : Prop where
  /-- The entries at each place are the same. -/
  same : ∀ place, listedAt e.entries place = listedAt d.entries place
  /-- The current directory is the same. -/
  current : e.current = d.current
  /-- The present time is the same. -/
  clock : e.clock = d.clock

/-- The first entry at a place is what is found there. -/
theorem lookup_eq_head? (entries : List (Location × Node)) (place : Location) :
    entries.lookup place = (listedAt entries place).head?.map Prod.snd := by
  induction entries with
  | nil => rfl
  | cons entry entries ih =>
    obtain ⟨other, node⟩ := entry
    rw [List.lookup_cons, listedAt, List.filter_cons]
    by_cases own : other = place
    · simp [own]
    · rw [beq_eq_false_iff_ne.mpr (Ne.symm own), ih]
      simp [own, listedAt]

/-- At each place a changed list of entries has what was there, changed. -/
theorem listedAt_map (change : Location → Node → Node) (entries : List (Location × Node))
    (place : Location) :
    listedAt (entries.map fun entry => (entry.1, change entry.1 entry.2)) place =
      (listedAt entries place).map fun entry => (entry.1, change entry.1 entry.2) := by
  rw [listedAt, List.filter_map]
  rfl

namespace Relisted

/-- A tree is listed as it is. -/
theorem refl (d : Disk) : d.Relisted d := ⟨fun _ => rfl, rfl, rfl⟩

/-- The same is found at each place. -/
theorem find?_eq (relisted : d.Relisted e) : e.find? = d.find? := by
  funext place
  by_cases root : place = []
  · rw [root]
    rfl
  · rw [find?_of_ne_nil root, find?_of_ne_nil root, lookup_eq_head?, lookup_eq_head?, relisted.same]

/-- The same entries are listed. -/
theorem perm (relisted : d.Relisted e) : e.entries.Perm d.entries := by
  rw [List.perm_iff_count]
  intro entry
  have counted (list : List (Location × Node)) : list.count entry = (listedAt list entry.1).count entry :=
    (List.count_filter (by simp)).symm
  rw [counted e.entries, counted d.entries, relisted.same]

section Changes

/-- Entries that are changed where they are listed are still the same. -/
theorem replace (relisted : d.Relisted e) (place : Location) (change : Node → Node) :
    (d.replace place change).Relisted (e.replace place change) := by
  refine ⟨fun other => ?_, relisted.current, relisted.clock⟩
  have entries (tree : Disk) : (tree.replace place change).entries =
      tree.entries.map fun entry =>
        (entry.1, if entry.1 = place then change entry.2 else entry.2) := by
    refine List.map_congr_left fun entry _ => ?_
    by_cases own : entry.1 = place <;> simp [own]
  rw [entries, entries,
    listedAt_map (fun listed node => if listed = place then change node else node),
    listedAt_map (fun listed node => if listed = place then change node else node), relisted.same]

/-- The time of a directory is the same. -/
theorem touchDirectory (relisted : d.Relisted e) (place : Location) :
    (d.touchDirectory place).Relisted (e.touchDirectory place) := by
  unfold Disk.touchDirectory
  rw [relisted.clock]
  exact relisted.replace place _

/-- A new entry is the same. -/
theorem insert (relisted : d.Relisted e) (place : Location) (node : Node) :
    (d.insert place node).Relisted (e.insert place node) := by
  have more : ({ d with entries := d.entries ++ [(place, node)] } : Disk).Relisted
      { e with entries := e.entries ++ [(place, node)] } := by
    refine ⟨fun other => ?_, relisted.current, relisted.clock⟩
    have same := relisted.same other
    unfold listedAt at same ⊢
    rw [List.filter_append, List.filter_append, same]
  exact more.touchDirectory place.dropLast

/-- Without an entry the others are the same. -/
theorem erase (relisted : d.Relisted e) (place : Location) :
    (d.erase place).Relisted (e.erase place) := by
  have fewer : ({ d with entries := d.entries.filter fun entry => entry.1 != place } : Disk).Relisted
      { e with entries := e.entries.filter fun entry => entry.1 != place } := by
    refine ⟨fun other => ?_, relisted.current, relisted.clock⟩
    have same := congrArg (List.filter fun entry => entry.1 != place) (relisted.same other)
    simpa only [listedAt, List.filter_filter, Bool.and_comm] using same
  exact fewer.touchDirectory place.dropLast

/-- A file that is put somewhere is the same. -/
theorem putFile (relisted : d.Relisted e) (place : Location) (content : Bytes)
    (executable : Option Bool) :
    (d.putFile place content executable).Relisted (e.putFile place content executable) := by
  unfold Disk.putFile
  rw [relisted.find?_eq, relisted.clock]
  split
  · exact relisted.replace place _
  · exact relisted.insert place _

/-- After a change the entries are the same. -/
theorem apply (relisted : d.Relisted e) (change : Change) :
    (d.apply change).Relisted (e.apply change) := by
  have later : ({ d with clock := d.clock + 1000000 } : Disk).Relisted
      { e with clock := e.clock + 1000000 } :=
    ⟨relisted.same, relisted.current, by rw [relisted.clock]⟩
  unfold Disk.apply
  -- Every change depends on the entries as they are found, and on the clock.
  cases change with
  | makeDirectory place =>
    dsimp only
    rw [relisted.clock] at later ⊢
    exact later.insert place _
  | writeFile place content => exact later.putFile place content none
  | copyFile place content executable => exact later.putFile place content (some executable)
  | extendFile place content =>
    dsimp only
    rw [relisted.clock] at later ⊢
    exact later.replace place _
  | delete place => exact later.erase place
  | adopt disk => exact .refl disk

/-- After several changes the entries are the same. -/
theorem applyAll (relisted : d.Relisted e) (changes : List Change) :
    (d.applyAll changes).Relisted (e.applyAll changes) := by
  induction changes generalizing d e with
  | nil => exact relisted
  | cons change changes ih => exact ih (relisted.apply change)

end Changes

section Paths

/-- Steps lead to the same. -/
theorem follow_eq (relisted : d.Relisted e) (last : Bool) (budget : Nat) (place : Location)
    (steps : List Step) : e.follow last budget place steps = d.follow last budget place steps := by
  -- Behind a link fewer of them are left, and behind any other step fewer steps.
  induction budget using Nat.strongRecOn generalizing place steps with
  | ind budget fewer =>
    induction steps generalizing place with
    | nil => rw [follow_nil, follow_nil, relisted.find?_eq]
    | cons step rest ih =>
      rw [follow_cons, follow_cons, relisted.find?_eq, ih place, ih place.dropLast]
      split
      next =>
        cases step with
        | here | up => rfl
        | down name =>
          dsimp only
          rw [ih (place ++ [name])]
          cases budget with
          | zero => rfl
          | succ budget =>
            split
            next target _ =>
              dsimp only
              rw [fewer budget (Nat.lt_succ_self budget)]
            next => rfl
            next => rfl
      next => rfl
      next => rfl

/-- A path leads to the same. -/
theorem resolve_eq (relisted : d.Relisted e) : e.resolve = d.resolve := by
  funext p last
  rw [resolve, resolve, relisted.follow_eq, relisted.current]

/-- A path leads to the same entry. -/
theorem entry_eq (relisted : d.Relisted e) : e.entry = d.entry := by
  funext p
  rw [entry, entry, relisted.resolve_eq]

/-- The same paths lead to an entry. -/
theorem exists?_eq (relisted : d.Relisted e) : e.exists? = d.exists? := by
  funext p
  rw [exists?, exists?, relisted.entry_eq]

/-- The same paths lead to files. -/
theorem isFile_eq (relisted : d.Relisted e) : e.isFile = d.isFile := by
  funext p
  rw [isFile, isFile, relisted.entry_eq]

/-- The same paths lead to directories. -/
theorem isDirectory_eq (relisted : d.Relisted e) : e.isDirectory = d.isDirectory := by
  funext p
  rw [isDirectory, isDirectory, relisted.entry_eq]

/-- A path leads to the same directory. -/
theorem directory?_eq (relisted : d.Relisted e) : e.directory? = d.directory? := by
  funext p
  rw [directory?, directory?, relisted.entry_eq]

/-- The times are the same. -/
theorem modified_eq (relisted : d.Relisted e) : e.modified = d.modified := by
  funext p
  rw [modified, modified, relisted.entry_eq]

/-- A file is read with the same content. -/
theorem read_eq (relisted : d.Relisted e) : e.read = d.read := by
  funext p
  rw [read, read, relisted.entry_eq]

/-- A file is read with the same text. -/
theorem readText?_eq (relisted : d.Relisted e) : e.readText? = d.readText? := by
  funext p
  rw [readText?, readText?, readText, readText, relisted.read_eq]

end Paths

section Order

/-- The same entries are below a place. -/
theorem below_perm (relisted : d.Relisted e) (place : Location) :
    (e.below place).Perm (d.below place) :=
  relisted.perm.filterMap _

/-- The entries below a place that are at the end of one way are listed as before. -/
theorem filter_below (relisted : d.Relisted e) (place : Location) (names : List String) :
    (e.below place).filter (·.1 = names) = (d.below place).filter (·.1 = names) := by
  -- They are the entries listed at one place, told by the names that lead there.
  have own (tree : Disk) : (tree.below place).filter (·.1 = names) =
      (listedAt tree.entries (place ++ names)).filterMap fun entry =>
        (place.below? entry.1).map fun names => (names, entry.2) := by
    rw [below, listedAt, List.filter_filterMap, List.filterMap_filter]
    refine List.filterMap_congr fun entry _ => ?_
    cases behind : place.below? entry.1 with
    | none => simp [behind]
    | some others =>
      obtain ⟨same, -⟩ := below?_eq_some.mp behind
      rw [same] at behind
      by_cases here : others = names
      · subst here
        simp [same, behind]
      · simp [same, behind, here]
  rw [own, own, relisted.same]

/-- The ways below a directory are the same in the order of names. -/
theorem waysBelow_eq (relisted : d.Relisted e) : e.waysBelow = d.waysBelow := by
  funext root wanted
  unfold waysBelow
  rw [relisted.directory?_eq]
  split
  next => rfl
  next place _ =>
    refine inOrder_eq_of_perm Suite.orderNames_trans Suite.orderNames_total
      (fun _ _ _ _ => Suite.eq_of_orderNames) ?_
    exact ((relisted.below_perm place).filter _).map _

/-- The entries below a directory are the same in the order of names. -/
theorem entriesBelow_eq (relisted : d.Relisted e) :
    Action.entriesBelow e = Action.entriesBelow d := by
  funext root
  unfold Action.entriesBelow
  rw [relisted.directory?_eq]
  split
  next => rfl
  next place _ =>
    refine inOrder_eq_of_filter Prod.fst (fun _ _ _ => Suite.orderNames_trans _ _ _)
      (fun _ _ => Suite.orderNames_total _ _) (fun a b same => ?_)
      (fun _ _ => Suite.eq_of_orderNames) (relisted.filter_below place)
    rw [same]
    rcases Suite.orderNames_total b.1 b.1 with least | least <;> exact least

/-- The entries of a directory are the same. -/
theorem listing_perm (relisted : d.Relisted e) (directory : Path) :
    (e.listing directory).Perm (d.listing directory) := by
  unfold listing
  rw [relisted.directory?_eq]
  split
  next => exact .refl _
  next place _ => exact ((relisted.below_perm place).filterMap _).map _

end Order

section Queries

/-- The same changes remove all below a place. -/
theorem deletions_eq (relisted : d.Relisted e) : e.deletions = d.deletions := by
  funext place
  unfold deletions
  dsimp only
  rw [inOrder_eq_of_perm (fun a b c one other => Suite.orderNames_trans c b a other one)
    (fun a b => Suite.orderNames_total b a) (fun _ _ _ _ one other => Suite.eq_of_orderNames other one)
    ((relisted.below_perm place).map Prod.fst)]

/-- The same changes remove a directory. -/
theorem removingTree_eq (relisted : d.Relisted e) : e.removingTree = d.removingTree := by
  funext p
  rw [removingTree, removingTree, relisted.resolve_eq, relisted.deletions_eq]

/-- The same change makes a directory. -/
theorem makingDirectory_eq (relisted : d.Relisted e) : e.makingDirectory = d.makingDirectory := by
  funext p
  rw [makingDirectory, makingDirectory, relisted.resolve_eq]

/-- The same change makes a directory that is not there. -/
theorem makingUnlessThere_eq (relisted : d.Relisted e) :
    e.makingUnlessThere = d.makingUnlessThere := by
  funext p
  rw [makingUnlessThere, makingUnlessThere, relisted.makingDirectory_eq, relisted.isDirectory_eq]

/-- The same changes make directories. -/
theorem makingAll_eq (relisted : d.Relisted e) : e.makingAll = d.makingAll := by
  funext paths
  induction paths with
  | nil => rfl
  | cons p above ih =>
    rw [makingAll, makingAll, ih, relisted.makingDirectory_eq, relisted.makingUnlessThere_eq]
    dsimp only
    rw [(relisted.applyAll (d.makingAll above).changes).makingUnlessThere_eq]

/-- A file is written at the same place. -/
theorem filePlace_eq (relisted : d.Relisted e) : e.filePlace = d.filePlace := by
  funext p
  rw [filePlace, filePlace, relisted.resolve_eq]

/-- The same change copies a file. -/
theorem copying_eq (relisted : d.Relisted e) : e.copying = d.copying := by
  funext source target
  rw [copying, copying, relisted.entry_eq, relisted.filePlace_eq]

end Queries

end Relisted

end Disk

end DialectBench
