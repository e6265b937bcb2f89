import DialectBench.Proofs.Cleanup.Marks
import DialectBench.Proofs.Disk.Cleared

/-! The parts of a cleanup one by one: each takes away only what it looks for, and all of that if it
succeeds. -/

namespace DialectBench

open Disk Action

namespace Disk

variable {d e : Disk} {p : Path} {place other : Location} {lost : Location → Prop}

/-- A path that leads to a directory leads to something. -/
theorem Leads.exists?_eq (leads : d.Leads p place) : d.exists? p = true := by
  obtain ⟨modified, there⟩ := find?_of_isDirectoryAt leads.stands
  obtain ⟨left, goes⟩ := leads.goes
  exact exists?_iff.mpr ⟨leads.named, _, left, goes, by simp [there]⟩

/-- A path leads to the same directory when only files are lost. -/
theorem Leads.of_kept (leads : d.Leads p place) (current : e.current = d.current)
    (kept : ∀ inner node, node.isFile = false → d.view inner = some node → e.view inner = some node) :
    e.Leads p place := by
  obtain ⟨named, ⟨left, goes⟩, stands⟩ := leads
  refine ⟨named, ⟨left, ?_⟩, view_eq_directory.mp (kept _ _ rfl (view_eq_directory.mpr stands))⟩
  rw [start, current]
  exact goes.of_kept stands kept

/-- The root is not lost. -/
theorem Thins.inner (thins : d.Thins lost e) : d.Thins (fun place => place ≠ [] ∧ lost place) e := by
  refine ⟨thins.current, fun place => ?_⟩
  by_cases root : place = []
  · exact Or.inl (by rw [root, view_root, view_root])
  · exact (thins.seen place).imp_right fun gone => ⟨⟨root, gone.1⟩, gone.2⟩

/-- When a directory was removed nothing is left in it, also if it was the root. -/
theorem view_deletions_inside (sound : d.Sound) (some : other ≠ []) (inside : place <+: other) :
    (d.applyAll (d.deletions place)).view other = none := by
  by_cases root : place = []
  · by_contra seen
    have listed := mem_places some seen
    rw [root, places_deletions_root sound] at listed
    cases listed
  · rw [view_deletions sound root, if_pos inside]

/-- What is there and may be removed without links is the directory that its path leads to. -/
theorem leads_of_removingTree {changes : List Change} (linkless : d.Linkless [])
    (found : d.exists? p = true) (removing : d.removingTree p = .ok changes) :
    d.Leads p (d.landing p) ∧ changes = d.deletions (d.landing p) := by
  refine ⟨?_, removingTree_eq_ok removing linkless⟩
  -- Without links the way ends where the path lands, and only a directory is removed as a tree.
  obtain ⟨named, goal, left, goes, -⟩ := exists?_iff.mp found
  have lands : goal = d.landing p := by
    rw [goes.landing linkless, Disk.landing, Path.moves, foldl_filter_isMove]
  refine ⟨named, ⟨left, lands ▸ goes⟩, ?_⟩
  unfold removingTree at removing
  cases resolved : d.resolve p false with
  | error refusal => simp [resolved] at removing
  | ok spot =>
    rw [resolved, landing_of_resolve resolved linkless] at removing
    cases there : d.find? (d.landing p) with
    | none => simp [there] at removing
    | some node =>
      rw [there] at removing
      cases node with
      | directory => exact isDirectoryAt_of_find? there
      | file => simp at removing
      | link target => exact absurd (view_eq_link.mpr there) (linkless _ target)

/-- When a file was removed directories are seen as before. -/
theorem view_deletions_of_leaf (sound : d.Sound) (linkless : d.Linkless [])
    (leaf : d.isDirectoryAt place = false) :
    ∀ inner node, node.isFile = false → d.view inner = some node →
      (d.applyAll (d.deletions place)).view inner = some node := by
  intro inner node solid seen
  have some : place ≠ [] := by
    rintro rfl
    simp at leaf
  rw [view_deletions sound some, if_neg, seen]
  -- Nothing is below the file, and what is there is neither a directory nor a link.
  rintro ⟨names, rfl⟩
  by_cases own : names = []
  · rw [own, List.append_nil] at seen
    obtain ⟨found, there, rfl⟩ := Option.map_eq_some_iff.mp seen
    cases found with
    | file => cases solid
    | directory => simp [isDirectoryAt_of_find? there] at leaf
    | link target => exact linkless place target (view_eq_link.mpr there)
  · have below : d.view (place ++ names) ≠ none := by simp [seen]
    rw [sound.isDirectoryAt_of_append own below] at leaf
    cases leaf

/-- Without links in a tree there are none in one with less in it. -/
theorem linkless_of_within (linkless : d.Linkless []) (within : e.Within d) : e.Linkless [] :=
  fun names target seen => linkless names target (within _ _ seen)

/-- A file that may be removed by its name lies in what the path of the directory leads to. -/
theorem leads_of_removingFile_div {name : String} {change : Change} (named : p.IsNamed)
    (plain : IsPlain name) (removing : d.removingFile (p / name) = .ok change) :
    ∃ outer, d.Leads p outer := by
  unfold removingFile at removing
  cases resolved : d.resolve (p / name) false with
  | error refusal => simp [resolved] at removing
  | ok spot =>
    exact leads_of_resolve_extend named (List.forall_mem_singleton.mpr plain) (List.cons_ne_nil name [])
      resolved

end Disk

namespace Cleanup

/-- A place is a marked one or below it, and not the root. -/
def Under (marked : Location → Prop) (place : Location) : Prop :=
  place ≠ [] ∧ ∃ top, marked top ∧ top <+: place

variable {work : Path → Action Bool} {base : Disk} {paths : List Path} {s : Session}
  {words : String} {marked : Location → Prop}

/-- What is done to a path takes nothing away but what is where the path lands. -/
def Confined (work : Path → Action Bool) : Prop :=
  ∀ (path : Path) (s : Session), s.scene.disk.Sound → s.scene.disk.Linkless [] →
    s.scene.disk.landing path ≠ [] →
      ((work path).after s).scene.disk.Sound ∧
        s.scene.disk.Thins (s.scene.disk.landing path <+: ·) ((work path).after s).scene.disk

/-- Removing a file, for which a success is told. -/
def dropFile (path : Path) : Action Bool := do
  Action.removeFile path
  return true

/-- A file that is removed is gone, and nothing else is. -/
theorem dropFile_cases (path : Path) (sound : s.scene.disk.Sound) (linkless : s.scene.disk.Linkless []) :
    (∃ failure, (dropFile path).outcome s = .error failure ∧ (dropFile path).after s = s) ∨
      (dropFile path).outcome s = .ok true ∧
        s.scene.disk.isDirectoryAt (s.scene.disk.landing path) = false ∧
        ((dropFile path).after s).scene.disk =
          s.scene.disk.applyAll (s.scene.disk.deletions (s.scene.disk.landing path)) := by
  cases removing : s.scene.disk.removingFile path with
  | error refusal =>
    obtain ⟨failed, still⟩ := removeFile_of_error removing
    exact Or.inl ⟨_, outcome_bind_of_error failed _, (after_bind_of_error failed _).trans still⟩
  | ok change =>
    obtain ⟨passed, left⟩ := removeFile_of_ok removing
    obtain ⟨rfl, leaf⟩ := removingFile_eq_ok removing linkless
    refine Or.inr ⟨(outcome_bind_of_ok passed _).trans rfl, leaf, ?_⟩
    rw [deletions_of_not_isDirectoryAt sound leaf]
    unfold dropFile
    rw [after_bind_of_ok passed, after_pure, left]
    rfl

/-- Removing a file is confined to it. -/
theorem confined_dropFile : Confined dropFile := by
  intro path s sound linkless _
  rcases dropFile_cases path sound linkless with ⟨failure, -, still⟩ | ⟨-, -, tree⟩
  · rw [still]
    exact ⟨sound, .refl _⟩
  · rw [tree]
    exact clear_deletions sound _

/-- Removing a directory that may be there is confined to it. -/
theorem confined_removeIfPresent : Confined Action.removeIfPresent := by
  intro path s sound linkless inner
  obtain ⟨thins, left⟩ := Collection.thins_removeIfPresent sound linkless inner
  exact ⟨left, thins.after (quiet_removeIfPresent path)⟩

/-- Removing a collection is confined to it. -/
theorem confined_dropCollection : Confined dropCollection := by
  intro path s sound linkless inner
  obtain ⟨unsealing, left⟩ := Collection.unsealing_dropCollection sound linkless inner
  exact ⟨left, (unsealing.after (Stint.quiet_dropCollection path)).toThins⟩

/-- A directory that may be there is not, or its removal fails, or it is removed. -/
theorem removeIfPresent_cases (path : Path) (s : Session) :
    (s.scene.disk.exists? path = false ∧ (Action.removeIfPresent path).outcome s = .ok false ∧
        (Action.removeIfPresent path).after s = s) ∨
      (s.scene.disk.exists? path = true ∧
        ((∃ failure, (Action.removeIfPresent path).outcome s = .error failure ∧
            (Action.removeIfPresent path).after s = s) ∨
          ∃ changes, s.scene.disk.removingTree path = .ok changes ∧
            (Action.removeIfPresent path).outcome s = .ok true ∧
            ((Action.removeIfPresent path).after s).scene.disk = s.scene.disk.applyAll changes)) := by
  by_cases found : s.scene.disk.exists? path = true
  · refine Or.inr ⟨found, ?_⟩
    cases removing : s.scene.disk.removingTree path with
    | ok changes =>
      obtain ⟨told, left⟩ := removeIfPresent_of_ok found removing
      exact Or.inr ⟨changes, rfl, told, by rw [left, disk_performAll]⟩
    | error refusal =>
      obtain ⟨failed, still⟩ := deleteTree_of_error removing
      unfold Action.removeIfPresent
      rw [outcome_bind_of_ok (outcome_look _ s), after_bind_of_ok (outcome_look _ s), after_look,
        if_pos found, outcome_bind_of_error failed, after_bind_of_error failed]
      exact Or.inl ⟨_, rfl, still⟩
  · unfold Action.removeIfPresent
    rw [outcome_bind_of_ok (outcome_look _ s), after_bind_of_ok (outcome_look _ s), after_look,
      if_neg found]
    exact Or.inl ⟨Bool.not_eq_true _ ▸ found, rfl, rfl⟩

/-- A directory that its path leads to is removed by a removal that succeeds. -/
theorem removeIfPresent_of_leads {path : Path} {done : Bool} (sound : s.scene.disk.Sound)
    (linkless : s.scene.disk.Linkless []) (inner : s.scene.disk.landing path ≠ [])
    (leads : s.scene.disk.Leads path (s.scene.disk.landing path))
    (passed : (Action.removeIfPresent path).outcome s = .ok done) :
    done = true ∧
      ((Action.removeIfPresent path).after s).scene.disk.view (s.scene.disk.landing path) = none := by
  rcases removeIfPresent_cases path s with
    ⟨missing, -⟩ | ⟨-, ⟨failure, failed, -⟩ | ⟨changes, removing, told, tree⟩⟩
  -- It is not missing, and a removal that fails is no success.
  · rw [leads.exists?_eq] at missing
    cases missing
  · rw [failed] at passed
    cases passed
  · rw [told] at passed
    refine ⟨(Except.ok.inj passed).symm, ?_⟩
    rw [tree, removingTree_eq_ok removing linkless, view_deletions sound inner,
      if_pos (List.prefix_refl _)]

/-- A collection is gone after a removal that succeeds. -/
theorem dropCollection_of_ok {directory : Path} {done : Bool} (sound : s.scene.disk.Sound)
    (linkless : s.scene.disk.Linkless []) (inner : s.scene.disk.landing directory ≠ [])
    (named : directory.IsNamed) (passed : (dropCollection directory).outcome s = .ok done) :
    done = true ∧
      ((dropCollection directory).after s).scene.disk.view (s.scene.disk.landing directory) = none := by
  unfold dropCollection at passed ⊢
  -- The manifest goes first, and then the directory.
  obtain ⟨⟨⟩, first, rest⟩ := outcome_bind_eq_ok.mp passed
  obtain ⟨removed, second, last⟩ := outcome_bind_eq_ok.mp rest
  rw [after_bind_of_ok first, after_bind_of_ok second, after_pure]
  refine ⟨(Except.ok.inj last).symm, ?_⟩
  cases removing : s.scene.disk.removingFile (directory / Manifest.fileName) with
  | error refusal => simp [(removeFile_of_error removing).1] at first
  | ok change =>
    obtain ⟨-, left⟩ := removeFile_of_ok removing
    obtain ⟨rfl, leaf⟩ := removingFile_eq_ok removing linkless
    -- Without the manifest the directory is still found, so it is removed with the rest.
    have tree : ((Action.removeFile (directory / Manifest.fileName)).after s).scene.disk =
        s.scene.disk.applyAll
          (s.scene.disk.deletions (s.scene.disk.landing (directory / Manifest.fileName))) := by
      rw [left, deletions_of_not_isDirectoryAt sound leaf]
      rfl
    obtain ⟨solid, thins⟩ := clear_deletions sound
      (s.scene.disk.landing (directory / Manifest.fileName))
    have kept := view_deletions_of_leaf sound linkless leaf
    rw [← tree] at solid thins kept
    have leads : s.scene.disk.Leads directory (s.scene.disk.landing directory) := by
      obtain ⟨outer, leads⟩ := leads_of_removingFile_div named (by decide) removing
      exact leads.landing_eq linkless ▸ leads
    have lands : _ = s.scene.disk.landing directory := landing_congr thins.current
    rw [← lands] at inner ⊢
    exact (removeIfPresent_of_leads solid (linkless_of_within linkless thins.within) inner
      (lands ▸ leads.of_kept thins.current kept) second).2

section Loop

variable {ready : Disk → Path → Prop} {count : Nat}

/-- Something is done to the first path, and then to the others. -/
theorem forEach_cons (words : String) (work : Path → Action Bool) (path : Path) (paths : List Path) :
    forEach false words work (path :: paths) = do
      let done ← work path
      let others ← forEach false words work paths
      return others + if done then 1 else 0 := by
  rw [forEach, if_neg Bool.false_ne_true]

/-- Confined work on several paths takes nothing away but what is where they land. -/
theorem thins_forEach (confined : Confined work) (inner : ∀ path ∈ paths, base.landing path ≠ [])
    (steady : base.Steady s.scene.disk) :
    base.Steady ((forEach false words work paths).after s).scene.disk ∧
      s.scene.disk.Thins (fun place => ∃ path ∈ paths, base.landing path <+: place)
        ((forEach false words work paths).after s).scene.disk := by
  -- Whether or not it goes on, what was done to the first path is confined.
  induction paths generalizing s with
  | nil => exact ⟨steady, .refl _⟩
  | cons path paths ih =>
    obtain ⟨own, others⟩ := List.forall_mem_cons.mp inner
    have lands : s.scene.disk.landing path = base.landing path := landing_congr steady.current
    obtain ⟨sound, thins⟩ := confined path s steady.sound steady.linkless (lands ▸ own)
    rw [lands] at thins
    have still := steady.thin thins sound
    have first : s.scene.disk.Thins (fun place => ∃ other ∈ path :: paths, base.landing other <+: place)
        ((work path).after s).scene.disk :=
      thins.imp fun place inside => ⟨path, List.mem_cons_self, inside⟩
    rw [forEach_cons]
    cases passed : (work path).outcome s with
    | error failure =>
      rw [after_bind_of_error passed]
      exact ⟨still, first⟩
    | ok done =>
      obtain ⟨left, more⟩ := ih others still
      have whole := first.trans (more.imp fun place ⟨other, listed, inside⟩ =>
        ⟨other, List.mem_cons_of_mem path listed, inside⟩)
      rw [after_bind_of_ok passed, after_bind]
      split <;> exact ⟨left, whole⟩

/-- What is gone stays so when more is taken away. -/
theorem view_eq_none_of_thins {d e : Disk} {lost : Location → Prop} {place : Location}
    (thins : d.Thins lost e) (gone : d.view place = none) : e.view place = none :=
  (thins.seen place).elim (·.trans gone) And.right

/-- Work on several paths that succeeds has removed what is where they land, if it does so for each of them that
is ready, and they stay ready until it is their turn. -/
theorem forEach_of_ok (confined : Confined work) (inner : ∀ path ∈ paths, base.landing path ≠ [])
    (steady : base.Steady s.scene.disk)
    (thorough : ∀ path ∈ paths, ∀ (t : Session) done, base.Steady t.scene.disk →
      ready t.scene.disk path → (work path).outcome t = .ok done →
        done = true ∧ ((work path).after t).scene.disk.view (base.landing path) = none)
    (stays : paths.Pairwise fun path other => ∀ d e, base.Steady d → base.Steady e →
      d.Thins (base.landing path <+: ·) e → ready d other → ready e other)
    (begins : ∀ path ∈ paths, ready s.scene.disk path)
    (passed : (forEach false words work paths).outcome s = .ok count) :
    count = paths.length ∧ ∀ path ∈ paths,
      ((forEach false words work paths).after s).scene.disk.view (base.landing path) = none := by
  -- What is done to the first path leaves the others ready, and what is done to them brings nothing back.
  induction paths generalizing s count with
  | nil => exact ⟨(Except.ok.inj passed).symm, by simp⟩
  | cons path paths ih =>
    obtain ⟨own, others⟩ := List.forall_mem_cons.mp inner
    obtain ⟨keeps, later⟩ := List.pairwise_cons.mp stays
    obtain ⟨now, rest⟩ := List.forall_mem_cons.mp begins
    rw [forEach_cons] at passed ⊢
    obtain ⟨done, first, onward⟩ := outcome_bind_eq_ok.mp passed
    obtain ⟨number, second, last⟩ := outcome_bind_eq_ok.mp onward
    obtain ⟨rfl, gone⟩ := thorough path List.mem_cons_self s done steady now first
    have lands : s.scene.disk.landing path = base.landing path := landing_congr steady.current
    obtain ⟨sound, thins⟩ := confined path s steady.sound steady.linkless (lands ▸ own)
    rw [lands] at thins
    have still := steady.thin thins sound
    obtain ⟨rfl, all⟩ := ih others still
      (fun other listed => thorough other (List.mem_cons_of_mem _ listed)) later
      (fun other listed => keeps other listed _ _ steady still thins (rest other listed)) second
    rw [after_bind_of_ok first, after_bind_of_ok second, after_pure]
    refine ⟨(Except.ok.inj last).symm, List.forall_mem_cons.mpr ⟨?_, all⟩⟩
    exact view_eq_none_of_thins (thins_forEach confined others still).2 gone

end Loop

/-- What is looked for is removed if that is asked. -/
def sweep (asked : Bool) (words : String) (work : Path → Action Bool) (list : Disk → List Path) :
    Action Nat :=
  if asked then do
    forEach false words work (← Action.look list)
  else return 0

section Sweep

variable {asked : Bool} {list : Disk → List Path} {quarry : Quarry} {root : Path}
  {count : Nat}

/-- What is asked for is the root in no case. -/
theorem Quarry.FoundAt.ne_nil {d : Disk} {place : Location} (found : quarry.FoundAt d root place) :
    place ≠ [] := by
  obtain ⟨home, name, -, -, rfl⟩ := found
  simp

variable (confined : Confined work) (sound : s.scene.disk.Sound) (linkless : s.scene.disk.Linkless [])
  (lists : Lists s.scene.disk (list s.scene.disk) (quarry.FoundAt s.scene.disk root))
include confined sound linkless lists

/-- A sweep takes nothing away but what it looks for. -/
theorem thins_sweep :
    s.scene.disk.Steady ((sweep asked words work list).after s).scene.disk ∧
      s.scene.disk.Thins (Under fun top => asked = true ∧ quarry.FoundAt s.scene.disk root top)
        ((sweep asked words work list).after s).scene.disk := by
  have steady : s.scene.disk.Steady s.scene.disk := ⟨sound, linkless, rfl⟩
  cases asked with
  | false => exact ⟨steady, .refl _⟩
  | true =>
    -- The paths on the list land at what is looked for, which is never the root.
    have marked {path : Path} (listed : path ∈ list s.scene.disk) :
        quarry.FoundAt s.scene.disk root (s.scene.disk.landing path) :=
      (lists.mem_iff _).mp (List.mem_map_of_mem listed)
    obtain ⟨left, thins⟩ : _ ∧ s.scene.disk.Thins _ _ :=
      thins_forEach confined (fun path listed => (marked listed).ne_nil) steady
    exact ⟨left, (thins.imp fun place ⟨path, listed, inside⟩ => ⟨_, ⟨rfl, marked listed⟩, inside⟩).inner⟩

/-- A sweep that succeeds has removed exactly what it looks for, and tells how much that was. -/
theorem sweep_of_ok (ready : Disk → Path → Prop)
    (thorough : ∀ path ∈ list s.scene.disk, ∀ (t : Session) done, s.scene.disk.Steady t.scene.disk →
      ready t.scene.disk path → (work path).outcome t = .ok done →
        done = true ∧ ((work path).after t).scene.disk.view (s.scene.disk.landing path) = none)
    (stays : asked = true → (list s.scene.disk).Pairwise fun path other =>
      ∀ d e, s.scene.disk.Steady d → s.scene.disk.Steady e →
        d.Thins (s.scene.disk.landing path <+: ·) e → ready d other → ready e other)
    (begins : ∀ path ∈ list s.scene.disk, ready s.scene.disk path)
    (passed : (sweep asked words work list).outcome s = .ok count) :
    Counts count (fun top => asked = true ∧ quarry.FoundAt s.scene.disk root top) ∧
      s.scene.disk.Clears (Under fun top => asked = true ∧ quarry.FoundAt s.scene.disk root top)
        ((sweep asked words work list).after s).scene.disk := by
  obtain ⟨steady, thins⟩ : _ ∧ s.scene.disk.Thins _ ((sweep asked words work list).after s).scene.disk :=
    thins_sweep confined sound linkless lists
  -- With a place all below it is gone, so it is enough that the places themselves are.
  have clears (gone : ∀ top, asked = true ∧ quarry.FoundAt s.scene.disk root top →
      ((sweep asked words work list).after s).scene.disk.view top = none) :=
    Clears.of_thins steady.sound thins fun place ⟨_, top, here, inside⟩ => by
      obtain ⟨names, rfl⟩ := inside
      exact steady.sound.view_eq_none_of_append (gone top here)
  cases asked with
  | false => exact ⟨⟨[], .nil, by simp, Except.ok.inj passed⟩, clears (by simp)⟩
  | true =>
    have inner : ∀ path ∈ list s.scene.disk, s.scene.disk.landing path ≠ [] := fun path listed =>
      ((lists.mem_iff _).mp (List.mem_map_of_mem listed)).ne_nil
    obtain ⟨rfl, all⟩ := forEach_of_ok confined inner ⟨sound, linkless, rfl⟩ thorough (stays rfl) begins
      passed
    obtain ⟨places, distinct, mem, length⟩ := lists.counts
    refine ⟨⟨places, distinct, fun place => (mem place).trans (and_iff_right rfl).symm, length⟩,
      clears ?_⟩
    rintro top ⟨-, found⟩
    obtain ⟨path, listed, rfl⟩ := List.mem_map.mp ((lists.mem_iff top).mpr found)
    exact all path listed

end Sweep

end Cleanup

end DialectBench
