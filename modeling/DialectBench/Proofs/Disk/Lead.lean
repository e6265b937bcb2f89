import DialectBench.Proofs.Disk.Route
import DialectBench.Proofs.Path.Ancestors

/-! Paths that lead to directories, and what paths below such a directory lead to. -/

namespace DialectBench

namespace Disk

/-- The place from which a path starts. -/
def start (d : Disk) (p : Path) : Location :=
  if p.isAbsolute then [] else d.current

/-- A path leads to a directory. -/
structure Leads (d : Disk) (p : Path) (place : Location) : Prop where
  /-- It has a text. -/
  named : p.IsNamed
  /-- Its steps lead there. -/
  goes : ∃ left, d.Goes linkLimit (d.start p) p.steps left place
  /-- A directory is there. -/
  stands : d.isDirectoryAt place = true

/-- No link is at a place or below it. -/
def Linkless (d : Disk) (place : Location) : Prop :=
  ∀ names target, d.view (place ++ names) ≠ some (.link target)

variable {d e : Disk} {p a : Path} {place : Location} {name : String} {names : List String}
  {last : Bool}

/-- A path with a text is followed from where it starts. -/
theorem resolve_eq (named : p.IsNamed) :
    d.resolve p last = d.follow last linkLimit (d.start p) p.steps := by
  rw [resolve, if_neg (by simp [named.isEmpty_eq])]
  rfl

/-- A path that leads to an entry has a text. -/
theorem isNamed_of_resolve {spot : Spot} (resolved : d.resolve p last = .ok spot) : p.IsNamed := by
  intro none
  have empty : p.text.isEmpty = true := by
    rw [String.isEmpty_iff, ← String.ofList_toList (s := p.text), none]
  simp [resolve, empty] at resolved

/-- What a path leads to is an entry at the end of its way. -/
theorem entry_eq_ok {node : Node} :
    d.entry p = .ok (place, node) ↔ d.resolve p true = .ok ⟨place, some node⟩ := by
  unfold entry
  split <;> simp_all

/-- An entry that a path leads to is at the end of its way. -/
theorem goes_of_entry {node : Node} (found : d.entry p = .ok (place, node)) :
    (∃ left, d.Goes linkLimit (d.start p) p.steps left place) ∧ d.find? place = some node := by
  have resolved := entry_eq_ok.mp found
  rw [resolve_eq (isNamed_of_resolve resolved)] at resolved
  exact goes_of_follow resolved

/-- A path whose way ends at an entry leads to it. -/
theorem Goes.entry_eq {left : Nat} {node : Node}
    (goes : d.Goes linkLimit (d.start p) p.steps left place) (named : p.IsNamed)
    (found : d.find? place = some node) : d.entry p = .ok (place, node) := by
  rw [entry_eq_ok, resolve_eq named, goes.follow_eq, found]

/-- A path leads to a directory if it is found to do so. -/
theorem directory?_eq_some : d.directory? p = some place ↔ d.Leads p place := by
  unfold directory?
  -- The definition looks up the entry of the path, which is where its way ends.
  constructor
  · intro found
    split at found
    next place' modified entry =>
      obtain rfl := Option.some.inj found
      obtain ⟨goes, there⟩ := goes_of_entry entry
      exact ⟨isNamed_of_resolve (entry_eq_ok.mp entry), goes, isDirectoryAt_of_find? there⟩
    · simp at found
  · rintro ⟨named, ⟨left, goes⟩, stands⟩
    obtain ⟨modified, there⟩ := find?_of_isDirectoryAt stands
    rw [goes.entry_eq named there]

/-- A path is that of a directory if it leads to one. -/
theorem isDirectory_iff : d.isDirectory p = true ↔ ∃ place, d.Leads p place := by
  unfold isDirectory
  -- As above, but for the place, which is not asked for.
  constructor
  · intro found
    split at found
    next place node entry =>
      obtain ⟨goes, there⟩ := goes_of_entry entry
      refine ⟨place, isNamed_of_resolve (entry_eq_ok.mp entry), goes, ?_⟩
      rw [isDirectoryAt, there]
      exact found
    · simp at found
  · rintro ⟨place, named, ⟨left, goes⟩, stands⟩
    obtain ⟨modified, there⟩ := find?_of_isDirectoryAt stands
    rw [goes.entry_eq named there]
    rfl

namespace Leads

/-- A path leads to one directory only. -/
theorem unique {other : Location} (leads : d.Leads p place) (again : d.Leads p other) :
    place = other := by
  obtain ⟨-, ⟨_, goes⟩, -⟩ := leads
  obtain ⟨-, ⟨_, more⟩, -⟩ := again
  exact goes.unique more

/-- The directory is what is found when links are followed. -/
theorem resolved (leads : d.Leads p place) : d.resolve p true = .ok ⟨place, d.find? place⟩ := by
  obtain ⟨left, goes⟩ := leads.goes
  rw [resolve_eq leads.named, goes.follow_eq]

/-- In a tree with more in it a path leads to the same directory. -/
theorem mono (leads : d.Leads p place) (within : d.Within e) (same : e.current = d.current) :
    e.Leads p place := by
  obtain ⟨named, ⟨left, goes⟩, stands⟩ := leads
  refine ⟨named, ⟨left, ?_⟩, within.isDirectoryAt stands⟩
  rw [start, same]
  exact goes.mono within

/-- Where a path leads is decided by its start and its moves. -/
theorem congr (leads : d.Leads p place) (named : a.IsNamed) (start : a.isAbsolute = p.isAbsolute)
    (moves : a.moves = p.moves) : d.Leads a place := by
  obtain ⟨-, ⟨left, goes⟩, stands⟩ := leads
  refine ⟨named, ⟨left, ?_⟩, stands⟩
  rw [Disk.start, start]
  exact goes.congr moves stands

/-- The moves of a path lead where the path does. -/
theorem moves (leads : d.Leads p place) :
    ∃ left, d.Goes linkLimit (d.start p) p.moves left place := by
  obtain ⟨-, ⟨left, goes⟩, stands⟩ := leads
  exact ⟨left, goes.congr (by rw [Path.moves, List.filter_filter]; simp) stands⟩

/-- A path that precedes one that leads to a directory leads to one, too, and the rest of the moves
leads on from there. -/
theorem precedes {rest : List Step} (leads : d.Leads p place) (precedes : a.Precedes p rest) :
    ∃ outer between left, d.Leads a outer ∧
      d.Goes linkLimit (d.start a) a.steps between outer ∧ d.Goes between outer rest left place := by
  obtain ⟨left, goes⟩ := leads.moves
  rw [precedes.moves] at goes
  obtain ⟨between, outer, first, second⟩ := goes.split
  -- The place in between is a directory, since the way stops there or goes on from it.
  have inner : d.isDirectoryAt outer = true := by
    cases rest with
    | nil =>
      cases second
      exact leads.stands
    | cons step rest => exact second.isDirectoryAt
  have begins : d.start a = d.start p := by rw [start, start, precedes.start]
  have own : d.Goes linkLimit (d.start a) a.steps between outer := by
    rw [begins]
    exact first.congr (by rw [Path.moves, List.filter_filter]; simp) inner
  exact ⟨outer, between, left, ⟨precedes.named, ⟨_, own⟩, inner⟩, own, second⟩

end Leads

section Existing

/-- A path leads to something if its way ends at an entry. -/
theorem exists?_iff : d.exists? p = true ↔ p.IsNamed ∧
    ∃ goal left, d.Goes linkLimit (d.start p) p.steps left goal ∧ d.find? goal ≠ none := by
  unfold exists?
  -- An entry is found at the end of a way, and a way to an entry finds it.
  constructor
  · intro found
    cases entry : d.entry p with
    | error refusal => simp [entry, Except.isOk, Except.toBool] at found
    | ok spot =>
      obtain ⟨goal, node⟩ := spot
      obtain ⟨⟨left, goes⟩, there⟩ := goes_of_entry entry
      exact ⟨isNamed_of_resolve (entry_eq_ok.mp entry), goal, left, goes, by simp [there]⟩
  · rintro ⟨named, goal, left, goes, some⟩
    obtain ⟨node, there⟩ := Option.ne_none_iff_exists'.mp some
    rw [goes.entry_eq named there]
    rfl

/-- The path of a file leads to it. -/
theorem exists_entry_of_isFile (file : d.isFile p = true) :
    ∃ place content mode time, d.entry p = .ok (place, .file content mode time) := by
  unfold isFile at file
  split at file
  next place node entry =>
    cases node with
    | file content mode time => exact ⟨place, content, mode, time, entry⟩
    | directory | link => simp [Node.isFile] at file
  · simp at file

/-- In a tree with more in it a path leads to the same file. -/
theorem entry_mono {content : Bytes} {mode : Bool} {time : Int} (within : d.Within e)
    (same : e.current = d.current) (found : d.entry p = .ok (place, .file content mode time)) :
    e.entry p = .ok (place, .file content mode time) := by
  obtain ⟨⟨left, goes⟩, there⟩ := goes_of_entry found
  have onward : e.Goes linkLimit (e.start p) p.steps left place := by
    rw [start, same]
    exact goes.mono within
  exact onward.entry_eq (isNamed_of_resolve (entry_eq_ok.mp found))
    (view_eq_file.mp (within _ _ (view_eq_file.mpr there)))

/-- A path that is one move above one that leads to something leads to a directory, in which the last
move leads on. -/
theorem leads_above {step : Step} (found : d.exists? p = true) (above : a.Precedes p [step]) :
    ∃ outer goal count between left, d.Leads a outer ∧
      d.Goes between outer (step :: List.replicate count .here) left goal := by
  obtain ⟨-, goal, left, goes, -⟩ := exists?_iff.mp found
  obtain ⟨front, count, split, own⟩ := exists_last_move above.moves
  rw [split] at goes
  obtain ⟨between, outer, first, second⟩ := goes.split
  refine ⟨outer, goal, count, between, left, ⟨above.named, ⟨between, ?_⟩, second.isDirectoryAt⟩,
    second⟩
  rw [start, above.start]
  exact first.congr own.symm second.isDirectoryAt

end Existing

section Below

/-- A tree in which only files and directories are listed has no links. -/
theorem linkless_of_entries (solid : ∀ entry ∈ d.entries, entry.2.isFile || entry.2.isDirectory) :
    d.Linkless place := by
  intro names target seen
  have there := view_eq_link.mp seen
  by_cases root : place ++ names = []
  · simp [root, find?] at there
  · rw [find?_of_ne_nil root] at there
    simpa [Node.isFile, Node.isDirectory] using solid _ (mem_of_lookup there)

/-- Below a place without links there are none. -/
theorem Linkless.below (linkless : d.Linkless place) (names : List String) :
    d.Linkless (place ++ names) := fun others target => by
  rw [List.append_assoc]
  exact linkless _ target

/-- Without links on the way, steps down lead down. -/
theorem follow_below {budget : Nat} {spot : Spot} (linkless : d.Linkless place)
    (followed : d.follow last budget place (names.map .down) = .ok spot) :
    spot = ⟨place ++ names, d.find? (place ++ names)⟩ ∧
      (names ≠ [] → d.isDirectoryAt (place ++ names).dropLast = true) := by
  -- The steps are taken one by one, and each of them moves the place below which there are no links.
  induction names generalizing place with
  | nil =>
    rw [List.map_nil, follow_nil] at followed
    obtain rfl := Except.ok.inj followed
    simp
  | cons name names ih =>
    rw [List.map_cons, follow_cons] at followed
    split at followed
    next modified here =>
      have stands := isDirectoryAt_of_find? here
      dsimp only at followed
      split at followed
      -- A link on the way would be one below the place.
      next target there => exact absurd (view_eq_link.mpr there) (linkless [name] target)
      -- A name that is missing can only be the last one.
      next there =>
        split at followed
        next last =>
          obtain rfl : names = [] := by simpa using last
          obtain rfl := Except.ok.inj followed
          exact ⟨by rw [there], fun _ => by simpa using stands⟩
        next => simp at followed
      next node there =>
        obtain ⟨same, inner⟩ := ih (linkless.below [name]) followed
        rw [List.append_assoc, List.singleton_append] at same inner
        refine ⟨same, fun _ => ?_⟩
        by_cases last : names = []
        · simpa [last] using stands
        · exact inner last
    next => simp at followed
    next => simp at followed

/-- Without links on the way, steps down through directories are followed. -/
theorem follow_below_eq {budget : Nat} (sound : d.Sound) (linkless : d.Linkless place)
    (stands : names ≠ [] → d.isDirectoryAt (place ++ names).dropLast = true) :
    d.follow last budget place (names.map .down) =
      .ok ⟨place ++ names, d.find? (place ++ names)⟩ := by
  -- The place moves down with each step, and no links are below it either.
  induction names generalizing place with
  | nil => rw [List.map_nil, follow_nil, List.append_nil]
  | cons name names ih =>
    have inner := stands (by simp)
    by_cases more : names = []
    · subst more
      obtain ⟨modified, here⟩ : ∃ modified, d.find? place = some (.directory modified) :=
        find?_of_isDirectoryAt (by simpa using inner)
      rw [List.map_cons, List.map_nil, follow_cons, here]
      dsimp only
      split
      next target there => exact absurd (view_eq_link.mpr there) (linkless [name] target)
      next there => rw [if_pos rfl, there]
      next => rw [follow_nil]
    · -- The directory at the end of the way lies in the one at its beginning.
      have split : (place ++ name :: names).dropLast = place ++ [name] ++ names.dropLast := by
        rw [← List.dropLast_append_of_ne_nil more, List.append_assoc, List.singleton_append]
      rw [split] at inner
      have seen : d.view (place ++ [name] ++ names.dropLast) ≠ none := by
        rw [view_eq_directory.mpr inner]
        simp
      have next : d.isDirectoryAt (place ++ [name]) = true := by
        by_cases one : names.dropLast = []
        · simpa [one] using inner
        · exact sound.isDirectoryAt_of_append one seen
      have here : d.isDirectoryAt place = true :=
        sound.isDirectoryAt_of_view (by rw [view_eq_directory.mpr next]; simp)
      obtain ⟨modified, found⟩ := find?_of_isDirectoryAt here
      obtain ⟨time, there⟩ := find?_of_isDirectoryAt next
      rw [List.map_cons, follow_down found there (by simp),
        ih (linkless.below [name]) fun _ => by
          rw [List.dropLast_append_of_ne_nil more]
          exact inner]
      simp

/-- A path below a directory is followed from there. -/
theorem Leads.resolve_extend (leads : d.Leads p place) (plain : ∀ name ∈ names, IsPlain name)
    (some : names ≠ []) :
    ∃ left, ∀ last, d.resolve (p.extend names) last = d.follow last left place (names.map .down) := by
  obtain ⟨named, ⟨left, goes⟩, stands⟩ := leads
  have trunk : d.Goes linkLimit (d.start p) p.trunk.steps left place :=
    goes.congr p.moves_trunk stands
  refine ⟨left, fun last => ?_⟩
  rw [resolve_eq (Path.isNamed_extend named plain), Path.steps_extend named plain some, start,
    Path.isAbsolute_extend named plain]
  exact trunk.follow_append (Or.inl (by simp [some]))

/-- A path below another one is followed only if that one leads to a directory. -/
theorem leads_of_resolve_extend {spot : Spot} (named : p.IsNamed)
    (plain : ∀ name ∈ names, IsPlain name) (some : names ≠ [])
    (resolved : d.resolve (p.extend names) false = .ok spot) : ∃ outer, d.Leads p outer := by
  rw [resolve_eq (Path.isNamed_extend named plain), Path.steps_extend named plain some, start,
    Path.isAbsolute_extend named plain] at resolved
  -- The way begins with the steps of that path, and at least one step is left.
  have trunk {between : Nat} {outer : Location} (goes : d.Goes linkLimit (d.start p) p.trunk.steps
      between outer) (stands : d.isDirectoryAt outer = true) : d.Leads p outer :=
    ⟨named, ⟨between, goes.congr p.moves_trunk.symm stands⟩, stands⟩
  -- The way goes through to an entry, or it stops in front of its last name.
  rcases (goes_or_ends resolved).2 with ⟨left, goes⟩ | ⟨outer, name, -, ⟨front, left, split, goes⟩, stands⟩
  · obtain ⟨between, outer, first, second⟩ := goes.split
    cases names with
    | nil => exact absurd rfl some
    | cons name names => exact ⟨outer, trunk first second.isDirectoryAt⟩
  · obtain ⟨early, last, rfl⟩ := (List.eq_nil_or_concat names).resolve_left some
    rw [List.concat_eq_append, List.map_append, ← List.append_assoc] at split
    obtain ⟨rfl, -⟩ := List.append_inj' split rfl
    obtain ⟨between, middle, first, second⟩ := goes.split
    cases early with
    | nil =>
      cases second
      exact ⟨_, trunk first stands⟩
    | cons name early => exact ⟨middle, trunk first second.isDirectoryAt⟩

/-- A path below a directory without links leads to the entry by its names. -/
theorem Leads.resolve_below {spot : Spot} (leads : d.Leads p place) (linkless : d.Linkless place)
    (plain : ∀ name ∈ names, IsPlain name) (some : names ≠ [])
    (resolved : d.resolve (p.extend names) last = .ok spot) :
    spot = ⟨place ++ names, d.find? (place ++ names)⟩ ∧
      d.isDirectoryAt (place ++ names).dropLast = true := by
  obtain ⟨left, follow⟩ := leads.resolve_extend plain some
  rw [follow] at resolved
  obtain ⟨same, inner⟩ := follow_below linkless resolved
  exact ⟨same, inner some⟩

/-- A path below a directory without links is resolved where there are directories above its end. -/
theorem Leads.resolve_below_eq (leads : d.Leads p place) (sound : d.Sound)
    (linkless : d.Linkless place) (plain : ∀ name ∈ names, IsPlain name) (some : names ≠ [])
    (stands : d.isDirectoryAt (place ++ names).dropLast = true) :
    d.resolve (p.extend names) last = .ok ⟨place ++ names, d.find? (place ++ names)⟩ := by
  obtain ⟨left, follow⟩ := leads.resolve_extend plain some
  rw [follow]
  exact follow_below_eq sound linkless fun _ => stands

/-- Below a directory without links a path leads to the directory by its names alone. -/
theorem Leads.eq_of_extend {goal : Location} (leads : d.Leads p place)
    (linkless : d.Linkless place) (plain : ∀ name ∈ names, IsPlain name)
    (inner : d.Leads (p.extend names) goal) : goal = place ++ names := by
  by_cases none : names = []
  · subst none
    rw [List.append_nil]
    exact inner.unique leads
  · exact (Spot.mk.inj (leads.resolve_below linkless plain none inner.resolved).1).1

/-- Below a directory without links the path of a directory leads to it. -/
theorem Leads.extend (leads : d.Leads p place) (sound : d.Sound) (linkless : d.Linkless place)
    (plain : ∀ name ∈ names, IsPlain name) (stands : d.isDirectoryAt (place ++ names) = true) :
    d.Leads (p.extend names) (place ++ names) := by
  by_cases none : names = []
  · simpa [none, Path.extend] using leads
  · obtain ⟨modified, found⟩ := find?_of_isDirectoryAt stands
    have resolved : d.resolve (p.extend names) true = _ :=
      leads.resolve_below_eq sound linkless plain none (sound.isDirectoryAt_dropLast stands)
    rw [found] at resolved
    rw [← directory?_eq_some, directory?, entry_eq_ok.mpr resolved]

/-- Below a directory without links a path is that of a directory if one stands there. -/
theorem Leads.isDirectory_extend (leads : d.Leads p place) (sound : d.Sound)
    (linkless : d.Linkless place) (plain : ∀ name ∈ names, IsPlain name) :
    d.isDirectory (p.extend names) = d.isDirectoryAt (place ++ names) := by
  rw [Bool.eq_iff_iff, isDirectory_iff]
  constructor
  · rintro ⟨goal, inner⟩
    rw [← leads.eq_of_extend linkless plain inner]
    exact inner.stands
  · exact fun stands => ⟨_, leads.extend sound linkless plain stands⟩

/-- The path of what is seen below a directory leads to it, whatever links there are beside the way. -/
theorem Leads.resolve_seen {node : Node} (leads : d.Leads p place) (sound : d.Sound)
    (some : names ≠ []) (found : d.find? (place ++ names) = .some node)
    (solid : ∀ target, node ≠ .link target) (last : Bool) :
    d.resolve (p.extend names) last = .ok ⟨place ++ names, .some node⟩ := by
  have seen : d.view (place ++ names) ≠ none := by
    rw [ne_eq, view_eq_none, found]
    simp
  have plain : ∀ name ∈ names, IsPlain name := fun name member =>
    sound.isPlain seen (List.mem_append_right _ member)
  obtain ⟨left, follow⟩ := leads.resolve_extend plain some
  rw [follow]
  -- What is above the entry are directories, down to the entry itself.
  refine follow_way (fun outer member inner => ?_) found solid
  obtain ⟨rest, rfl⟩ := (List.mem_inits _ _).mp member
  rw [← List.append_assoc] at seen
  exact sound.isDirectoryAt_of_append (by simpa using inner) seen

/-- The path of a file below a directory leads to it. -/
theorem Leads.entry_file {content : Bytes} {mode : Bool} {time : Int} (leads : d.Leads p place)
    (sound : d.Sound) (found : d.find? (place ++ names) = some (.file content mode time)) :
    d.entry (p.extend names) = .ok (place ++ names, .file content mode time) := by
  have some : names ≠ [] := by
    rintro rfl
    obtain ⟨modified, stands⟩ := find?_of_isDirectoryAt leads.stands
    simp [stands] at found
  rw [entry_eq_ok, leads.resolve_seen sound some found (by simp)]

/-- A file below a directory is read. -/
theorem Leads.read_file {content : Bytes} (leads : d.Leads p place) (sound : d.Sound)
    (held : d.content? (place ++ names) = some content) : d.read (p.extend names) = .ok content := by
  obtain ⟨mode, time, found⟩ := content?_eq_some.mp held
  rw [read, leads.entry_file sound found]

end Below

end Disk

end DialectBench
