import DialectBench.Proofs.Disk.Way
import DialectBench.Proofs.Path.Moves

/-! File trees whose entries fit together, and what a change of one entry leaves of them. -/

namespace DialectBench

namespace Node

/-- An entry without the time of a directory. -/
def untimed : Node → Node
  | directory _ => directory 0
  | node => node

/-- The content of a file. -/
def content? : Node → Option Bytes
  | file content .. => some content
  | _ => none

end Node

namespace Disk

/-- What stands at a place, without the time of a directory. -/
def view (d : Disk) (place : Location) : Option Node :=
  (d.find? place).map Node.untimed

/-- The content of the file at a place. -/
def content? (d : Disk) (place : Location) : Option Bytes :=
  (d.find? place).bind Node.content?

/-- The places of the entries. -/
def places (d : Disk) : List Location :=
  d.entries.map Prod.fst

/-- The entries of a file tree fit together. -/
structure Sound (d : Disk) : Prop where
  /-- No place is listed twice. -/
  distinct : d.places.Nodup
  /-- The root is not listed. -/
  inner : ∀ place ∈ d.places, place ≠ []
  /-- The names of entries are plain. -/
  plain : ∀ place ∈ d.places, ∀ name ∈ place, IsPlain name
  /-- What lies in a place lies in a directory. -/
  housed : ∀ place ∈ d.places, d.isDirectoryAt place.dropLast = true

variable {d : Disk} {place other : Location} {node : Node}

section View

/-- The root is a directory. -/
@[simp] theorem view_root (d : Disk) : d.view [] = some (.directory 0) := rfl

/-- The root is a directory. -/
@[simp] theorem isDirectoryAt_root (d : Disk) : d.isDirectoryAt [] = true := rfl

/-- Nothing is seen where nothing is. -/
theorem view_eq_none : d.view place = none ↔ d.find? place = none := by
  simp [view]

/-- A directory is seen where one stands. -/
theorem view_eq_directory : d.view place = some (.directory 0) ↔ d.isDirectoryAt place = true := by
  unfold view isDirectoryAt
  cases d.find? place with
  | none => simp
  | some node => cases node <;> simp [Node.untimed, Node.isDirectory]

/-- A file is seen as it is. -/
theorem view_eq_file {content : Bytes} {executable : Bool} {modified : Int} :
    d.view place = some (.file content executable modified) ↔
      d.find? place = some (.file content executable modified) := by
  unfold view
  cases d.find? place with
  | none => simp
  | some node => cases node <;> simp [Node.untimed]

/-- A link is seen as it is. -/
theorem view_eq_link {target : Path} :
    d.view place = some (.link target) ↔ d.find? place = some (.link target) := by
  unfold view
  cases d.find? place with
  | none => simp
  | some node => cases node <;> simp [Node.untimed]

/-- The content of a file is part of what is seen. -/
theorem content?_eq (d : Disk) (place : Location) :
    d.content? place = (d.view place).bind Node.content? := by
  unfold content? view
  cases d.find? place with
  | none => rfl
  | some node => cases node <;> rfl

/-- Where the same is seen the content is the same. -/
theorem content?_congr {e : Disk} (same : d.view place = e.view other) :
    d.content? place = e.content? other := by
  rw [content?_eq, content?_eq, same]

/-- A content is that of a file. -/
theorem content?_eq_some {content : Bytes} :
    d.content? place = some content ↔
      ∃ executable modified, d.find? place = some (.file content executable modified) := by
  unfold content?
  cases d.find? place with
  | none => simp
  | some node => cases node <;> simp [Node.content?]

/-- A directory is no file. -/
theorem content?_of_isDirectoryAt (stands : d.isDirectoryAt place = true) :
    d.content? place = none := by
  rw [content?_eq, view_eq_directory.mpr stands]
  rfl

end View

section Places

/-- At a place other than the root the list of entries decides. -/
theorem find?_of_ne_nil (some : place ≠ []) : d.find? place = d.entries.lookup place := by
  unfold find?
  split
  · exact absurd rfl some
  · rfl

/-- Something is found at a place other than the root if the place is listed. -/
theorem find?_ne_none (some : place ≠ []) : d.find? place ≠ none ↔ place ∈ d.places := by
  rw [find?_of_ne_nil some, ne_eq, List.lookup_eq_none_iff, not_forall, places]
  simp only [List.mem_map]
  constructor
  · rintro ⟨entry, listed⟩
    simp only [Classical.not_imp, bne_iff_ne, ne_eq, not_not] at listed
    exact ⟨entry, listed.1, listed.2.symm⟩
  · rintro ⟨entry, member, same⟩
    exact ⟨entry, by simp [member, same]⟩

/-- What is seen at a place other than the root is listed. -/
theorem mem_places (some : place ≠ []) (seen : d.view place ≠ none) : place ∈ d.places :=
  (find?_ne_none some).mp fun none => seen (view_eq_none.mpr none)

/-- Where no key is listed twice a value is found under the key with which it is listed. -/
theorem lookup_of_mem {α β : Type} [BEq α] [LawfulBEq α] {entries : List (α × β)} {key : α}
    {value : β} (distinct : (entries.map Prod.fst).Nodup) (member : (key, value) ∈ entries) :
    entries.lookup key = some value := by
  obtain ⟨before, after, rfl⟩ := List.append_of_mem member
  refine List.lookup_eq_some_iff.mpr ⟨before, after, rfl, fun entry early => ?_⟩
  rw [List.map_append, List.map_cons] at distinct
  -- No entry in front can have the key of this one.
  have apart := (List.nodup_append.mp distinct).2.2 entry.1 (List.mem_map_of_mem early) key
    List.mem_cons_self
  exact bne_iff_ne.mpr apart.symm

/-- A value that is found under a key is listed with it. -/
theorem mem_of_lookup {α β : Type} [BEq α] [LawfulBEq α] {entries : List (α × β)} {key : α}
    {value : β} (found : entries.lookup key = some value) : (key, value) ∈ entries := by
  obtain ⟨before, after, rfl, -⟩ := List.lookup_eq_some_iff.mp found
  simp

/-- In a sound tree the entries are those that are found. -/
theorem Sound.mem_entries (sound : d.Sound) :
    (place, node) ∈ d.entries ↔ place ≠ [] ∧ d.find? place = some node := by
  constructor
  · intro member
    have listed : place ∈ d.places := List.mem_map.mpr ⟨_, member, rfl⟩
    refine ⟨sound.inner place listed, ?_⟩
    rw [find?_of_ne_nil (sound.inner place listed)]
    exact lookup_of_mem sound.distinct member
  · rintro ⟨some, found⟩
    rw [find?_of_ne_nil some] at found
    exact mem_of_lookup found

/-- Above a place where something is there is a directory. -/
theorem Sound.isDirectoryAt_of_view {name : String} (sound : d.Sound)
    (seen : d.view (place ++ [name]) ≠ none) : d.isDirectoryAt place = true := by
  simpa using sound.housed _ (mem_places (by simp) seen)

/-- Above a place where something is there are directories. -/
theorem Sound.isDirectoryAt_of_append (sound : d.Sound) {names : List String} (some : names ≠ [])
    (seen : d.view (place ++ names) ≠ none) : d.isDirectoryAt place = true := by
  -- The names behind the place are taken away from the end.
  induction names using List.reverseRecOn with
  | nil => exact absurd rfl some
  | append_singleton names name ih =>
    rw [← List.append_assoc] at seen
    have above := sound.isDirectoryAt_of_view seen
    by_cases last : names = []
    · simpa [last] using above
    · refine ih last ?_
      rw [view_eq_directory.mpr above]
      simp

/-- Where nothing is there is nothing below either. -/
theorem Sound.view_eq_none_of_append (sound : d.Sound) {names : List String}
    (free : d.view place = none) : d.view (place ++ names) = none := by
  by_contra seen
  by_cases last : names = []
  · exact seen (by simpa [last] using free)
  · have above := view_eq_directory.mpr (sound.isDirectoryAt_of_append last seen)
    rw [free] at above
    simp at above

/-- The names on the way to something that is there are plain. -/
theorem Sound.isPlain {name : String} (sound : d.Sound) (seen : d.view place ≠ none)
    (member : name ∈ place) : IsPlain name :=
  sound.plain place (mem_places (List.ne_nil_of_mem member) seen) name member

/-- What stands behind a place on the way to another one is what is below. -/
theorem below?_eq_some {base : Location} {names : List String} :
    base.below? other = some names ↔ other = base ++ names ∧ names ≠ [] := by
  -- Both lists are gone through in step, as the definition does.
  induction base generalizing other with
  | nil =>
    cases other with
    | nil => simp [Location.below?, eq_comm]
    | cons name other =>
      simp only [Location.below?, Option.some.injEq, List.nil_append]
      constructor
      · rintro rfl
        exact ⟨rfl, by simp⟩
      · exact fun same => same.1
  | cons first base ih =>
    cases other with
    | nil => simp [Location.below?]
    | cons name other =>
      rw [Location.below?]
      split
      next same => rw [ih, same]; simp
      next apart => simp [Ne.symm apart]

/-- What is below a place is found there. -/
theorem Sound.mem_below (sound : d.Sound) {names : List String} :
    (names, node) ∈ d.below place ↔ names ≠ [] ∧ d.find? (place ++ names) = some node := by
  unfold below
  simp only [List.mem_filterMap, Option.map_eq_some_iff, Prod.mk.injEq, Prod.exists]
  constructor
  · rintro ⟨other, node', member, names', below, rfl, rfl⟩
    obtain ⟨rfl, some⟩ := below?_eq_some.mp below
    exact ⟨some, (sound.mem_entries.mp member).2⟩
  · rintro ⟨some, found⟩
    exact ⟨_, _, sound.mem_entries.mpr ⟨by simp [some], found⟩, names,
      below?_eq_some.mpr ⟨rfl, some⟩, rfl, rfl⟩

end Places

section Entries

/-- Entries that are changed where they are listed are found changed. -/
theorem lookup_map_entries (change : Location → Node → Node) (entries : List (Location × Node)) :
    (entries.map fun entry => (entry.1, change entry.1 entry.2)).lookup place =
      (entries.lookup place).map (change place) := by
  induction entries with
  | nil => rfl
  | cons entry entries ih =>
    rw [List.map_cons, List.lookup_cons, List.lookup_cons, ih]
    split
    next same => simp [beq_iff_eq.mp same]
    next => rfl

/-- A changed entry is found changed, and every other one as it was. -/
theorem find?_replace {change : Node → Node} (some : other ≠ []) :
    (d.replace place change).find? other =
      (d.find? other).map fun node => if other = place then change node else node := by
  have entries : (d.replace place change).entries =
      d.entries.map fun entry =>
        (entry.1, if entry.1 = place then change entry.2 else entry.2) := by
    refine List.map_congr_left fun entry _ => ?_
    by_cases own : entry.1 = place <;> simp [own]
  rw [find?_of_ne_nil some, find?_of_ne_nil some, entries]
  exact lookup_map_entries (fun listed node => if listed = place then change node else node) _

/-- A new list of entries is a matter of time. -/
@[simp] theorem view_touchDirectory : (d.touchDirectory place).view other = d.view other := by
  by_cases root : other = []
  · simp [root]
  · unfold view touchDirectory
    rw [find?_replace root, Option.map_map]
    refine Option.map_congr fun node _ => ?_
    dsimp only [Function.comp]
    split
    · cases node <;> rfl
    · rfl

/-- A changed entry stays where it is. -/
@[simp] theorem places_replace {change : Node → Node} :
    (d.replace place change).places = d.places := by
  unfold places replace
  rw [List.map_map]
  refine List.map_congr_left fun entry _ => ?_
  dsimp only [Function.comp]
  split <;> rfl

/-- A new list of entries leaves the entries where they are. -/
@[simp] theorem places_touchDirectory : (d.touchDirectory place).places = d.places :=
  places_replace

/-- The root is not free. -/
theorem ne_nil_of_free (free : d.find? place = none) : place ≠ [] := by
  rintro rfl
  simp [find?] at free

/-- An entry that is put at a free place is seen there. -/
theorem view_insert (free : d.find? place = none) :
    (d.insert place node).view other = if other = place then some node.untimed else d.view other := by
  have some := ne_nil_of_free free
  unfold insert
  rw [view_touchDirectory]
  by_cases root : other = []
  · simp [root, Ne.symm some]
  · rw [find?_of_ne_nil some, List.lookup_eq_none_iff] at free
    rw [view, view, find?_of_ne_nil root, find?_of_ne_nil root, List.lookup_append, List.lookup_cons,
      List.lookup_nil]
    by_cases same : other = place
    · rw [same, List.lookup_eq_none_iff.mpr free]
      simp
    · rw [beq_eq_false_iff_ne.mpr same, if_neg same]
      simp

/-- A place is listed last when something is put there. -/
theorem places_insert : (d.insert place node).places = d.places ++ [place] := by
  unfold insert
  rw [places_touchDirectory]
  simp [places]

/-- Nothing is seen where an entry was taken away. -/
theorem view_erase (some : place ≠ []) :
    (d.erase place).view other = if other = place then none else d.view other := by
  -- The entries that remain are searched as before, but for the place itself.
  have lookup : ∀ entries : List (Location × Node),
      (entries.filter fun entry => entry.1 != place).lookup other =
        if other = place then none else entries.lookup other := by
    intro entries
    induction entries with
    | nil => simp
    | cons entry entries ih =>
      rw [List.lookup_cons]
      by_cases own : entry.1 = place
      · rw [List.filter_cons_of_neg (by simpa using own), ih]
        split
        · rfl
        next apart =>
          have other : (other == entry.1) = false := by simpa [own] using apart
          rw [other]
      · rw [List.filter_cons_of_pos (by simpa using own), List.lookup_cons, ih]
        split
        next same =>
          have apart : other ≠ place := fun gone => own ((beq_iff_eq.mp same).symm.trans gone)
          rw [if_neg apart]
        next => rfl
  unfold erase
  rw [view_touchDirectory]
  by_cases root : other = []
  · simp [root, Ne.symm some]
  · rw [view, view, find?_of_ne_nil root, find?_of_ne_nil root]
    refine (congrArg _ (lookup d.entries)).trans ?_
    split <;> rfl

/-- A place is no longer listed when its entry was taken away. -/
theorem places_erase : (d.erase place).places = d.places.filter (· != place) := by
  unfold erase
  rw [places_touchDirectory]
  simp only [places]
  rw [List.filter_map]
  rfl

end Entries

section Changes

/-- A new entry fits at a place. -/
structure Fits (d : Disk) (place : Location) : Prop where
  /-- Nothing is there. -/
  vacant : d.find? place = none
  /-- The place lies in a directory. -/
  housed : d.isDirectoryAt place.dropLast = true
  /-- Its names are plain. -/
  plain : ∀ name ∈ place, IsPlain name

/-- A file can be written at a place: a new one fits there, or there is one. -/
def TakesFile (d : Disk) (place : Location) : Prop :=
  d.Fits place ∨ ∃ content executable modified,
    d.find? place = some (.file content executable modified)

/-- A plain name that a directory does not hold is one for a new entry. -/
theorem Sound.fits {name : String} (sound : d.Sound) (stands : d.isDirectoryAt place = true)
    (plain : IsPlain name) (vacant : d.find? (place ++ [name]) = none) : d.Fits (place ++ [name]) := by
  refine ⟨vacant, by simpa using stands, fun other member => ?_⟩
  rcases List.mem_append.mp member with early | last
  · exact sound.isPlain (by rw [view_eq_directory.mpr stands]; simp) early
  · rw [List.mem_singleton.mp last]
    exact plain

/-- Where directories stay directories and entries stay where they are, they fit together as
before. -/
theorem Sound.of_places {e : Disk} (sound : d.Sound) (same : e.places = d.places)
    (stay : ∀ place, d.isDirectoryAt place = true → e.isDirectoryAt place = true) : e.Sound where
  distinct := same ▸ sound.distinct
  inner place member := sound.inner place (same ▸ member)
  plain place member := sound.plain place (same ▸ member)
  housed place member := stay _ (sound.housed place (same ▸ member))

/-- A sound tree with a new entry where one fits is sound. -/
theorem Sound.insert (sound : d.Sound) (fits : d.Fits place) : (d.insert place node).Sound := by
  -- No directory was at the place, so all of them stand where they did.
  have stay : ∀ other, d.isDirectoryAt other = true →
      (d.insert place node).isDirectoryAt other = true := by
    intro other stands
    have apart : other ≠ place := by
      rintro rfl
      rw [isDirectoryAt, fits.vacant] at stands
      simp at stands
    rw [← view_eq_directory, view_insert fits.vacant, if_neg apart]
    exact view_eq_directory.mpr stands
  have absent : place ∉ d.places := fun listed =>
    (find?_ne_none (ne_nil_of_free fits.vacant)).mpr listed fits.vacant
  -- Every condition splits into the entries that were there and the new one.
  refine ⟨?_, ?_, ?_, ?_⟩ <;> rw [places_insert]
  · exact List.nodup_append.mpr ⟨sound.distinct, by simp, by
      rintro other member last same rfl
      exact absent (List.mem_singleton.mp same ▸ member)⟩
  all_goals
    intro other member
    rcases List.mem_append.mp member with old | new
  · exact sound.inner other old
  · exact List.mem_singleton.mp new ▸ ne_nil_of_free fits.vacant
  · exact sound.plain other old
  · exact List.mem_singleton.mp new ▸ fits.plain
  · exact stay _ (sound.housed other old)
  · exact stay _ (List.mem_singleton.mp new ▸ fits.housed)

/-- The time is no part of how entries fit together. -/
theorem Sound.tick (sound : d.Sound) (clock : Int) : { d with clock := clock }.Sound :=
  sound.of_places rfl fun _ stands => stands

/-- A new directory is seen where it is made. -/
theorem view_makeDirectory (vacant : d.find? place = none) :
    (d.apply (.makeDirectory place)).view other =
      if other = place then some (.directory 0) else d.view other :=
  view_insert (d := { d with clock := d.clock + 1000000 }) vacant

/-- A sound tree with a new directory where one fits is sound. -/
theorem Sound.makeDirectory (sound : d.Sound) (fits : d.Fits place) :
    (d.apply (.makeDirectory place)).Sound :=
  (sound.tick _).insert ⟨fits.vacant, fits.housed, fits.plain⟩

/-- A file that is put somewhere is seen there. -/
theorem view_putFile {content : Bytes} {executable : Option Bool} (takes : d.TakesFile place) :
    ∃ mode modified, ∀ other, (d.putFile place content executable).view other =
      if other = place then some (.file content mode modified) else d.view other := by
  -- A new file is inserted, and one that is there is replaced in its place.
  unfold putFile
  rcases takes with fits | ⟨before, own, modified, found⟩
  · rw [fits.vacant, if_neg (by simp)]
    exact ⟨_, _, fun other => view_insert fits.vacant⟩
  · rw [found, if_pos (by simp)]
    refine ⟨executable.getD own, d.clock, fun other => ?_⟩
    by_cases root : other = []
    · have apart : [] ≠ place := by
        rintro rfl
        simp [find?] at found
      simp [root, apart]
    · rw [view, find?_replace root]
      split
      next same =>
        rw [same, found]
        rfl
      next => simp [view]

/-- A sound tree with a file where one can be written is sound. -/
theorem Sound.putFile {content : Bytes} {executable : Option Bool} (sound : d.Sound)
    (takes : d.TakesFile place) : (d.putFile place content executable).Sound := by
  obtain ⟨mode, time, same⟩ : ∃ mode modified, ∀ other,
      (d.putFile place content executable).view other =
        if other = place then some (.file content mode modified) else d.view other :=
    view_putFile takes
  -- In a free place the file is a new entry; otherwise the places stay the same, and no directory was
  -- a file.
  rcases takes with fits | ⟨before, own, modified, found⟩
  · unfold Disk.putFile
    rw [fits.vacant, if_neg (by simp)]
    exact sound.insert fits
  · refine sound.of_places ?_ fun other stands => ?_
    · unfold Disk.putFile
      rw [found, if_pos (by simp), places_replace]
    · have apart : other ≠ place := by
        rintro rfl
        simp [isDirectoryAt, found, Node.isDirectory] at stands
      rw [← view_eq_directory, same, if_neg apart]
      exact view_eq_directory.mpr stands

/-- Putting a file somewhere is no move. -/
@[simp] theorem current_putFile {content : Bytes} {executable : Option Bool} :
    (d.putFile place content executable).current = d.current := by
  unfold putFile
  split <;> rfl

/-- The time is no part of where a file can be written. -/
theorem TakesFile.tick (takes : d.TakesFile place) (clock : Int) :
    { d with clock := clock }.TakesFile place :=
  takes.imp (fun fits => ⟨fits.vacant, fits.housed, fits.plain⟩) id

/-- A tree differs from another one in the file at a place alone. -/
structure Puts (d : Disk) (place : Location) (content : Bytes) (e : Disk) : Prop where
  /-- Its entries fit together. -/
  sound : e.Sound
  /-- The current directory is the same. -/
  current : e.current = d.current
  /-- The file is seen at its place, and everything else as it was. -/
  seen : ∃ mode modified, ∀ other, e.view other =
    if other = place then some (.file content mode modified) else d.view other

/-- A file that is put somewhere is the only difference. -/
theorem Sound.puts {content : Bytes} {executable : Option Bool} (sound : d.Sound)
    (takes : d.TakesFile place) : d.Puts place content (d.putFile place content executable) :=
  ⟨sound.putFile takes, current_putFile, view_putFile takes⟩

/-- A file that is written is the only difference. -/
theorem Sound.puts_writeFile (sound : d.Sound) (takes : d.TakesFile place) (content : Bytes) :
    d.Puts place content (d.apply (.writeFile place content)) := by
  obtain ⟨inner, same, seen⟩ := (sound.tick (d.clock + 1000000)).puts (takes.tick _)
  exact ⟨inner, same, seen⟩

/-- A copy of a file is the only difference. -/
theorem Sound.puts_copyFile (sound : d.Sound) (takes : d.TakesFile place) (content : Bytes)
    (executable : Bool) : d.Puts place content (d.apply (.copyFile place content executable)) := by
  obtain ⟨inner, same, seen⟩ := (sound.tick (d.clock + 1000000)).puts (takes.tick _)
  exact ⟨inner, same, seen⟩

/-- A file that is extended is still the only difference. -/
theorem Puts.extendFile {content : Bytes} {e : Disk} (puts : d.Puts place content e) (more : Bytes) :
    d.Puts place (content ++ more) (e.apply (.extendFile place more)) := by
  obtain ⟨sound, current, mode, modified, seen⟩ := puts
  -- The file is the one that was put, so extending it replaces its entry.
  have found : e.find? place = some (.file content mode modified) := by
    rw [← view_eq_file, seen, if_pos rfl]
  have own : ∀ other, ({ e with clock := e.clock + 1000000 } : Disk).find? other = e.find? other :=
    fun _ => rfl
  have inner : place ≠ [] := by
    rintro rfl
    simp [find?] at found
  have view : ∀ other, (e.apply (.extendFile place more)).view other =
      if other = place then some (.file (content ++ more) mode (e.clock + 1000000))
      else d.view other := by
    intro other
    unfold apply
    by_cases root : other = []
    · simp [root, Ne.symm inner]
    · rw [Disk.view, find?_replace root, own]
      split
      next same =>
        rw [same, found]
        rfl
      next apart =>
        have before := seen other
        rw [if_neg apart] at before
        rw [← before, Disk.view]
        simp
  refine ⟨sound.of_places places_replace fun other stands => ?_, current, mode, _, view⟩
  rw [← view_eq_directory, view]
  rw [← view_eq_directory, seen] at stands
  split
  next same => simp [same] at stands
  next apart => rwa [if_neg apart] at stands

/-- The content of the file is new, and all others are as they were. -/
theorem Puts.content?_eq {content : Bytes} {e : Disk} (puts : d.Puts place content e)
    (other : Location) : e.content? other = if other = place then some content else d.content? other := by
  obtain ⟨-, -, mode, modified, seen⟩ := puts
  rw [Disk.content?_eq, seen, Disk.content?_eq]
  split <;> rfl

/-- Nothing is seen where an entry was removed. -/
theorem view_delete (some : place ≠ []) :
    (d.apply (.delete place)).view other = if other = place then none else d.view other :=
  view_erase (d := { d with clock := d.clock + 1000000 }) some

/-- A place is no longer listed when its entry was removed. -/
theorem places_delete : (d.apply (.delete place)).places = d.places.filter (· != place) :=
  places_erase (d := { d with clock := d.clock + 1000000 })

end Changes

end Disk

end DialectBench
