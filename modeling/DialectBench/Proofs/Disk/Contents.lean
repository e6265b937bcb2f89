import DialectBench.Proofs.Disk.Clearing
import DialectBench.Proofs.Disk.Growth
import DialectBench.Proofs.Disk.Trail

/-! The entries of a directory by their names, and what of them stays when the tree changes. -/

namespace DialectBench.Disk

variable {d e f : Disk} {p : Path} {place : Location} {name : String} {own : String → Prop}
  {last : Bool} {content : Bytes}

/-- A name behind the path of a directory leads to the entry of that name; a link is looked at itself, or
there is none. -/
theorem Leads.resolve_div (leads : d.Leads p place) (plain : IsPlain name)
    (solid : last = true → ∀ target, d.view (place ++ [name]) ≠ some (.link target)) :
    d.resolve (p / name) last = .ok ⟨place ++ [name], d.find? (place ++ [name])⟩ := by
  obtain ⟨left, followed⟩ := leads.resolve_extend (d := d)
    (List.forall_mem_singleton.mpr plain) (List.cons_ne_nil name [])
  obtain ⟨modified, here⟩ := find?_of_isDirectoryAt leads.stands
  rw [show p / name = p.extend [name] from rfl, followed, List.map_singleton, follow_cons, here]
  dsimp only
  -- One step is left, from the directory to what has the name in it.
  cases found : d.find? (place ++ [name]) with
  | none => simp
  | some node =>
    cases node with
    | file | directory =>
      dsimp only
      rw [follow_nil, found]
    | link target =>
      cases last with
      | false => simp
      | true => exact absurd (view_eq_link.mpr found) (solid rfl target)

/-- A file in a directory is read by its name. -/
theorem Leads.read_div (leads : d.Leads p place) (plain : IsPlain name)
    (held : d.content? (place ++ [name]) = some content) : d.read (p / name) = .ok content := by
  obtain ⟨mode, time, found⟩ := content?_eq_some.mp held
  have resolved : d.resolve (p / name) true = .ok ⟨place ++ [name], d.find? (place ++ [name])⟩ :=
    leads.resolve_div plain fun _ target link => by
      rw [view_eq_link, found] at link
      cases link
  rw [found] at resolved
  rw [read, entry_eq_ok.mpr resolved]

/-- What is read under a name in a directory is in the file of that name, unless a link bears it. -/
theorem Leads.content?_of_read (leads : d.Leads p place) (plain : IsPlain name)
    (solid : ∀ target, d.view (place ++ [name]) ≠ some (.link target))
    (read : d.read (p / name) = .ok content) : d.content? (place ++ [name]) = some content := by
  unfold Disk.read at read
  split at read
  next inner held mode time found =>
    obtain rfl := Except.ok.inj read
    have resolved := entry_eq_ok.mp found
    rw [leads.resolve_div plain fun _ => solid] at resolved
    obtain ⟨rfl, there⟩ := Spot.mk.inj (Except.ok.inj resolved)
    exact content?_eq_some.mpr ⟨mode, time, there⟩
  · cases read
  · cases read

/-- A directory in a directory is found by its name. -/
theorem Leads.div (leads : d.Leads p place) (plain : IsPlain name)
    (stands : d.isDirectoryAt (place ++ [name]) = true) : d.Leads (p / name) (place ++ [name]) := by
  obtain ⟨modified, found⟩ := find?_of_isDirectoryAt stands
  have resolved : d.resolve (p / name) true = .ok ⟨place ++ [name], d.find? (place ++ [name])⟩ :=
    leads.resolve_div plain fun _ target link => by
      rw [view_eq_link, found] at link
      cases link
  rw [found] at resolved
  rw [← directory?_eq_some, directory?, entry_eq_ok.mpr resolved]

/-- A file in a directory is written under its name, unless a link bears it. -/
theorem Leads.filePlace_div {goal : Location} (leads : d.Leads p place) (plain : IsPlain name)
    (solid : ∀ target, d.view (place ++ [name]) ≠ some (.link target))
    (writable : d.filePlace (p / name) = .ok goal) : goal = place ++ [name] := by
  rw [filePlace, leads.resolve_div plain fun _ => solid] at writable
  cases found : d.find? (place ++ [name]) with
  | none =>
    rw [found] at writable
    exact (Except.ok.inj writable).symm
  | some node =>
    rw [found] at writable
    cases node with
    | file => exact (Except.ok.inj writable).symm
    | directory | link => cases writable

/-- A way to a directory is gone as before where directories and links are seen as before. -/
theorem Goes.of_kept {budget left : Nat} {goal : Location} {steps : List Step}
    (goes : d.Goes budget place steps left goal) (stands : d.isDirectoryAt goal = true)
    (kept : ∀ inner node, node.isFile = false → d.view inner = some node → e.view inner = some node) :
    e.Goes budget place steps left goal := by
  have still {inner : Location} (there : d.isDirectoryAt inner = true) :
      e.isDirectoryAt inner = true :=
    view_eq_directory.mp (kept _ _ rfl (view_eq_directory.mpr there))
  -- By induction on the way: each directory that is entered and each link that is followed is kept.
  induction goes with
  | done => exact .done
  | here there _ ih => exact (ih stands).here (still there)
  | up there _ ih => exact (ih stands).up (still there)
  | link there seen _ ih => exact (ih stands).link (still there) (kept _ _ rfl seen)
  | @down _ _ inner _ name _ rest there _ _ onward ih =>
    -- The entry is the directory in the end, or a step is taken from there.
    have inside : d.isDirectoryAt (inner ++ [name]) = true := by
      cases rest with
      | nil =>
        cases onward
        exact stands
      | cons step rest => exact onward.isDirectoryAt
    have seen := view_eq_directory.mpr (still inside)
    exact (ih stands).down (still there) seen (by simp)

/-- A path leads to a directory in which everything stays but what entries of some names hold: the other
files are the same, directories stand, and no link is new. -/
structure KeepsIn (p : Path) (place : Location) (own : String → Prop) (d e : Disk) : Prop where
  /-- The entries fit together. -/
  sound : e.Sound
  /-- The path leads there. -/
  leads : e.Leads p place
  /-- Files under other names are the same, and none is new. -/
  content : ∀ name, ¬ own name → ∀ names,
    e.content? (place ++ name :: names) = d.content? (place ++ name :: names)
  /-- Directories stand. -/
  stands : ∀ names, d.isDirectoryAt (place ++ names) = true →
    e.isDirectoryAt (place ++ names) = true
  /-- No link is new. -/
  linked : ∀ names target, e.view (place ++ names) = some (.link target) →
    d.view (place ++ names) = some (.link target)

/-- What holds of a tree holds of every other one that keeps in a directory everything but what entries of
some names hold. -/
def Stable (p : Path) (place : Location) (own : String → Prop) (holds : Disk → Prop) : Prop :=
  ∀ d e : Disk, d.KeepsIn p place own e → holds d → holds e

namespace KeepsIn

/-- A directory in which all is seen as before keeps everything. -/
theorem of_view (sound : e.Sound) (leads : e.Leads p place)
    (same : ∀ names, e.view (place ++ names) = d.view (place ++ names)) :
    d.KeepsIn p place own e where
  sound := sound
  leads := leads
  content name _ names := content?_congr (same (name :: names))
  stands names stood := by
    rw [← view_eq_directory, same, view_eq_directory]
    exact stood
  linked names target seen := by rwa [← same]

/-- What is taken away neither from a directory nor from the way there is not missed. -/
theorem of_thins {lost : Location → Prop} (leads : d.Leads p place) (sound : e.Sound)
    (thins : d.Thins lost e) (aside : ∀ inner ∈ d.trail p, ¬ lost inner)
    (safe : ∀ names, ¬ lost (place ++ names)) : d.KeepsIn p place own e := by
  have same {inner : Location} (spared : ¬ lost inner) : e.view inner = d.view inner :=
    (thins.seen inner).resolve_right fun gone => spared gone.1
  exact of_view sound (leads_congr thins.current (fun inner member => same (aside inner member)) leads)
    fun names => same (safe names)

/-- A tree that has grown keeps the files that are the same. -/
theorem of_grows (leads : d.Leads p place) (grows : d.Grows e)
    (content : ∀ name, ¬ own name → ∀ names,
      e.content? (place ++ name :: names) = d.content? (place ++ name :: names)) :
    d.KeepsIn p place own e where
  sound := grows.sound
  leads := leads.mono grows.within grows.current
  content := content
  stands _ := grows.within.isDirectoryAt
  linked _ := grows.linked _

/-- A file that is put under a name, where there was no directory and no link, is the only one that is
another one. -/
theorem of_puts (leads : d.Leads p place) (puts : d.Puts (place ++ [name]) content e)
    (takes : d.TakesFile (place ++ [name])) (named : own name) : d.KeepsIn p place own e := by
  obtain ⟨mode, modified, seen⟩ := puts.seen
  -- Only a file gives way to the new one.
  have kept : ∀ inner node, node.isFile = false → d.view inner = some node →
      e.view inner = some node := by
    intro inner node solid there
    rw [seen, if_neg, there]
    rintro rfl
    obtain fits | ⟨_, _, _, file⟩ := takes
    · rw [view_eq_none.mpr fits.vacant] at there
      cases there
    · rw [view_eq_file.mpr file] at there
      obtain rfl := Option.some.inj there
      cases solid
  have still {inner : Location} (there : d.isDirectoryAt inner = true) :
      e.isDirectoryAt inner = true :=
    view_eq_directory.mp (kept _ _ rfl (view_eq_directory.mpr there))
  obtain ⟨left, goes⟩ := leads.goes
  refine ⟨puts.sound, ⟨leads.named, ⟨left, ?_⟩, still leads.stands⟩, fun other apart names => ?_,
    fun _ => still, fun names target link => ?_⟩
  · rw [start, puts.current]
    exact goes.of_kept leads.stands kept
  · rw [puts.content?_eq, if_neg]
    intro same
    obtain ⟨rfl, -⟩ := List.cons.inj (List.append_cancel_left same)
    exact apart named
  · rw [seen] at link
    split at link
    · cases link
    · exact link

/-- Where other names may be used, too, less has to be kept. -/
theorem mono {more : String → Prop} (keeps : d.KeepsIn p place own e)
    (wider : ∀ name, own name → more name) : d.KeepsIn p place more e :=
  { keeps with content := fun name other => keeps.content name fun mine => other (wider name mine) }

/-- What is kept twice is kept. -/
theorem trans (first : d.KeepsIn p place own e) (second : e.KeepsIn p place own f) :
    d.KeepsIn p place own f where
  sound := second.sound
  leads := second.leads
  content name other names := (second.content name other names).trans (first.content name other names)
  stands names stood := second.stands names (first.stands names stood)
  linked names target seen := first.linked names target (second.linked names target seen)

end KeepsIn

end DialectBench.Disk
