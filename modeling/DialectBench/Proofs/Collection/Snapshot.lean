import DialectBench.Proofs.Collection.House
import DialectBench.Proofs.Suite.Modules

/-! What a collection holds once directories of the workspace have been copied into it. -/

namespace DialectBench

open Disk Action

namespace Disk

/-- The contents of the files in a workspace by the ways that begin with one of the copied ones. -/
def snapshot (base : Disk) (home : Location) (copied : List (List String)) (names : List String) :
    Option Bytes :=
  if ∃ sub ∈ copied, sub <+: names then base.content? (home ++ names) else none

/-- A workspace beside the directory of a collection: its path leads to it, no link is in it, and some
directories of it share nothing with the collection. -/
structure Beside (base : Disk) (place : Location) (root : Path) (home : Location)
    (subs : List (List String)) : Prop where
  /-- The path of the workspace leads to it. -/
  leads : base.Leads root home
  /-- No link is in it. -/
  linkless : base.Linkless home
  /-- The names on the ways to the directories are plain, and there are some. -/
  plain : ∀ sub ∈ subs, sub ≠ [] ∧ ∀ name ∈ sub, IsPlain name
  /-- The collection does not lie on the way to anything in the directories. -/
  apart : ∀ sub ∈ subs, ∀ names, ¬ place <+: home ++ (sub ++ names)

variable {base d : Disk} {directory root : Path} {place home : Location} {sub : List String}
  {subs copied : List (List String)} {kept : List String → Prop}
  {content : List String → Option Bytes}

/-- In the directory of a collection and in a workspace there are no links. -/
theorem Housed.linkless_home (housed : base.Housed place d) (linkless : base.Linkless home) :
    d.Linkless home := by
  intro names target seen
  by_cases inside : place <+: home ++ names
  · obtain ⟨others, same⟩ := inside
    rw [← same] at seen
    exact housed.linkless others target seen
  · rw [housed.outside _ inside] at seen
    exact linkless names target seen

namespace Beside

/-- What holds of all directories holds of some of them. -/
theorem mono {others : List (List String)} (beside : base.Beside place root home subs)
    (fewer : ∀ sub ∈ others, sub ∈ subs) : base.Beside place root home others :=
  ⟨beside.leads, beside.linkless, fun sub member => beside.plain sub (fewer sub member),
    fun sub member => beside.apart sub (fewer sub member)⟩

/-- In the directories of the workspace everything stays as it was. -/
theorem view_eq (beside : base.Beside place root home subs) (housed : base.Housed place d)
    (member : sub ∈ subs) (names : List String) :
    d.view (home ++ (sub ++ names)) = base.view (home ++ (sub ++ names)) :=
  housed.outside _ (beside.apart sub member names)

/-- The path of a directory of the workspace is one of a directory if it was before. -/
theorem isDirectory_eq (beside : base.Beside place root home subs)
    (founded : base.Founded directory place) (housed : base.Housed place d) (member : sub ∈ subs) :
    d.isDirectory (root.extend sub) = base.isDirectoryAt (home ++ sub) := by
  have leads := beside.leads.mono (housed.within founded) housed.current
  have same := beside.view_eq housed member []
  rw [List.append_nil] at same
  rw [leads.isDirectory_extend housed.sound (housed.linkless_home beside.linkless)
    (beside.plain sub member).2, Bool.eq_iff_iff, ← view_eq_directory, same, view_eq_directory]

/-- A path in a directory of the workspace leads to the entry by its names. -/
theorem entry_eq {names : List String} {goal : Location} {node : Node}
    (beside : base.Beside place root home subs) (founded : base.Founded directory place)
    (housed : base.Housed place d) (member : sub ∈ subs) (plain : ∀ name ∈ names, IsPlain name)
    (found : d.entry (root.extend (sub ++ names)) = .ok (goal, node)) :
    d.find? (home ++ (sub ++ names)) = some node := by
  have leads := beside.leads.mono (housed.within founded) housed.current
  obtain ⟨some, known⟩ := beside.plain sub member
  have whole : ∀ name ∈ sub ++ names, IsPlain name := by
    intro name inside
    rcases List.mem_append.mp inside with early | late
    · exact known name early
    · exact plain name late
  obtain ⟨same, -⟩ := leads.resolve_below (housed.linkless_home beside.linkless) whole
    (by simp [some]) (entry_eq_ok.mp found)
  exact (Spot.mk.inj same).2.symm

end Beside

end Disk

namespace Action

variable {base : Disk} {directory root : Path} {place home : Location} {sub : List String}
  {subs copied : List (List String)} {kept : List String → Prop}
  {content : List String → Option Bytes} {s : Session}

section Copied

variable (founded : base.Founded directory place) (beside : base.Beside place root home subs)

include founded in
/-- A file that was copied into the directory of a collection has the content of its source. -/
theorem filling_copyFile {source : Path} {step : Fault} {names : List String}
    (filling : base.Filling place kept content s.scene.disk) (plain : ∀ name ∈ names, IsPlain name)
    (inner : names ≠ [])
    (passed : (copyFile step source (directory.extend names)).outcome s = .ok ()) :
    ∃ spot bytes mode time, s.scene.disk.entry source = .ok (spot, .file bytes mode time) ∧
      base.Filling place kept (fun others => if others = names then some bytes else content others)
        ((copyFile step source (directory.extend names)).after s).scene.disk := by
  unfold copyFile at passed ⊢
  rw [outcome_bind_of_ok (outcome_look _ s), after_look] at passed
  rw [after_bind_of_ok (outcome_look _ s), after_look]
  -- A file that was copied was found, and its target was one that takes a file.
  obtain ⟨change, copied, -⟩ := outcome_bind_eq_ok.mp passed
  rw [after_bind_of_ok copied, after_allowed]
  obtain ⟨spot, bytes, mode, time, entry, rfl, takes⟩ :=
    filling.copying founded plain inner (of_allowed_ok copied)
  exact ⟨spot, bytes, mode, time, entry,
    filling.put (filling.sound.puts_copyFile takes bytes mode) inner⟩

include founded beside in
/-- When an entry of a directory of the workspace has been copied, it has the content of its source if
it is a file. -/
theorem filling_copyEntry (member : sub ∈ subs) {way : List String} {node : Node}
    (plain : ∀ name ∈ way, IsPlain name) (filling : base.Filling place kept content s.scene.disk)
    (passed : (copyEntry (root.extend sub) (directory.extend sub) way node).outcome s = .ok ()) :
    base.Filling place kept
      (fun names => if node.isDirectory = false ∧ names = sub ++ way then
        base.content? (home ++ names) else content names)
      ((copyEntry (root.extend sub) (directory.extend sub) way node).after s).scene.disk := by
  obtain ⟨nonempty, known⟩ := beside.plain sub member
  have whole : ∀ name ∈ sub ++ way, IsPlain name := by
    intro name inside
    rcases List.mem_append.mp inside with early | late
    · exact known name early
    · exact plain name late
  unfold copyEntry at passed ⊢
  rw [← Path.extend_append, ← Path.extend_append] at *
  cases kind : node.isDirectory with
  | true =>
    -- A directory holds no content of its own.
    rw [if_pos rfl]
    exact ((keeps_prepareDirectory founded whole).after filling).congr fun names _ => by simp
  | false =>
    rw [kind, if_neg (by simp)] at passed
    rw [if_neg (by simp)]
    obtain ⟨spot, bytes, mode, time, entry, copied⟩ :=
      filling_copyFile founded filling whole (by simp [nonempty]) passed
    -- The source is the file of the workspace, which has not been touched since.
    have found := beside.entry_eq founded filling.toHoused member plain entry
    have own : base.content? (home ++ (sub ++ way)) = some bytes := by
      rw [← content?_congr (beside.view_eq filling.toHoused member way), content?_eq_some]
      exact ⟨mode, time, found⟩
    refine copied.congr fun names _ => ?_
    by_cases same : names = sub ++ way
    · simp [same, own]
    · simp [same]

include founded beside in
/-- When entries of a directory of the workspace have been copied, the files among them have the
contents of their sources. -/
theorem filling_copyEntries (member : sub ∈ subs) {entries : List (List String × Node)}
    (plain : ∀ entry ∈ entries, ∀ name ∈ entry.1, IsPlain name)
    (filling : base.Filling place kept content s.scene.disk)
    (passed : (copyEntries (root.extend sub) (directory.extend sub) entries).outcome s = .ok ()) :
    base.Filling place kept
      (fun names => if ∃ entry ∈ entries, entry.2.isDirectory = false ∧ names = sub ++ entry.1 then
        base.content? (home ++ names) else content names)
      ((copyEntries (root.extend sub) (directory.extend sub) entries).after s).scene.disk := by
  -- The entries are copied in turn, and each of them adds its file to those that are held.
  induction entries generalizing s content with
  | nil => exact filling.congr fun names _ => by simp
  | cons entry rest ih =>
    obtain ⟨own, others⟩ := List.forall_mem_cons.mp plain
    unfold copyEntries at passed ⊢
    obtain ⟨value, first, passed⟩ := outcome_bind_eq_ok.mp passed
    rw [after_bind_of_ok first]
    refine (ih others (filling_copyEntry founded beside member own filling first) passed).congr
      fun names _ => ?_
    by_cases now : entry.2.isDirectory = false ∧ names = sub ++ entry.1
    · simp [now]
    · rw [if_neg now]
      exact if_congr (by rw [List.exists_mem_cons_iff, or_iff_right now]) rfl rfl

include founded beside in
/-- When a directory of the workspace has been copied, all files below it have the contents of their
sources. -/
theorem filling_copyTree (member : sub ∈ subs) (stands : base.isDirectoryAt (home ++ sub) = true)
    (filling : base.Filling place kept (base.snapshot home copied) s.scene.disk)
    (passed : (copyTree (root.extend sub) (directory.extend sub)).outcome s = .ok ()) :
    base.Filling place kept (base.snapshot home (copied ++ [sub]))
      ((copyTree (root.extend sub) (directory.extend sub)).after s).scene.disk := by
  obtain ⟨nonempty, known⟩ := beside.plain sub member
  unfold copyTree at passed ⊢
  obtain ⟨_, prepared, passed⟩ := outcome_bind_eq_ok.mp passed
  rw [after_bind_of_ok prepared]
  -- The directory is made first, and what is asked of the source leaves the tree as it is.
  have made := (keeps_prepareDirectory founded known).after filling
  obtain ⟨_, required, passed⟩ := outcome_bind_eq_ok.mp passed
  rw [after_bind_of_ok required]
  replace made := (keeps_requireEntry (root.extend sub)).after made
  rw [outcome_bind_of_ok (outcome_look _ _), after_look] at passed
  rw [after_bind_of_ok (outcome_look _ _), after_look]
  generalize ((requireEntry (root.extend sub)).after
    ((prepareDirectory (directory.extend sub)).after s)) = t at made passed ⊢
  refine (filling_copyEntries founded beside member
    (fun entry inside => isPlain_of_mem_entriesBelow made.sound inside) made passed).congr
    fun names _ => ?_
  -- What is below the directory was seen there, so what has not been copied is no file.
  have leads := (beside.leads.mono (made.within founded) made.current).extend made.sound
    (made.linkless_home beside.linkless) known (by
      have same := beside.view_eq made.toHoused member []
      rw [List.append_nil] at same
      rw [← view_eq_directory, same, view_eq_directory]
      exact stands)
  have listed : ∀ entry, entry ∈ entriesBelow t.scene.disk (root.extend sub) ↔
      entry.1 ≠ [] ∧ t.scene.disk.find? (home ++ sub ++ entry.1) = some entry.2 := by
    intro entry
    rw [entriesBelow, directory?_eq_some.mpr leads]
    exact mem_inOrder.trans made.sound.mem_below
  -- Either the way goes into the directory that has been copied, or it is as it was before.
  by_cases inside : sub <+: names
  · obtain ⟨way, rfl⟩ := inside
    have wanted : base.snapshot home (copied ++ [sub]) (sub ++ way) =
        base.content? (home ++ (sub ++ way)) :=
      if_pos ⟨sub, by simp, List.prefix_append _ _⟩
    rw [wanted]
    split
    · rfl
    next missed =>
      have none : base.content? (home ++ (sub ++ way)) = none := by
        by_cases last : way = []
        · exact content?_of_isDirectoryAt (by simpa [last] using stands)
        · rw [← content?_congr (beside.view_eq made.toHoused member way),
            Option.eq_none_iff_forall_ne_some]
          intro bytes there
          obtain ⟨mode, time, found⟩ := content?_eq_some.mp there
          rw [← List.append_assoc] at found
          exact missed ⟨(way, .file bytes mode time), (listed _).mpr ⟨last, found⟩, rfl, rfl⟩
      rw [none, Disk.snapshot]
      split
      · exact none
      · rfl
  · have outside : ¬ ∃ entry ∈ entriesBelow t.scene.disk (root.extend sub),
        entry.2.isDirectory = false ∧ names = sub ++ entry.1 := by
      rintro ⟨entry, -, -, rfl⟩
      exact inside (List.prefix_append _ _)
    rw [if_neg outside, Disk.snapshot, Disk.snapshot]
    exact if_congr (by simp [inside]) rfl rfl

end Copied

end Action

namespace Collection

/-- The directories in the build output of a module by their names. -/
def partsOf (way names : List String) : List (List String) :=
  names.map fun name => way ++ [Suite.outputName, name]

/-- The directories among some ways into a workspace. -/
def present (base : Disk) (home : Location) (subs : List (List String)) : List (List String) :=
  subs.filter fun sub => base.isDirectoryAt (home ++ sub)

/-- The directories of a workspace that are copied: those of its modules that are there. -/
def subtrees (base : Disk) (home : Location) (modules : List (List String)) : List (List String) :=
  modules.flatMap fun way => present base home (partsOf way copiedNames)

variable {base : Disk} {directory root : Path} {place home : Location}
  {subs copied : List (List String)} {kept : List String → Prop} {s : Session}
  {sources : List Path}

section Copied

variable (founded : base.Founded directory place) (beside : base.Beside place root home subs)

include founded beside

/-- When the parts of a module have been copied, the collection holds those that are there. -/
theorem filling_copyParts {way names : List String} (nonempty : way ≠ [])
    (plain : ∀ name ∈ way, IsPlain name) (known : ∀ sub ∈ partsOf way names, sub ∈ subs)
    (filling : base.Filling place kept (base.snapshot home copied) s.scene.disk)
    (passed : (copyParts root directory (Suite.pathOf way) names).outcome s = .ok sources) :
    sources = (present base home (partsOf way names)).map root.extend ∧
      base.Filling place kept
        (base.snapshot home (copied ++ present base home (partsOf way names)))
        ((copyParts root directory (Suite.pathOf way) names).after s).scene.disk := by
  -- Each part is copied if it is there, and the parts that are there are the sources.
  induction names generalizing s copied sources with
  | nil =>
    obtain rfl := Except.ok.inj passed
    exact ⟨rfl, filling.congr fun names _ => by simp [partsOf, present]⟩
  | cons name rest ih =>
    obtain ⟨own, others⟩ := List.forall_mem_cons.mp known
    have source := join_parts beside.leads.named nonempty plain name
    have target := join_parts founded.named nonempty plain name
    have there := beside.isDirectory_eq founded filling.toHoused own
    unfold copyParts at passed ⊢
    rw [source, target] at *
    rw [outcome_bind_of_ok (outcome_look _ s), after_look, there] at passed
    rw [after_bind_of_ok (outcome_look _ s), after_look, there]
    cases stands : base.isDirectoryAt (home ++ (way ++ [Suite.outputName, name])) with
    | true =>
      have more : present base home (partsOf way (name :: rest)) =
          [way ++ [Suite.outputName, name]] ++ present base home (partsOf way rest) :=
        List.filter_cons_of_pos stands
      rw [stands, if_pos rfl] at passed
      rw [if_pos rfl, more, ← List.append_assoc]
      obtain ⟨_, first, passed⟩ := outcome_bind_eq_ok.mp passed
      rw [after_bind_of_ok first]
      have held := filling_copyTree founded beside own stands filling first
      obtain ⟨taken, second, passed⟩ := outcome_bind_eq_ok.mp passed
      obtain ⟨rfl, whole⟩ := ih others held second
      rw [after_bind_of_ok second]
      exact ⟨(Except.ok.inj passed).symm, whole⟩
    | false =>
      have same : present base home (partsOf way (name :: rest)) =
          present base home (partsOf way rest) :=
        List.filter_cons_of_neg (by simpa using stands)
      rw [stands, if_neg (by simp)] at passed
      rw [if_neg (by simp), same]
      exact ih others filling passed

/-- When the directories of modules have been copied, the collection holds those that are there. -/
theorem filling_copyModules {modules : List (List String)}
    (known : ∀ way ∈ modules, (way ≠ [] ∧ ∀ name ∈ way, IsPlain name) ∧
      ∀ sub ∈ partsOf way copiedNames, sub ∈ subs)
    (filling : base.Filling place kept (base.snapshot home copied) s.scene.disk)
    (passed : (copyModules root directory modules).outcome s = .ok sources) :
    sources = (subtrees base home modules).map root.extend ∧
      base.Filling place kept (base.snapshot home (copied ++ subtrees base home modules))
        ((copyModules root directory modules).after s).scene.disk := by
  -- The modules are copied in turn, each with all of its parts.
  induction modules generalizing s copied sources with
  | nil =>
    obtain rfl := Except.ok.inj passed
    exact ⟨rfl, filling.congr fun names _ => by simp [subtrees]⟩
  | cons way rest ih =>
    obtain ⟨⟨⟨nonempty, plain⟩, own⟩, others⟩ := List.forall_mem_cons.mp known
    unfold copyModules at passed ⊢
    obtain ⟨early, first, passed⟩ := outcome_bind_eq_ok.mp passed
    rw [after_bind_of_ok first]
    obtain ⟨rfl, held⟩ := filling_copyParts founded beside nonempty plain own filling first
    obtain ⟨late, second, passed⟩ := outcome_bind_eq_ok.mp passed
    rw [after_bind_of_ok second]
    obtain ⟨rfl, whole⟩ := ih others held second
    refine ⟨?_, by simpa [subtrees] using whole⟩
    simpa [subtrees] using (Except.ok.inj passed).symm

end Copied

end Collection

end DialectBench
