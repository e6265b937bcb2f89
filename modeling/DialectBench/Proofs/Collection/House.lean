import DialectBench.Proofs.Disk.Clearing
import DialectBench.Proofs.Disk.Making
import DialectBench.Proofs.Session.Ledger
import DialectBench.Proofs.Session.Quiet

/-! While a collection is filled nothing but its directory changes. -/

namespace DialectBench

namespace Disk

/-- A tree differs from another one at and below a directory alone, where it has no links. -/
structure Housed (base : Disk) (place : Location) (d : Disk) : Prop where
  /-- Its entries fit together. -/
  sound : d.Sound
  /-- The current directory is the same. -/
  current : d.current = base.current
  /-- Everything outside the directory is the same. -/
  outside : ∀ other, ¬ place <+: other → d.view other = base.view other
  /-- The directory is there. -/
  stands : d.isDirectoryAt place = true
  /-- No link is in it. -/
  linkless : d.Linkless place

/-- A directory has just been made: its path leads to it, and nothing is in it. -/
structure Founded (base : Disk) (directory : Path) (place : Location) : Prop where
  /-- The entries of the tree fit together. -/
  sound : base.Sound
  /-- The directory is there. -/
  stands : base.isDirectoryAt place = true
  /-- Nothing is in it. -/
  empty : ∀ names, names ≠ [] → base.view (place ++ names) = none
  /-- Its path has a text. -/
  named : directory.IsNamed
  /-- Its path ends with its name. -/
  ends : ∃ outer name, place = outer ++ [name] ∧
    base.Ends linkLimit (base.start directory) (withoutSlashes directory).steps outer name

/-- What stays as it is while a directory is filled: everything outside, and the contents of the files
by some of the ways into it. -/
structure Filling (base : Disk) (place : Location) (kept : List String → Prop)
    (content : List String → Option Bytes) (d : Disk) : Prop extends Housed base place d where
  /-- The files by these ways have their contents. -/
  held : ∀ names, kept names → d.content? (place ++ names) = content names

variable {base d e : Disk} {directory source : Path} {place : Location} {names : List String}
  {kept : List String → Prop} {content : List String → Option Bytes}

/-- The path of a new directory leads to it. -/
theorem Founded.leads (founded : base.Founded directory place) : base.Leads directory place := by
  obtain ⟨outer, name, same, ends⟩ := founded.ends
  exact ends.leads founded.named (.refl base) rfl same founded.stands

/-- A new directory is not the root. -/
theorem Founded.ne_nil (founded : base.Founded directory place) : place ≠ [] := by
  obtain ⟨outer, name, rfl, -⟩ := founded.ends
  simp

/-- A tree with a new directory has changed in no other way since then. -/
theorem Founded.housed (founded : base.Founded directory place) : base.Housed place base where
  sound := founded.sound
  current := rfl
  outside _ _ := rfl
  stands := founded.stands
  linkless names target seen := by
    by_cases none : names = []
    · rw [none, List.append_nil, view_eq_directory.mpr founded.stands] at seen
      simp at seen
    · rw [founded.empty names none] at seen
      simp at seen

/-- No file is in a new directory. -/
theorem Founded.filling (founded : base.Founded directory place) :
    base.Filling place kept (fun _ => none) base := by
  refine ⟨founded.housed, fun names _ => ?_⟩
  by_cases last : names = []
  · exact content?_of_isDirectoryAt (by simpa [last] using founded.stands)
  · rw [content?_eq, founded.empty names last]
    rfl

/-- Everything that was there when the directory was made is still there. -/
theorem Housed.within (housed : base.Housed place d) (founded : base.Founded directory place) :
    base.Within d := by
  intro other node seen
  -- Only the directory itself can be seen at or below its place, and it still stands.
  by_cases inside : place <+: other
  · obtain ⟨names, rfl⟩ := inside
    by_cases none : names = []
    · subst none
      rw [List.append_nil] at seen ⊢
      rw [view_eq_directory.mpr housed.stands, ← seen, view_eq_directory.mpr founded.stands]
    · rw [founded.empty names none] at seen
      simp at seen
  · rw [housed.outside other inside, seen]

/-- The path of the directory leads to it all the time. -/
theorem Housed.leads (housed : base.Housed place d) (founded : base.Founded directory place) :
    d.Leads directory place :=
  founded.leads.mono (housed.within founded) housed.current

/-- New directories in the directory leave the rest as it is. -/
theorem Filling.makes {ways : List (List String)} (filling : base.Filling place kept content d)
    (makes : d.Makes (ways.map (place ++ ·)) e) : base.Filling place kept content e where
  sound := makes.sound filling.sound
  current := makes.current_eq.trans filling.current
  outside other outside := by
    rw [makes.view_eq, if_neg, filling.outside other outside]
    intro member
    obtain ⟨way, -, rfl⟩ := List.mem_map.mp member
    exact outside (List.prefix_append _ _)
  stands := makes.within.isDirectoryAt filling.stands
  linkless := makes.linkless filling.linkless
  held names inner := by rw [makes.content?_eq, filling.held names inner]

/-- Contents that agree on what is kept are kept alike. -/
theorem Filling.congr {other : List String → Option Bytes} (filling : base.Filling place kept content d)
    (same : ∀ names, kept names → content names = other names) : base.Filling place kept other d :=
  ⟨filling.toHoused, fun names inside => (filling.held names inside).trans (same names inside)⟩

/-- A file in the directory has its new content, and the rest is left as it is. -/
theorem Filling.put {bytes : Bytes} (filling : base.Filling place kept content d)
    (puts : d.Puts (place ++ names) bytes e) (inner : names ≠ []) :
    base.Filling place kept (fun others => if others = names then some bytes else content others)
      e := by
  have contents := puts.content?_eq
  obtain ⟨sound, current, mode, modified, seen⟩ := puts
  -- What is put lies below the place and is a file, so the outside, the place and the links stay.
  refine ⟨⟨sound, current.trans filling.current, fun other outside => ?_, ?_,
    fun others target link => ?_⟩, fun others inside => ?_⟩
  · rw [seen, if_neg, filling.outside other outside]
    rintro rfl
    exact outside (List.prefix_append _ _)
  · rw [← view_eq_directory, seen, if_neg (by simpa using inner)]
    exact view_eq_directory.mpr filling.stands
  · rw [seen] at link
    split at link
    · simp at link
    · exact filling.linkless others target link
  · rw [contents, filling.held others inside]
    simp

/-- A file in the directory that is not to be kept leaves the rest as it is. -/
theorem Filling.put_free {bytes : Bytes} (filling : base.Filling place kept content d)
    (puts : d.Puts (place ++ names) bytes e) (inner : names ≠ []) (free : ¬ kept names) :
    base.Filling place kept content e := by
  refine (filling.put puts inner).congr fun others inside => if_neg ?_
  rintro rfl
  exact free inside

/-- Without links in it a path into the directory is one of a file that can be written. -/
theorem Housed.takesFile {goal : Location} (housed : base.Housed place d)
    (founded : base.Founded directory place) (plain : ∀ name ∈ names, IsPlain name)
    (inner : names ≠ []) (writable : d.filePlace (directory.extend names) = .ok goal) :
    goal = place ++ names ∧ d.TakesFile (place ++ names) := by
  -- Links may only be on the way to the place, so the path resolves to the names as they stand.
  have leads := housed.leads founded
  unfold filePlace at writable
  split at writable
  next spot resolved =>
    -- Nothing is there yet, and the name fits into the directory that is.
    obtain rfl := Except.ok.inj writable
    obtain ⟨same, stands⟩ := leads.resolve_below housed.linkless plain inner resolved
    obtain ⟨rfl, vacant⟩ := Spot.mk.inj same
    refine ⟨rfl, Or.inl ?_⟩
    obtain ⟨front, last, rfl⟩ := (List.eq_nil_or_concat names).resolve_left inner
    rw [List.concat_eq_append, ← List.append_assoc] at stands vacant ⊢
    rw [List.dropLast_concat] at stands
    exact housed.sound.fits stands (plain last (by simp)) vacant.symm
  -- A file is there already, to be written over.
  next spot before mode time resolved =>
    obtain rfl := Except.ok.inj writable
    obtain ⟨same, -⟩ := leads.resolve_below housed.linkless plain inner resolved
    obtain ⟨rfl, found⟩ := Spot.mk.inj same
    exact ⟨rfl, Or.inr ⟨before, mode, time, found.symm⟩⟩
  · simp at writable
  · simp at writable

/-- What is copied into the directory is a file, and it goes where its path leads. -/
theorem Housed.copying {change : Change} (housed : base.Housed place d)
    (founded : base.Founded directory place) (plain : ∀ name ∈ names, IsPlain name)
    (inner : names ≠ []) (copied : d.copying source (directory.extend names) = .ok change) :
    ∃ spot bytes mode time, d.entry source = .ok (spot, .file bytes mode time) ∧
      change = .copyFile (place ++ names) bytes mode ∧ d.TakesFile (place ++ names) := by
  unfold Disk.copying at copied
  -- Only a file is copied; a directory and a missing source are refused.
  split at copied
  · simp at copied
  next spot bytes mode time entry =>
    cases writable : d.filePlace (directory.extend names) with
    | error refusal => simp [writable, Except.map] at copied
    | ok goal =>
      obtain ⟨rfl, takes⟩ := housed.takesFile founded plain inner writable
      rw [writable] at copied
      exact ⟨spot, bytes, mode, time, entry, (Except.ok.inj copied).symm, takes⟩
  · simp at copied

/-- Whether or not a link at its end is followed, the path of the directory leads to it. -/
theorem Housed.resolve_eq (housed : base.Housed place d) (founded : base.Founded directory place) :
    ∃ modified, d.resolve directory false = .ok ⟨place, some (.directory modified)⟩ := by
  -- The path ends with the name of the directory itself, behind which no step moves.
  obtain ⟨outer, name, same, ⟨front, left, split, goes⟩, stands⟩ := founded.ends
  obtain ⟨modified, there⟩ := find?_of_isDirectoryAt housed.stands
  obtain ⟨count, steps⟩ := directory.steps_withoutSlashes
  have within := housed.within founded
  have start : base.start directory = d.start directory := by
    rw [Disk.start, Disk.start, housed.current]
  obtain ⟨time, above⟩ := find?_of_isDirectoryAt (within.isDirectoryAt stands)
  rw [same] at there
  refine ⟨modified, ?_⟩
  -- The last step that moves goes down to the directory, and it is no link.
  rw [Disk.resolve_eq founded.named, steps, split, ← start, List.append_assoc,
    (goes.mono within).follow_append (Or.inl (by simp)), List.singleton_append,
    follow_down above there (by simp)]
  rw [follow_replicate (isDirectoryAt_of_find? there), there, same]

end Disk

open Disk

namespace Action

variable {base : Disk} {directory source : Path} {place : Location} {names : List String}
  {kept : List String → Prop} {content : List String → Option Bytes}

/-- Some of the new directories are made first. -/
theorem makes_first {d e : Disk} {places some : List Location} (makes : d.Makes places e)
    (first : some <+: places) : d.Makes some (d.applyAll (some.map .makeDirectory)) := by
  induction makes generalizing some with
  | done =>
    rw [List.prefix_nil.mp first]
    exact .done
  | next fits _ ih =>
    rcases List.prefix_cons_iff.mp first with rfl | ⟨others, rfl, rest⟩
    · exact .done
    · exact .next fits (ih rest)

/-- What is taken over was allowed. -/
theorem of_allowed_ok {α : Type} {step : Fault} {result : Except OsError α} {value : α}
    {s : Session} (outcome : (allowed step result).outcome s = .ok value) : result = .ok value := by
  cases result with
  | error refusal => simp [allowed] at outcome
  | ok given => simpa [allowed] using outcome

/-- Looking for an entry keeps everything. -/
theorem keeps_requireEntry {holds : Disk → Prop} (path : Path) :
    Keeps holds (requireEntry path) := by
  refine Keeps.bind (.look _) fun found => ?_
  cases found with
  | error refusal => exact .throw _
  | ok entry => exact .pure ()

/-- The ways to what is below a directory are plain. -/
theorem isPlain_of_mem_entriesBelow {d : Disk} (sound : d.Sound) {entry : List String × Node}
    (member : entry ∈ entriesBelow d source) : ∀ name ∈ entry.1, IsPlain name := by
  -- An entry is listed by its way from the source, and every place that is seen has a plain name.
  unfold entriesBelow at member
  split at member
  · simp at member
  next spot _ =>
    obtain ⟨-, found⟩ := sound.mem_below.mp (mem_inOrder.mp member)
    intro name inside
    have seen : d.view (spot ++ entry.1) ≠ none := by
      rw [ne_eq, view_eq_none]
      simp [found]
    exact sound.isPlain seen (List.mem_append_right _ inside)

/-- The changes that make a directory are made in turn, also when the system refuses more. -/
theorem after_prepareDirectory (path : Path) (s : Session) :
    (prepareDirectory path).after s =
      (performAll (s.scene.disk.makingAll path.ancestors).changes).after s := by
  unfold prepareDirectory
  rw [after_bind_of_ok (outcome_look _ s), after_look, after_bind_of_ok (outcome_performAll _ s)]
  split <;> rfl

/-- Making a directory succeeds unless the system refuses something. -/
theorem outcome_prepareDirectory (path : Path) (s : Session) :
    (prepareDirectory path).outcome s =
      match (s.scene.disk.makingAll path.ancestors).refusal with
      | some refusal => .error (.during (.createDirectory path) refusal)
      | none => .ok () := by
  unfold prepareDirectory
  rw [outcome_bind_of_ok (outcome_look _ s), after_look, outcome_bind_of_ok (outcome_performAll _ s)]
  cases (s.scene.disk.makingAll path.ancestors).refusal <;> rfl

/-- The changes that write a JSON file: an empty file, the value, and a line feed. -/
def written (goal : Location) (value : JsonValue) : List Change :=
  [.writeFile goal [], .extendFile goal (Text.encode value.text),
    .extendFile goal (Text.encode "\n")]

/-- While a JSON file is written it is the only difference, and in the end it holds the value and a
line feed. -/
theorem puts_written {d : Disk} {goal : Location} {value : JsonValue} {done : List Change}
    (sound : d.Sound) (takes : d.TakesFile goal) (part : done <+: written goal value) :
    done = [] ∨ ∃ bytes, d.Puts goal bytes (d.applyAll done) ∧
      (done = written goal value → bytes = Text.encode (value.text ++ "\n")) := by
  -- The three changes make the file, write the value and close the line.
  have opened := sound.puts_writeFile takes []
  have filled := opened.extendFile (Text.encode value.text)
  have closed := filled.extendFile (Text.encode "\n")
  -- The file is there from the first change on.
  rcases List.prefix_cons_iff.mp part with rfl | ⟨first, rfl, behind⟩
  · exact Or.inl rfl
  refine Or.inr ?_
  rcases List.prefix_cons_iff.mp behind with rfl | ⟨second, rfl, last⟩
  · exact ⟨_, opened, by simp [written]⟩
  rcases List.prefix_cons_iff.mp last with rfl | ⟨third, rfl, none⟩
  · exact ⟨_, filled, by simp [written]⟩
  · obtain rfl := List.prefix_nil.mp none
    exact ⟨_, closed, fun _ => by simp [Text.encode]⟩

section Filling

variable (founded : base.Founded directory place)

include founded

/-- Making a directory in the directory of a collection keeps what is outside and the files in it. -/
theorem keeps_prepareDirectory (plain : ∀ name ∈ names, IsPlain name) :
    Keeps (base.Filling place kept content) (prepareDirectory (directory.extend names)) := by
  -- The step looks where directories are missing, makes them in turn, and may fail behind that.
  refine .look_bind (fun making => ?_) fun s filling => ?_
  · refine (quiet_performAll _).bind fun _ => ?_
    split
    · exact .throw _
    · exact .pure ()
  · obtain ⟨ways, changes, makes, inner⟩ :=
      makes_below (filling.leads founded) filling.sound filling.linkless plain
    refine throughout_bind (quiet_performAll _) (fun _ => ?_) ?_ fun _ _ => ?_
    · split
      · exact .throw _
      · exact .pure ()
    -- Every first part of the changes is again the making of directories.
    · refine throughout_performAll fun done first => ?_
      rw [changes] at first
      obtain ⟨early, prior, rfl⟩ := List.prefix_map_iff.mp first
      have part : (s.scene.disk).Makes (early.map (place ++ ·))
          (s.scene.disk.applyAll ((early.map (place ++ ·)).map .makeDirectory)) :=
        makes_first makes (prior.map _)
      rw [List.map_map] at part
      exact filling.makes part
    · have behind := filling.makes makes
      rw [← disk_performAll] at behind
      split
      · exact throughout_of_still rfl behind
      · exact throughout_of_still rfl behind

/-- Copying a file into the directory of a collection keeps what is outside and the other files. -/
theorem keeps_copyFile (step : Fault) (plain : ∀ name ∈ names, IsPlain name) (inner : names ≠ [])
    (free : ¬ kept names) :
    Keeps (base.Filling place kept content) (copyFile step source (directory.extend names)) := by
  refine .look_bind (fun result => (quiet_allowed _ _).bind fun _ => .perform _) fun s filling => ?_
  refine throughout_bind (quiet_allowed _ _) (fun _ => .perform _)
    (throughout_of_still (by rw [after_allowed]) filling) fun change outcome => ?_
  rw [after_allowed]
  refine throughout_perform filling ?_
  obtain ⟨-, bytes, mode, -, -, rfl, takes⟩ :=
    filling.copying founded plain inner (of_allowed_ok outcome)
  exact filling.put_free (filling.sound.puts_copyFile takes bytes mode) inner free

/-- Copying entries into the directory of a collection keeps what is outside and all files that do not
lie deeper. -/
theorem keeps_copyEntries (flat : ∀ names, kept names → names.length ≤ 1)
    (deep : 2 ≤ names.length) (plain : ∀ name ∈ names, IsPlain name)
    {entries : List (List String × Node)}
    (below : ∀ entry ∈ entries, ∀ name ∈ entry.1, IsPlain name) :
    Keeps (base.Filling place kept content)
      (copyEntries source (directory.extend names) entries) := by
  -- The entries are copied in turn.
  induction entries with
  | nil => exact .pure ()
  | cons entry rest ih =>
    obtain ⟨way, node⟩ := entry
    obtain ⟨own, others⟩ := List.forall_mem_cons.mp below
    -- The way of an entry is added to the names, and both are plain.
    have whole : ∀ name ∈ names ++ way, IsPlain name := by
      intro name member
      rcases List.mem_append.mp member with early | late
      · exact plain name early
      · exact own name late
    refine Keeps.bind ?_ fun _ => ih others
    unfold copyEntry
    rw [← Path.extend_append]
    split
    · exact keeps_prepareDirectory founded whole
    · refine keeps_copyFile founded _ whole ?_ fun inner => ?_
      -- What is copied lies two names deep at least, so it is none of the files that are kept.
      · intro none
        simp [(List.append_eq_nil_iff.mp none).1] at deep
      · have short := flat _ inner
        rw [List.length_append] at short
        omega

/-- Copying a tree into the directory of a collection keeps what is outside and all files that do not
lie deeper. -/
theorem keeps_copyTree (flat : ∀ names, kept names → names.length ≤ 1) (deep : 2 ≤ names.length)
    (plain : ∀ name ∈ names, IsPlain name) :
    Keeps (base.Filling place kept content) (copyTree source (directory.extend names)) := by
  refine (keeps_prepareDirectory founded plain).bind fun _ =>
    (keeps_requireEntry source).bind fun _ =>
      .look_bind (fun _ => quiet_copyEntries _ _ _) fun s filling => ?_
  exact (keeps_copyEntries founded flat deep plain fun entry member =>
    isPlain_of_mem_entriesBelow filling.sound member).throughout s filling

/-- The directory that a file directly in it lies in is there. -/
theorem after_prepareParent {name : String} {s : Session}
    (housed : base.Housed place s.scene.disk) (plain : IsPlain name) :
    (prepareParent (directory / name)).after s = s := by
  have leads := housed.leads founded
  unfold prepareParent
  split
  next outer parent =>
    -- All directories on the way to the parent are there, so none of them is made.
    suffices none : (s.scene.disk.makingAll outer.ancestors).changes = [] by
      rw [after_prepareDirectory, none]
      rfl
    obtain ⟨above, same⟩ := outer.ancestors_eq_cons
    rcases Path.isAbove_parent (Path.isNamed_div founded.named plain) parent with
      empty | ⟨step, near⟩
    · rw [same, makingAll, if_pos (String.isEmpty_iff.mpr empty)]
    · -- The parent makes the moves of the directory.
      have moves : directory.moves = outer.moves := by
        have both : (directory.extend [name]).moves = directory.moves ++ [name].map .down :=
          Path.moves_extend founded.named (by simpa using plain)
        exact (List.append_inj' (both.symm.trans near.moves) rfl).1
      have start : outer.isAbsolute = directory.isAbsolute :=
        near.start.trans (Path.isAbsolute_div founded.named plain)
      have inner : s.scene.disk.Leads outer place := leads.congr near.named start moves.symm
      have chain := Path.isChain_ancestors near.named
      rw [same] at chain ⊢
      exact makes_nil_of_isDirectory chain housed.sound (isDirectory_iff.mpr ⟨place, inner⟩)
  · rfl

/-- A JSON file directly in the directory of a collection is written, or nothing is changed. -/
theorem writeJson_cases {name : String} {value : JsonValue} {s : Session}
    (housed : base.Housed place s.scene.disk) (plain : IsPlain name) :
    (∃ failure, (writeJson (directory / name) value).outcome s = .error failure ∧
        (writeJson (directory / name) value).ledger s = []) ∨
      (writeJson (directory / name) value).outcome s = .ok () ∧
        (writeJson (directory / name) value).ledger s = written (place ++ [name]) value ∧
        s.scene.disk.TakesFile (place ++ [name]) := by
  have still := after_prepareParent founded housed plain
  -- The file is written behind its parent, which is there, if its place can be written.
  cases parent : (prepareParent (directory / name)).outcome s with
  | error failure =>
    refine Or.inl ⟨failure, outcome_bind_of_error parent _, ledger_eq_of ?_⟩
    unfold writeJson
    rw [after_bind_of_error parent, still]
    rfl
  | ok value =>
    have single : ∀ other ∈ [name], IsPlain other := by simpa using plain
    cases writable : s.scene.disk.filePlace (directory / name) with
    | error refusal =>
      refine Or.inl ⟨.during (.createJson (directory / name)) refusal, ?_, ledger_eq_of ?_⟩
      · unfold writeJson
        rw [outcome_bind_of_ok parent, still, outcome_bind_of_ok (outcome_look _ s), after_look,
          writable]
        rfl
      · unfold writeJson
        rw [after_bind_of_ok parent, still, after_bind_of_ok (outcome_look _ s), after_look,
          writable]
        rfl
    | ok goal =>
      obtain ⟨rfl, takes⟩ := housed.takesFile founded single (by simp) writable
      refine Or.inr ⟨?_, ledger_eq_of ?_, takes⟩
      · unfold writeJson
        rw [outcome_bind_of_ok parent, still, outcome_bind_of_ok (outcome_look _ s), after_look,
          writable]
        rfl
      · unfold writeJson
        rw [after_bind_of_ok parent, still, after_bind_of_ok (outcome_look _ s), after_look,
          writable]
        rfl

/-- Writing a JSON file into the directory of a collection keeps what is outside and the other
files. -/
theorem keeps_writeJson {name : String} (value : JsonValue) (plain : IsPlain name)
    (free : ¬ kept [name]) :
    Keeps (base.Filling place kept content) (writeJson (directory / name) value) := by
  refine ⟨quiet_writeJson _ _, fun s filling done part => ?_⟩
  -- Either nothing is written, or the changes are those that put the file.
  rcases writeJson_cases founded filling.toHoused plain with
    ⟨failure, -, none⟩ | ⟨-, changes, takes⟩
  · rw [none, List.prefix_nil] at part
    rw [part]
    exact filling
  · rw [changes] at part
    rcases puts_written filling.sound takes part with rfl | ⟨bytes, puts, -⟩
    · exact filling
    · exact filling.put_free puts (by simp) free

end Filling

end Action

namespace Collection

open Action

variable {base : Disk} {directory root : Path} {place : Location} {names : List String}
  {kept : List String → Prop} {content : List String → Option Bytes}

section Filling

variable (founded : base.Founded directory place)

/-- The names of the directories that are copied are plain. -/
theorem isPlain_copiedNames : ∀ name ∈ copiedNames, IsPlain name := by
  decide

/-- The name of the copy of a log is plain. -/
theorem isPlain_logName (source : Path) : IsPlain (source.fileName?.getD "run.log") := by
  cases ends : source.fileName? with
  | none => decide
  | some name => exact Path.isPlain_fileName ends

/-- The copy of a part of a module lies in the directory of the collection at the same way. -/
theorem join_parts (named : directory.IsNamed) {way : List String} (some : way ≠ [])
    (plain : ∀ name ∈ way, IsPlain name) (name : String) :
    directory.join (Suite.pathOf way) / Suite.outputName / name =
      directory.extend (way ++ [Suite.outputName, name]) := by
  rw [Path.extend_append, ← Path.join_intercalate named plain some]
  rfl

include founded

/-- Copying the parts of a module keeps what is outside the collection, and the files directly in
it. -/
theorem keeps_copyParts (flat : ∀ names, kept names → names.length ≤ 1) {way : List String}
    (some : way ≠ []) (plain : ∀ name ∈ way, IsPlain name)
    (known : ∀ name ∈ names, IsPlain name) :
    Keeps (base.Filling place kept content)
      (copyParts root directory (Suite.pathOf way) names) := by
  -- The parts are copied in turn, each of them that is there as a tree of its own.
  induction names with
  | nil => exact .pure []
  | cons name rest ih =>
    obtain ⟨own, others⟩ := List.forall_mem_cons.mp known
    refine Keeps.bind (.look _) fun present => ?_
    split
    · refine Keeps.bind ?_ fun _ => (ih others).bind fun _ => .pure _
      -- A part lies below the way of its module and its kind, which are plain, so more than one name
      -- deep.
      rw [join_parts founded.named some plain]
      refine keeps_copyTree founded flat (by simp) fun other member => ?_
      rcases List.mem_append.mp member with early | late
      · exact plain other early
      · rcases List.mem_cons.mp late with rfl | last
        · decide
        · rw [List.mem_singleton.mp last]
          exact own
    · exact ih others

/-- Copying the directories of modules keeps what is outside the collection, and the files directly in
it. -/
theorem keeps_copyModules (flat : ∀ names, kept names → names.length ≤ 1)
    {modules : List (List String)} (known : ∀ way ∈ modules, way ≠ [] ∧ ∀ name ∈ way, IsPlain name) :
    Keeps (base.Filling place kept content) (copyModules root directory modules) := by
  induction modules with
  | nil => exact .pure []
  | cons way rest ih =>
    obtain ⟨⟨some, plain⟩, others⟩ := List.forall_mem_cons.mp known
    exact (keeps_copyParts founded flat some plain isPlain_copiedNames).bind fun _ =>
      (ih others).bind fun _ => .pure _

/-- Making a directory directly in that of a collection keeps what is outside and the files in it. -/
theorem keeps_prepareDirectory_div {name : String} (plain : IsPlain name) :
    Keeps (base.Filling place kept content) (prepareDirectory (directory / name)) := by
  have single : ∀ other ∈ [name], IsPlain other := by simpa using plain
  have same : directory / name = directory.extend [name] := rfl
  rw [same]
  exact keeps_prepareDirectory founded single

/-- Copying a file into a directory in that of a collection keeps what is outside, and the files
directly in it. -/
theorem keeps_copyFile_div {source : Path} {outer name : String}
    (flat : ∀ names, kept names → names.length ≤ 1) (step : Fault) (first : IsPlain outer)
    (last : IsPlain name) :
    Keeps (base.Filling place kept content) (copyFile step source (directory / outer / name)) := by
  have plain : ∀ other ∈ [outer, name], IsPlain other := by simpa using ⟨first, last⟩
  have same : directory / outer / name = directory.extend [outer, name] := rfl
  rw [same]
  exact keeps_copyFile founded step plain (by simp) fun inner => by simpa using flat _ inner

/-- Adding the log keeps what is outside the collection, and the files directly in it. -/
theorem keeps_addLogIf (flat : ∀ names, kept names → names.length ≤ 1) (log : Option Path)
    (logDirectory : Option Path) :
    Keeps (base.Filling place kept content) (addLogIf log logDirectory directory) := by
  cases log with
  | none => exact .pure none
  | some log =>
    refine Keeps.bind (.look _) fun source => Keeps.bind (.look _) fun present => ?_
    split
    · exact (keeps_prepareDirectory_div founded (by decide)).bind fun _ =>
        (keeps_copyFile_div founded flat _ (by decide) (isPlain_logName source)).bind fun _ => .pure _
    · exact (Keeps.tell _).bind fun _ => .pure none

end Filling

end Collection

end DialectBench
