import DialectBench.Proofs.Collection.Progress
import DialectBench.Proofs.Collection.Record

/-! A collection that succeeds is an exact snapshot of the results in its workspace. -/

namespace DialectBench

open Disk Action

namespace Collection

/-- The files of a collection with their contents. -/
inductive Holds (request : CollectionOrder) (s : Session) (home : Location) :
    List String → Bytes → Prop where
  /-- The manifest. -/
  | manifest : Holds request s home [Manifest.fileName]
      (Text.encode ((manifestFor request (founding request s)).toJson.text ++ "\n"))
  /-- The log, as it is when the directories of the modules have been copied. -/
  | log {name : String} {bytes : Bytes}
      (found : attachment? request (gathering request (founding request s)).scene.disk =
        some (name, bytes)) : Holds request s home ["logs", name] bytes
  /-- A file of the workspace in a directory of a module. -/
  | result {names : List String} {bytes : Bytes} (taken : Taken request s names)
      (there : s.scene.disk.content? (home ++ names) = some bytes) : Holds request s home names bytes

/-- A collection is an exact snapshot of its workspace, and nothing else has changed. -/
structure Exact (request : CollectionOrder) (s : Session) (home place : Location)
    (made : List Location) (e : Disk) : Prop where
  /-- Its directory was made behind some on the way to it. -/
  makes : s.scene.disk.Makes (made ++ [place]) (founding request s).scene.disk
  /-- A path above that of the collection led to each of those. -/
  led : ∀ other ∈ made, ∃ outer rest, rest ≠ [] ∧ outer.Precedes (directoryOf request) rest ∧
    (founding request s).scene.disk.Leads outer other
  /-- Its directory was empty, and the path of the collection led to it. -/
  founded : (founding request s).scene.disk.Founded (directoryOf request) place
  /-- All that was there then is still there unless something was to be removed. -/
  within : request.removeSource = false → (founding request s).scene.disk.Within e
  /-- The current directory is the same. -/
  current : e.current = s.scene.disk.current
  /-- The entries still fit together. -/
  sound : e.Sound
  /-- There are no links in it. -/
  linkless : e.Linkless place
  /-- Its files are the manifest, the log and the files of the modules. -/
  files : ∀ names bytes,
    e.content? (place ++ names) = some bytes ↔ Holds request s home names bytes
  /-- No file of a module is in the place of the manifest or of a log. -/
  apart : ∀ names, Taken request s names →
    names ≠ [Manifest.fileName] ∧ ∀ name, names ≠ ["logs", name]
  /-- A result is in it if its first build output with test results is that of a module. -/
  results : ∀ way bytes index, Suite.isXmlWay way = true →
    Suite.markerIndex? way = some (index + 1) → s.scene.disk.content? (home ++ way) = some bytes →
    e.content? (place ++ way) = some bytes
  /-- Outside of it there are new directories on the way to it, and nothing else has changed unless
  what was copied was to be removed. -/
  outside : ∀ other, ¬ place <+: other →
    e.view other = (if other ∈ made then some (.directory 0) else s.scene.disk.view other) ∨
      (request.removeSource = true ∧ InAny home (takenBy request s home) other ∧
        e.view other = none)
  /-- What was to be removed is gone if the path of the workspace still leads there. -/
  cleared : request.removeSource = true → e.Leads request.root home →
    ∀ other, InAny home (takenBy request s home) other → e.view other = none

/-- What a manifest tells of a collection. -/
structure Describes (request : CollectionOrder) (s : Session) (manifest : Manifest) : Prop where
  /-- Its timestamp is that of the request. -/
  timestamp : manifest.timestamp = request.timestamp
  /-- Its backend is that of the request. -/
  backend : manifest.backend = request.backend
  /-- Its log is the copy of the log, if one was found. -/
  logCopy : manifest.logCopy =
    (attachment? request (gathering request (founding request s)).scene.disk).map fun log =>
      (directoryOf request / "logs" / log.1).text
  /-- Its modules are those of the workspace. -/
  modules : manifest.modules =
    (Suite.modules (founding request s).scene.disk request.root).map fun names =>
      (Suite.pathOf names).text
  /-- They are in ascending order. -/
  ascending : (Suite.modules (founding request s).scene.disk request.root).Pairwise fun a b =>
    orderNames a b = .lt

variable {base e : Disk} {directory root : Path} {place home : Location} {request : CollectionOrder}
  {s : Session} {sources : List Path} {made : List Location} {names : List String} {bytes : Bytes}

/-- A workspace that has modules is where its path leads. -/
theorem leads_of_modules (some : Suite.modules base root ≠ []) : ∃ home, base.Leads root home := by
  cases there : base.directory? root with
  | some home => exact ⟨home, directory?_eq_some.mp there⟩
  | none => exact absurd (by simp [Suite.modules, fileWays, waysBelow, there]) some

/-- In the build output of a module there is a result. -/
theorem exists_result (sound : base.Sound) (leads : base.Leads root home)
    (member : names ∈ Suite.modules base root) :
    ∃ rest, base.view (home ++ (names ++ Suite.outputName :: Suite.resultsName :: rest)) ≠ none := by
  obtain ⟨way, listed, owned⟩ := Suite.mem_modules.mp member
  obtain ⟨-, -, rest, -, rfl⟩ := Suite.owner?_eq_some owned
  obtain ⟨-, _, _, _, found⟩ := (mem_fileWays sound leads).mp listed
  exact ⟨rest, by rw [ne_eq, view_eq_none, found]; simp⟩

/-- A new directory that is in none of the directories that are copied shares nothing with the
workspace. -/
theorem beside_of_apart (founded : base.Founded directory place) (leads : base.Leads root home)
    (linkless : base.Linkless home)
    (apart : ∀ sub ∈ subtrees base home (Suite.modules base root), ¬ home ++ sub <+: place) :
    base.Beside place root home (wantedIn base root) := by
  -- What is wanted from a module is its build output with one of the names that are copied.
  have shape : ∀ sub ∈ wantedIn base root, ∃ way ∈ Suite.modules base root, ∃ name ∈ copiedNames,
      sub = way ++ [Suite.outputName, name] := by
    intro sub member
    obtain ⟨way, listed, part⟩ := List.mem_flatMap.mp member
    obtain ⟨name, copied, rfl⟩ := List.mem_map.mp part
    exact ⟨way, listed, name, copied, rfl⟩
  refine ⟨leads, linkless, fun sub member => ?_, fun sub member names inside => ?_⟩
  -- The names of a module and those of its output are plain.
  · obtain ⟨way, listed, name, copied, rfl⟩ := shape sub member
    have parts : ∀ name ∈ copiedNames, ∀ part ∈ [Suite.outputName, name], IsPlain part := by
      decide
    refine ⟨by simp, fun part inside => ?_⟩
    rcases List.mem_append.mp inside with early | late
    · exact (Suite.modules_known founded.sound root way listed).2 part early
    · exact parts name copied part late
  · obtain ⟨way, listed, name, copied, rfl⟩ := shape sub member
    -- A directory of a module that holds the new one is there, so it is among those that are copied.
    have below (rest : List String) (split : place = home ++ (way ++ [Suite.outputName, name]) ++ rest) :
        False := by
      have stands : base.isDirectoryAt (home ++ (way ++ [Suite.outputName, name])) = true := by
        by_cases last : rest = []
        · rw [last, List.append_nil] at split
          exact split ▸ founded.stands
        · refine founded.sound.isDirectoryAt_of_append last ?_
          rw [← split, view_eq_directory.mpr founded.stands]
          simp
      exact apart _ (List.mem_flatMap.mpr ⟨way, listed, List.mem_filter.mpr
        ⟨List.mem_map.mpr ⟨name, copied, rfl⟩, stands⟩⟩) ⟨rest, split.symm⟩
    rw [← List.append_assoc] at inside
    -- The new directory is inside one that is copied, or such a one would be inside the new one.
    rcases List.prefix_or_prefix_of_prefix inside (List.prefix_append _ names) with
      ⟨rest, split⟩ | ⟨rest, split⟩
    · by_cases last : rest = []
      · exact below [] (by simpa [last] using split)
      · -- A directory above one of a module holds a result, but the new one is empty.
        obtain ⟨others, result⟩ := exists_result founded.sound leads listed
        obtain ⟨front, final, rfl⟩ := (List.eq_nil_or_concat rest).resolve_left last
        have outer : place ++ front = home ++ (way ++ [Suite.outputName]) := by
          have whole : place ++ front ++ [final] = home ++ (way ++ [Suite.outputName]) ++ [name] := by
            simpa using split
          exact (List.append_inj' whole rfl).1
        have same : home ++ (way ++ Suite.outputName :: Suite.resultsName :: others) =
            place ++ (front ++ Suite.resultsName :: others) := by
          have more : home ++ (way ++ Suite.outputName :: Suite.resultsName :: others) =
              home ++ (way ++ [Suite.outputName]) ++ Suite.resultsName :: others := by simp
          rw [more, ← outer, List.append_assoc]
        rw [same] at result
        exact result (founded.empty _ (by simp))
    · exact below rest split.symm

/-- A file that was copied from the workspace is one in a directory of a module. -/
theorem holds_of_snapshot
    (same : ∀ other, (founding request s).scene.disk.content? other = s.scene.disk.content? other)
    (held : (founding request s).scene.disk.snapshot home (takenBy request s home) names =
      some bytes) : Holds request s home names bytes := by
  -- The snapshot of a directory is restricted to what is copied, and files were the same before.
  unfold Disk.snapshot at held
  split at held
  next copied =>
    obtain ⟨sub, member, rest, rfl⟩ := copied
    have inside : InAny home (takenBy request s home) (home ++ (sub ++ rest)) :=
      ⟨sub, member, rest, by simp⟩
    obtain ⟨others, split, taken⟩ := taken_of_inAny inside (by simp [held])
    obtain rfl := List.append_cancel_left split
    exact .result taken ((same _).symm.trans held)
  next => simp at held

/-- What a collection holds that was filled are the manifest, the log and the files of the modules. -/
theorem holds_iff (sound : (founding request s).scene.disk.Sound)
    (same : ∀ other, (founding request s).scene.disk.content? other = s.scene.disk.content? other) :
    (if names = [Manifest.fileName] then
        some (Text.encode ((manifestFor request (founding request s)).toJson.text ++ "\n"))
      else contents request (founding request s) home names) = some bytes ↔
        Holds request s home names bytes := by
  constructor
  -- The three kinds of files are told apart by their names, in the order in which they are looked
  -- for.
  · intro held
    split at held
    next manifest =>
      obtain rfl := Option.some.inj held
      exact manifest ▸ .manifest
    next other =>
      unfold contents attached at held
      split at held
      next name content found =>
        split at held
        next log =>
          obtain rfl := Option.some.inj held
          exact log ▸ .log found
        next => exact holds_of_snapshot same held
      next => exact holds_of_snapshot same held
  · intro holds
    cases holds with
    | manifest => exact if_pos rfl
    | log found =>
      rw [if_neg (by simp)]
      unfold contents attached
      rw [found]
      exact if_pos rfl
    | result taken there =>
      have long := taken.length_lt
      rw [if_neg (by rintro rfl; simp at long), contents_of_taken taken sound, same, there]

/-- A result whose first build output with test results is that of a module is one to be copied. -/
theorem taken_of_marked {way : List String} {index : Nat}
    (sound : (founding request s).scene.disk.Sound)
    (leads : (founding request s).scene.disk.Leads request.root home)
    (xml : Suite.isXmlWay way = true) (marked : Suite.markerIndex? way = some (index + 1))
    (there : (founding request s).scene.disk.content? (home ++ way) = some bytes) :
    Taken request s way := by
  obtain ⟨mode, time, found⟩ := content?_eq_some.mp there
  -- The marker cuts the way into that of a module and what lies in its output.
  have owned : Suite.owner? way = some (way.take (index + 1)) := by
    rw [Suite.owner?, if_pos xml, marked]
  obtain ⟨-, -, rest, inner, split⟩ := Suite.owner?_eq_some owned
  have some : way ≠ [] := by
    rw [split]
    simp
  exact ⟨way.take (index + 1), Suite.mem_modules.mpr ⟨way, (mem_fileWays sound leads).mpr
    ⟨some, bytes, mode, time, found⟩, owned⟩, Suite.resultsName, by decide, rest, inner, split⟩

section Created

variable (paves : (prepareParent (directoryOf request)).Paves (directoryOf request) s made)
  (established : Established (directoryOf request) s made place)
  (beside : (founding request s).scene.disk.Beside place request.root home
    (wantedIn (founding request s).scene.disk request.root))
  (filled : (fill request (directoryOf request)).outcome (founding request s) = .ok sources)

include paves established beside filled

/-- A tree in which at most what was copied is missing since a collection was filled is an exact snapshot. -/
theorem exact_of_thins
    (thins : ((fill request (directoryOf request)).after (founding request s)).scene.disk.Thins
      (fun other => request.removeSource = true ∧ InAny home (takenBy request s home) other) e)
    (sound : e.Sound)
    (cleared : request.removeSource = true → e.Leads request.root home →
      ∀ other, InAny home (takenBy request s home) other → e.view other = none) :
    Exact request s home place made e := by
  have founded : (founding request s).scene.disk.Founded (directoryOf request) place :=
    established.founded
  have makes : s.scene.disk.Makes (made ++ [place]) (founding request s).scene.disk :=
    established.makes paves
  obtain ⟨-, filling⟩ := filling_of_ok founded beside filled
  have taken := beside.mono (subtrees_subset (founding request s).scene.disk home)
  -- Only what was copied can be missing, and none of that lies in the collection.
  have files (names : List String) (bytes : Bytes) :
      e.content? (place ++ names) = some bytes ↔ Holds request s home names bytes := by
    rw [thins.content?_of_not fun lost => not_inAny taken names lost.2, filling.held names trivial]
    exact holds_iff founded.sound makes.content?_eq
  refine ⟨makes, fun other member => ?_, founded, fun keeps => ?_,
    (thins.current.trans filling.current).trans makes.current_eq, sound, fun names target seen =>
      filling.linkless names target (thins.within _ _ seen), files, fun names taken => ?_,
    fun way bytes index xml marked there => ?_, fun other apart => ?_, cleared⟩
  · have own := established.makes_place paves
    obtain ⟨outer, rest, some, precedes, leads⟩ := paves.led other member
    exact ⟨outer, rest, some, precedes, leads.mono own.within own.current_eq⟩
  -- Without a removal nothing is missing, and the collection has only added to what was there.
  · intro other node seen
    rcases thins.seen other with same | ⟨⟨removes, -⟩, -⟩
    · rw [same, filling.within founded other node seen]
    · simp [keeps] at removes
  · have long := taken.length_lt
    exact ⟨by rintro rfl; simp at long, by rintro name rfl; simp at long⟩
  -- The result has the same content in the tree in which the directory has just been made.
  · have found : (founding request s).scene.disk.content? (home ++ way) = some bytes :=
      (makes.content?_eq _).trans there
    exact (files way bytes).mpr
      (.result (taken_of_marked founded.sound beside.leads xml marked found) there)
  -- Outside of the collection the tree differs by the directories above and by what was removed.
  · have before : ((fill request (directoryOf request)).after (founding request s)).scene.disk.view
        other = if other ∈ made then some (.directory 0) else s.scene.disk.view other := by
      have own : other ≠ place := by
        rintro rfl
        exact apart (List.prefix_refl _)
      rw [filling.outside other apart, makes.view_eq]
      simp [own]
    rw [← before]
    exact (thins.seen other).imp_right fun ⟨⟨removes, inside⟩, gone⟩ => ⟨removes, inside, gone⟩

/-- A collection that was filled is an exact snapshot in the end. -/
theorem exact_of_filled (created : (makeDirectory (directoryOf request)).outcome s = .ok ()) :
    Exact request s home place made ((collect request).after s).scene.disk := by
  have founded : (founding request s).scene.disk.Founded (directoryOf request) place :=
    established.founded
  obtain ⟨rfl, filling⟩ := filling_of_ok founded beside filled
  rw [(collect_of_filled created filled).2]
  split
  -- The sources are removed behind the filling, so they were still there in front of it.
  next removes =>
    have taken := beside.mono (subtrees_subset (founding request s).scene.disk home)
    have leads := beside.leads.mono (filling.within founded) filling.current
    have emptied := leads.emptied filling.sound (filling.linkless_home beside.linkless)
    obtain ⟨behind, left⟩ := thins_clearSources emptied taken.plain
    refine exact_of_thins paves established beside filled
      ((behind.after (quiet_clearSources _)).imp fun other inside => ⟨removes, inside⟩) left.sound
      fun _ still other ⟨sub, member, rest, same⟩ => ?_
    -- Every directory that was copied stands until it is removed.
    have stands : ∀ sub ∈ takenBy request s home,
        ((fill request (directoryOf request)).after (founding request s)).scene.disk.isDirectoryAt
          (home ++ sub) = true := by
      intro sub member
      obtain ⟨way, -, part⟩ := List.mem_flatMap.mp member
      exact (filling.within founded).isDirectoryAt (List.mem_filter.mp part).2
    rw [← same]
    exact gone_clearSources emptied taken.plain (fun sub member => Or.inl (stands sub member)) still
      sub member rest
  -- Nothing was to be removed, so the tree is the one that was filled.
  next keeps =>
    exact exact_of_thins paves established beside filled (.refl _) filling.sound fun removes =>
      absurd removes keeps

end Created

/-- Unless something was to be removed the path of an exact snapshot leads to it. -/
theorem Exact.leads (exact : Exact request s home place made e)
    (keeps : request.removeSource = false) : e.Leads (directoryOf request) place :=
  exact.founded.leads.mono (exact.within keeps) (exact.current.trans exact.makes.current_eq.symm)

/-- Unless something was to be removed all files outside an exact snapshot are as they were. -/
theorem Exact.content?_eq (exact : Exact request s home place made e)
    (keeps : request.removeSource = false) {other : Location} (apart : ¬ place <+: other) :
    e.content? other = s.scene.disk.content? other := by
  rcases exact.outside other apart with same | ⟨removes, -⟩
  · rw [Disk.content?_eq, same]
    split
    next new =>
      rw [Disk.content?_eq, exact.makes.vacant (List.mem_append_left _ new)]
      rfl
    next => rw [← Disk.content?_eq]
  · simp [keeps] at removes

/-- The manifest of an exact snapshot reads back as what describes it. -/
theorem Exact.load {t : Session} (exact : Exact request s home place made t.scene.disk)
    (leads : t.scene.disk.Leads (directoryOf request) place) :
    (Manifest.load (directoryOf request / Manifest.fileName)).outcome t =
      .ok (some (manifestFor request (founding request s))) := by
  have held := (exact.files [Manifest.fileName] _).mpr .manifest
  exact (Manifest.load_text (leads.read_file exact.sound held)).1

/-- The manifest of a collection describes it. -/
theorem describes_manifestFor (request : CollectionOrder) (s : Session) :
    Describes request s (manifestFor request (founding request s)) where
  timestamp := rfl
  backend := rfl
  logCopy := Option.map_map _ _ _
  modules := rfl
  ascending := Suite.modules_ascending _ _

/-- A collection that succeeds, from a workspace without links and into no directory that it copies, is
an exact snapshot; its manifest reads back and describes it. -/
theorem collection_exact (sound : s.scene.disk.Sound)
    (passed : (collect request).outcome s = .ok directory)
    (linkless : ∀ home, (founding request s).scene.disk.Leads request.root home →
      s.scene.disk.Linkless home)
    (apart : ∀ home place, (founding request s).scene.disk.Leads request.root home →
      (founding request s).scene.disk.Leads (directoryOf request) place →
      ∀ sub ∈ takenBy request s home, ¬ home ++ sub <+: place) :
    directory = directoryOf request ∧ ∃ home place made,
      (founding request s).scene.disk.Leads request.root home ∧
      Exact request s home place made ((collect request).after s).scene.disk ∧
      ∃ manifest, Describes request s manifest ∧
        (((collect request).after s).scene.disk.Leads (directoryOf request) place →
          (Manifest.load (directory / Manifest.fileName)).outcome ((collect request).after s) =
            .ok (some manifest)) := by
  -- A success tells that the directory was made, that there were modules and that all was copied.
  obtain ⟨rfl, made, place, sources, paves, created, established, filled⟩ :=
    collect_of_ok sound passed
  have founded : (founding request s).scene.disk.Founded (directoryOf request) place :=
    established.founded
  have some : Suite.modules (founding request s).scene.disk request.root ≠ [] := by
    intro none
    obtain ⟨failure, failed⟩ := collect_fails none
    simp [failed] at passed
  obtain ⟨home, leads⟩ := leads_of_modules some
  have beside := beside_of_apart founded leads
    ((established.makes paves).linkless (linkless home leads)) (apart home place leads founded.leads)
  have exact := exact_of_filled paves established beside filled created
  exact ⟨rfl, home, place, made, leads, exact, _, describes_manifestFor request s, exact.load⟩

end Collection

/-- A workspace with a result and a log. -/
def Disk.logged : Disk where
  entries := [(["ws"], .directory 0), (["ws", "a"], .directory 0),
    (["ws", "a", "target"], .directory 0), (["ws", "a", "target", "test-results"], .directory 0),
    (["ws", "a", "target", "test-results", "t.xml"], .file [50] false 0),
    (["ws", "x.log"], .file (Text.encode "RDBMS=tidb\n") false 0)]
  current := []
  clock := 0

/-- A session with that workspace. -/
def Session.logged : Session where
  scene := ⟨Disk.logged, false, ⟨"20250101-000000", "2025-01-01T00:00:00Z"⟩⟩

/-- A request to collect from that workspace with the log, and to remove what was copied. -/
def CollectionOrder.logged : CollectionOrder where
  root := ⟨"/ws"⟩
  destination := ⟨"/out"⟩
  timestamp := "T"
  log := some ⟨"x.log"⟩
  logDirectory := some ⟨"/ws"⟩
  removeSource := true
  backend := some "mysql"

/-- A workspace in which the test results at its top hold those of another build, beside a module. -/
def Disk.nested : Disk where
  entries := [(["ws"], .directory 0), (["ws", "a"], .directory 0),
    (["ws", "a", "target"], .directory 0), (["ws", "a", "target", "test-results"], .directory 0),
    (["ws", "a", "target", "test-results", "t.xml"], .file [50] false 0),
    (["ws", "target"], .directory 0), (["ws", "target", "test-results"], .directory 0),
    (["ws", "target", "test-results", "x"], .directory 0),
    (["ws", "target", "test-results", "x", "target"], .directory 0),
    (["ws", "target", "test-results", "x", "target", "test-results"], .directory 0),
    (["ws", "target", "test-results", "x", "target", "test-results", "y.xml"], .file [49] false 0)]
  current := []
  clock := 0

/-- A session with that workspace. -/
def Session.nested : Session where
  scene := ⟨Disk.nested, false, ⟨"20250101-000000", "2025-01-01T00:00:00Z"⟩⟩

/-- A request to collect from a workspace and to remove nothing. -/
def CollectionOrder.plain : CollectionOrder where
  root := ⟨"/ws"⟩
  destination := ⟨"/out"⟩
  timestamp := "T"

namespace Collection

/-- The workspace with a log is sound. -/
theorem sound_logged : Disk.logged.Sound :=
  ⟨by decide, by decide, by decide, by decide⟩

/-- A result and a log are collected, and the manifest describes the collection. -/
theorem logged_collection_exact :
    Disk.logged.Sound ∧ (collect .logged).outcome .logged = .ok ⟨"/out-T"⟩ ∧
      (∀ home, (founding .logged .logged).scene.disk.Leads ⟨"/ws"⟩ home →
        Disk.logged.Linkless home) ∧
      (∀ home place, (founding .logged .logged).scene.disk.Leads ⟨"/ws"⟩ home →
        (founding .logged .logged).scene.disk.Leads (directoryOf .logged) place →
        ∀ sub ∈ takenBy .logged .logged home, ¬ home ++ sub <+: place) ∧
      Path.mk "/out-T" = directoryOf .logged ∧ ∃ home place made,
        (founding .logged .logged).scene.disk.Leads ⟨"/ws"⟩ home ∧
        Exact .logged .logged home place made ((collect .logged).after .logged).scene.disk ∧
        ∃ manifest, Describes .logged .logged manifest ∧
          (((collect .logged).after .logged).scene.disk.Leads (directoryOf .logged) place →
            (Manifest.load (Path.mk "/out-T" / Manifest.fileName)).outcome
              ((collect .logged).after .logged) = .ok (some manifest)) := by
  have passed : (collect .logged).outcome .logged = .ok ⟨"/out-T"⟩ := by decide +kernel
  have linkless : ∀ home, (founding .logged .logged).scene.disk.Leads ⟨"/ws"⟩ home →
      Disk.logged.Linkless home := fun _ _ => linkless_of_entries (by decide)
  have apart : ∀ home place, (founding .logged .logged).scene.disk.Leads ⟨"/ws"⟩ home →
      (founding .logged .logged).scene.disk.Leads (directoryOf .logged) place →
      ∀ sub ∈ takenBy .logged .logged home, ¬ home ++ sub <+: place := by
    intro home place leads founded
    have there : (founding .logged .logged).scene.disk.directory? ⟨"/ws"⟩ = some ["ws"] := by
      decide +kernel
    have new : (founding .logged .logged).scene.disk.directory? (directoryOf .logged) =
        some ["out-T"] := by
      decide +kernel
    -- The evaluation finds the two directories, and each path leads to only one.
    obtain rfl := (directory?_eq_some.mp there).unique leads
    obtain rfl := (directory?_eq_some.mp new).unique founded
    decide +kernel
  exact ⟨sound_logged, passed, linkless, apart,
    collection_exact sound_logged passed linkless apart⟩

/-- A result in a build output of its own below the test results at the top of a workspace is not
collected, since the first build output on the way to it belongs to no module. -/
theorem nested_result_not_collected :
    Disk.nested.Sound ∧ Disk.nested.Linkless [] ∧
      (collect .plain).outcome .nested = .ok ⟨"/out-T"⟩ ∧
      ∃ front back : List String, front ≠ [] ∧
        Suite.isXmlWay (front ++ Suite.outputName :: Suite.resultsName :: back) = true ∧
        Disk.nested.content? ("ws" :: (front ++ Suite.outputName :: Suite.resultsName :: back)) =
          some [49] ∧
        ((collect .plain).after .nested).scene.disk.content?
          ("out-T" :: (front ++ Suite.outputName :: Suite.resultsName :: back)) = none := by
  refine ⟨⟨by decide, by decide, by decide, by decide⟩,
    linkless_of_entries (by decide), by decide +kernel, ["target", "test-results", "x"], ["y.xml"],
    by decide, by decide +kernel, by decide +kernel, by decide +kernel⟩

end Collection

end DialectBench
