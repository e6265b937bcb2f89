import DialectBench.Proofs.Collection.Withdrawal
import DialectBench.Proofs.Disk.Contents
import DialectBench.Proofs.Session.Upkeep

/-! A collection that leaves its sources, and a summary, only add to the tree. -/

namespace DialectBench

open Disk Action

namespace Disk

variable {base d : Disk} {directory : Path} {place : Location}

/-- A tree with a directory in which there are no links has grown since the directory was made. -/
theorem Housed.grows (housed : base.Housed place d)
    (founded : base.Founded directory place) : base.Grows d where
  sound := housed.sound
  current := housed.current
  within := housed.within founded
  linked other target seen := by
    by_cases inside : place <+: other
    · obtain ⟨names, rfl⟩ := inside
      exact absurd seen (housed.linkless names target)
    · rwa [← housed.outside other inside]

/-- A new directory is the entry of its name in the directory that its path lies in. -/
theorem Founded.eq_append {p : Path} {name : String} {outer : Location}
    (founded : base.Founded (p / name) place) (leads : base.Leads p outer) (plain : IsPlain name) :
    place = outer ++ [name] := by
  obtain ⟨modified, resolved⟩ := founded.housed.resolve_eq founded
  rw [leads.resolve_div plain (by simp)] at resolved
  exact (congrArg Spot.location (Except.ok.inj resolved)).symm

end Disk

namespace Collection

variable {place : Location} {request : CollectionOrder}
  {s : Session}

/-- While a collection is filled the tree grows. -/
theorem housed_fill (founded : (founding request s).scene.disk.Founded (directoryOf request) place) :
    (founding request s).scene.disk.Housed place
      ((fill request (directoryOf request)).after (founding request s)).scene.disk := by
  have start : (founding request s).scene.disk.Filling place (fun _ => False) (fun _ => none)
      (founding request s).scene.disk := ⟨founded.housed, by simp⟩
  exact ((keeps_fill founded request (by simp) (by simp)).after start).toHoused

/-- A collection that leaves its sources makes directories and no more, as far as can be seen, or fills a
new one. -/
theorem collect_cases (sound : s.scene.disk.Sound) (leaves : request.removeSource = false) :
    (∃ places between, s.scene.disk.Makes places between ∧
        ((collect request).after s).scene.disk.current = between.current ∧
        ∀ other, ((collect request).after s).scene.disk.view other = between.view other) ∨
      ∃ place, (founding request s).scene.disk.Founded (directoryOf request) place ∧
        (founding request s).scene.disk.Housed place ((collect request).after s).scene.disk := by
  obtain ⟨made, paves, ⟨failure, declined, -⟩ | ⟨place, passed, established⟩⟩ :=
    makeDirectory_cases sound (isNamed_directoryOf request)
  · -- Directories on the way are all that was made.
    obtain ⟨places, makes⟩ := founding_makes sound request
    rw [(collect_of_declined declined).2]
    exact .inl ⟨places, _, makes, rfl, fun _ => rfl⟩
  · -- The directory was made, and it is kept if it could be filled.
    have housed : (founding request s).scene.disk.Housed place _ := housed_fill established.founded
    cases filled : (fill request (directoryOf request)).outcome (founding request s) with
    | ok sources =>
      rw [(collect_of_filled passed filled).2, leaves]
      exact .inr ⟨place, established.founded, housed⟩
    | error failure =>
      -- What was filled in is taken away again.
      have between := established.makes_place paves
      have before := paves.makes.sound sound
      cases between with
      | next fits others =>
        generalize base_eq : ((prepareParent (directoryOf request)).after s).scene.disk.apply
          (.makeDirectory place) = base at others
        cases others
        have discarded := view_discarded fits before base_eq.symm established.founded housed
        rw [← collect_of_unfilled passed filled] at discarded
        exact .inl ⟨made, _, paves.makes, discarded⟩

/-- Whatever comes of a collection that leaves its sources, the tree has only grown. -/
theorem grows_collect (sound : s.scene.disk.Sound) (leaves : request.removeSource = false) :
    s.scene.disk.Grows ((collect request).after s).scene.disk := by
  -- In both cases directories were made first, and making directories only adds.
  obtain ⟨places, between, makes, current, same⟩ | ⟨place, founded, housed⟩ :=
    collect_cases sound leaves
  · have grows := makes.grows sound
    refine ⟨(sound_collect request).after_of_quiet (quiet_collect request) sound,
      current.trans grows.current, fun other node seen => ?_, fun other target seen => ?_⟩
    · rw [same]
      exact grows.within other node seen
    · rw [same] at seen
      exact grows.linked other target seen
  · obtain ⟨places, makes⟩ := founding_makes sound request
    exact (makes.grows sound).trans (housed.grows founded)

/-- Whatever comes of a collection that leaves its sources, only its own directory holds new files. -/
theorem keepsIn_collect {p : Path} {name : String} {outer : Location} (sound : s.scene.disk.Sound)
    (leaves : request.removeSource = false) (leads : s.scene.disk.Leads p outer)
    (plain : IsPlain name) (named : directoryOf request = p / name) :
    s.scene.disk.KeepsIn p outer (· = name) ((collect request).after s).scene.disk := by
  refine .of_grows leads (grows_collect sound leaves) fun other apart names => ?_
  -- Places outside the directory hold the same files in both cases.
  obtain ⟨places, between, makes, -, same⟩ | ⟨place, founded, housed⟩ := collect_cases sound leaves
  · exact (content?_congr (same _)).trans (makes.content?_eq _)
  · obtain ⟨places, makes⟩ := founding_makes sound request
    rw [named] at founded
    obtain rfl := founded.eq_append (leads.mono makes.within makes.current_eq) plain
    have outside : ¬ outer ++ [name] <+: outer ++ other :: names := by
      rw [List.prefix_append_right_inj, List.cons_prefix_cons]
      exact fun inside => apart inside.1.symm
    exact (content?_congr (housed.outside _ outside)).trans (makes.content?_eq _)

end Collection

namespace Action

variable {path : Path} {name : String} {front : List Step} {s : Session}

/-- Whatever comes of writing a JSON file, the file is the only one that may be another one. -/
theorem writes_writeJson (sound : s.scene.disk.Sound) (unlinked : s.scene.disk.Unlinked (· = name))
    (moves : path.moves = front ++ [.down name]) (value : JsonValue) :
    s.scene.disk.Writes name ((writeJson path value).after s).scene.disk := by
  obtain ⟨places, between, makes, ⟨_, -, same⟩ | ⟨-, goal, writable, puts⟩⟩ :=
    writeJson_ends sound path value
  · rw [same]
    exact (makes.grows sound).writes name
  · -- The directories bear no new links, so the file is written under its own name.
    have grows := makes.grows sound
    exact grows.writes_of_puts puts
      (location_of_filePlace (unlinked.of_linked grows.linked) moves writable)

/-- Whatever comes of writing a JSON file in a directory, no other file in it is another one. -/
theorem keepsIn_writeJson {p : Path} {place : Location} (sound : s.scene.disk.Sound)
    (leads : s.scene.disk.Leads p place) (plain : IsPlain name)
    (solid : ∀ target, s.scene.disk.view (place ++ [name]) ≠ some (.link target))
    (value : JsonValue) :
    s.scene.disk.KeepsIn p place (· = name) ((writeJson (p / name) value).after s).scene.disk := by
  obtain ⟨places, between, makes, ends⟩ := writeJson_ends sound (p / name) value
  have keeps : s.scene.disk.KeepsIn p place (· = name) between :=
    .of_grows leads (makes.grows sound) fun _ _ _ => makes.content?_eq _
  obtain ⟨_, -, same⟩ | ⟨-, goal, writable, puts⟩ := ends
  · rwa [same]
  · obtain rfl := keeps.leads.filePlace_div plain
      (fun target seen => solid target (keeps.linked [name] target seen)) writable
    exact keeps.trans
      (.of_puts keeps.leads puts (takesFile_of_filePlace keeps.sound writable) rfl)

end Action

namespace Summary

variable {request : Request} {s : Session} {name : String} {front : List Step} {out : Path}
  {stamp : String}

/-- A summary for which a file is wanted writes that file at most. -/
theorem disk_summarize (wanted : request.jsonOut = some out) (stamped : request.timestamp = some stamp)
    (s : Session) :
    ((summarize request).after s).scene.disk = s.scene.disk ∨ ∃ t : Session, ∃ value,
      t.scene.disk = s.scene.disk ∧ ((summarize request).after s).scene.disk =
        ((writeJson (jsonPath out stamp) value).after t).scene.disk := by
  unfold summarize
  rw [after_bind_of_ok (outcome_look _ s), after_look]
  split
  · -- Reading the manifest leaves the tree alone.
    have loads (path : Path) : (Manifest.load path).Upholds (· = s.scene.disk) :=
      Manifest.upholds_load path
    generalize request.manifest.getD (request.root / Manifest.fileName) = path
    have same := (loads path).after_of_quiet (Manifest.quiet_load path) rfl
    cases manifest : (Manifest.load path).outcome s with
    | error failure =>
      rw [after_bind_of_error manifest]
      exact .inl same
    | ok found =>
      rw [after_bind_of_ok manifest]
      generalize (Manifest.load path).after s = t at same ⊢
      refine .inr ⟨t, ?_⟩
      rw [after_bind_of_ok (show Action.disk.outcome t = .ok t.scene.disk from rfl),
        show Action.disk.after t = t from rfl, after_bind_of_ok (outcome_stamp t), after_stamp,
        after_bind_of_ok (show universal.outcome t = .ok t.scene.moment.universal from rfl),
        show universal.after t = t from rfl, bind_pure_comp, after_map, wanted, writeIf]
      dsimp only
      rw [bind_pure_comp, after_map, stamped]
      exact ⟨_, same, rfl⟩
  · exact .inl rfl

variable (sound : s.scene.disk.Sound) (wanted : request.jsonOut = some out)
  (stamped : request.timestamp = some stamp)
include sound wanted stamped

/-- Whatever comes of a summary, the file that is wanted is the only one that may be another one. -/
theorem writes_summarize (unlinked : s.scene.disk.Unlinked (· = name))
    (moves : (jsonPath out stamp).moves = front ++ [.down name]) :
    s.scene.disk.Writes name ((summarize request).after s).scene.disk := by
  obtain same | ⟨t, value, tree, same⟩ := disk_summarize wanted stamped s
  · rw [same]
    exact (Grows.refl sound).writes name
  · rw [same]
    rw [← tree] at sound unlinked ⊢
    exact writes_writeJson sound unlinked moves value

/-- Whatever comes of a summary in a directory, no other file in it is another one. -/
theorem keepsIn_summarize {p : Path} {place : Location} (leads : s.scene.disk.Leads p place)
    (plain : IsPlain name)
    (solid : ∀ target, s.scene.disk.view (place ++ [name]) ≠ some (.link target))
    (named : jsonPath out stamp = p / name) :
    s.scene.disk.KeepsIn p place (· = name) ((summarize request).after s).scene.disk := by
  obtain same | ⟨t, value, tree, same⟩ := disk_summarize wanted stamped s
  · rw [same]
    exact .of_view sound leads fun _ => rfl
  · rw [same, named]
    rw [← tree] at sound leads solid ⊢
    exact keepsIn_writeJson sound leads plain solid value

end Summary

end DialectBench
