import DialectBench.Proofs.Collection.Growth
import DialectBench.Proofs.Summary.Account
import DialectBench.Proofs.Summary.Aggregate
import DialectBench.Proofs.Summary.Attachment
import DialectBench.Proofs.Summary.Storage

/-! A collection and the summary of it, filed side by side: what the summary says is read back as long as
nothing else is put under the two names. -/

namespace DialectBench

open Disk Action

namespace Summary

variable {d : Disk} {root path runs : Path} {place : Location}
  {collection summary database : String} {payload : Payload} {own : String → Prop}

/-- The sum of a count over all suites below a root. -/
def countBelow (d : Disk) (root : Path) (count : Totals → Nat) : Nat :=
  ((suites d root).map fun suite => count suite.2).sum

/-- A count that adds up from nothing is, over all suites below a root, the sum of those of the suites. -/
theorem overall_sumsBelow (d : Disk) (root : Path) (count : Totals → Nat) (none : count {} = 0)
    (adds : ∀ one other : Totals, count (one.plus other) = count one + count other) :
    count (sumsBelow d root).overall = countBelow d root count := by
  have fold (list : List (String × Totals)) (sums : Aggregate) :
      count (list.foldl (fun sums suite => sums.add suite.1 suite.2) sums).overall =
        count sums.overall + (list.map fun suite => count suite.2).sum := by
    induction list generalizing sums with
    | nil => simp
    | cons suite list ih => rw [List.foldl_cons, ih, Aggregate.add, adds, List.map_cons, List.sum_cons,
        Nat.add_assoc]
  refine (fold (suites d root) {}).trans ?_
  rw [none, Nat.zero_add, countBelow]

/-- The backend that a stored summary gives. -/
def databaseOf? (value : JsonValue) : Option String :=
  match value.fields? ["database"] with
  | some ⟨[some database], _⟩ => database.text?
  | _ => none

/-- The backend that a summary file gives. -/
def storedDatabase (d : Disk) (path : Path) : Except Failure String :=
  readStored d path databaseOf?

/-- What is written of a summary is understood as its backend. -/
theorem Payload.databaseOf?_settled (payload : Payload) :
    databaseOf? (JsonValue.settled payload.toJson) = some payload.database := by
  have found : (JsonValue.settled payload.toJson).fields? ["database"] =
      some ⟨[some (.ofString payload.database)], false⟩ := by
    rw [Payload.toJson, JsonValue.settled_ofMembers]
    cases payload.log <;>
      simp [JsonValue.fields?, JsonValue.ofMembers, JsonValue.valuesOf, JsonValue.ofString,
        JsonValue.settled]
  rw [databaseOf?, found]
  rfl

/-- A stored summary gives its backend. -/
theorem storedDatabase_of_read
    (read : d.read path = .ok (Text.encode (payload.toJson.text ++ "\n"))) :
    storedDatabase d path = .ok payload.database := by
  have understood := JsonValue.read?_text payload.legible_toJson
  rw [← Text.encode_append] at understood
  rw [storedDatabase, readStored, read]
  simp only [understood, Option.bind_some, Payload.databaseOf?_settled]

/-- In a directory there is a complete collection under a name, without links. -/
structure Gathered (runs : Path) (place : Location) (collection : String) (manifest : Manifest)
    (d : Disk) : Prop where
  /-- The entries fit together. -/
  sound : d.Sound
  /-- The path leads to the directory. -/
  leads : d.Leads runs place
  /-- The collection is there. -/
  stands : d.isDirectoryAt (place ++ [collection]) = true
  /-- There are no links in it. -/
  linkless : d.Linkless (place ++ [collection])
  /-- It holds its manifest. -/
  sealed : d.content? (place ++ [collection, Manifest.fileName]) =
    some (Text.encode (manifest.toJson.text ++ "\n"))

/-- In a directory there is a complete collection under a name, and under another one a summary that gives
its sums and a backend. -/
structure Filed (runs : Path) (place : Location) (collection summary database : String) (d : Disk) :
    Prop where
  /-- The collection is there. -/
  gathered : ∃ manifest, Gathered runs place collection manifest d
  /-- The summary is there. -/
  told : ∃ payload : Payload, payload.database = database ∧
    payload.overall = (sumsBelow d (runs / collection)).overall ∧
    d.content? (place ++ [summary]) = some (Text.encode (payload.toJson.text ++ "\n"))

namespace Gathered

variable {manifest : Manifest} {e : Disk}

/-- The path of a collection leads to it. -/
theorem leads_collection (gathered : Gathered runs place collection manifest d)
    (plain : IsPlain collection) : d.Leads (runs / collection) (place ++ [collection]) :=
  gathered.leads.div plain gathered.stands

/-- The manifest of a collection is read. -/
theorem read_manifest (gathered : Gathered runs place collection manifest d)
    (plain : IsPlain collection) :
    d.read (runs / collection / Manifest.fileName) =
      .ok (Text.encode (manifest.toJson.text ++ "\n")) := by
  refine (gathered.leads_collection plain).read_div Collection.isPlain_manifest ?_
  rw [List.append_assoc]
  exact gathered.sealed

/-- A collection stays as it is where nothing else is put under its name, and so do its sums. -/
theorem keep (gathered : Gathered runs place collection manifest d)
    (keeps : d.KeepsIn runs place own e) (apart : ¬ own collection) (plain : IsPlain collection) :
    Gathered runs place collection manifest e ∧
      sumsBelow e (runs / collection) = sumsBelow d (runs / collection) := by
  have kept : Gathered runs place collection manifest e :=
    ⟨keeps.sound, keeps.leads, keeps.stands _ gathered.stands, fun names target seen => by
        rw [List.append_assoc] at seen
        refine gathered.linkless names target ?_
        rw [List.append_assoc]
        exact keeps.linked _ target seen,
      (keeps.content _ apart _).trans gathered.sealed⟩
  refine ⟨kept, sumsBelow_eq kept.sound (kept.leads_collection plain) gathered.sound
    (gathered.leads_collection plain) fun way _ => ?_⟩
  simpa using keeps.content _ apart way

end Gathered

namespace Filed

/-- A collection and its summary stay as they are where nothing else is put under their names. -/
theorem stable (plain : IsPlain collection) (apart : ¬ own collection) (other : ¬ own summary) :
    Stable runs place own (Filed runs place collection summary database) := by
  rintro d e keeps ⟨⟨manifest, gathered⟩, payload, backend, overall, held⟩
  obtain ⟨kept, same⟩ := gathered.keep keeps apart plain
  exact ⟨⟨manifest, kept⟩, payload, backend, same ▸ overall, (keeps.content _ other []).trans held⟩

variable (filed : Filed runs place collection summary database d)
include filed

/-- The manifest of the collection is a file. -/
theorem isFile_manifest (plain : IsPlain collection) :
    d.isFile (runs / collection / Manifest.fileName) = true := by
  obtain ⟨manifest, gathered⟩ := filed.gathered
  have read := gathered.read_manifest plain
  unfold Disk.read at read
  unfold isFile
  split at read
  next found => rw [found]; rfl
  · cases read
  · cases read

/-- The summary is read. -/
theorem read_summary (plain : IsPlain summary) : ∃ payload : Payload, payload.database = database ∧
    payload.overall = (sumsBelow d (runs / collection)).overall ∧
    d.read (runs / summary) = .ok (Text.encode (payload.toJson.text ++ "\n")) := by
  obtain ⟨⟨manifest, gathered⟩, payload, backend, overall, held⟩ := filed
  exact ⟨payload, backend, overall, gathered.leads.read_div plain held⟩

/-- The backend is read from the summary. -/
theorem storedDatabase_eq (plain : IsPlain summary) :
    storedDatabase d (runs / summary) = .ok database := by
  obtain ⟨payload, rfl, -, read⟩ := filed.read_summary plain
  exact storedDatabase_of_read read

/-- The sums of the collection are read from the summary. -/
theorem storedTotals_eq (plain : IsPlain summary)
    (fits : (sumsBelow d (runs / collection)).overall.Fits)
    (finite : (sumsBelow d (runs / collection)).overall.time.isFinite = true) :
    ∃ time, Comparison.storedTotals d (runs / summary) =
      .ok { (sumsBelow d (runs / collection)).overall with time } := by
  obtain ⟨payload, -, overall, read⟩ := filed.read_summary plain
  rw [← overall] at fits finite ⊢
  obtain ⟨time, reads⟩ := Option.isSome_iff_exists.mp (JsonValue.double?_timeJson finite)
  exact ⟨time, by rw [storedTotals_of_read read fits, reads]⟩

end Filed

end Summary

namespace Collection

variable {request : CollectionOrder} {s : Session} {runs directory : Path} {place : Location}
  {name : String}

/-- A collection that succeeds and leaves its sources is gathered under its name, with the backend that
was asked for. -/
theorem gathered_of_collect (sound : s.scene.disk.Sound) (leaves : request.removeSource = false)
    (leads : s.scene.disk.Leads runs place) (plain : IsPlain name)
    (named : directoryOf request = runs / name)
    (passed : (collect request).outcome s = .ok directory) :
    directory = runs / name ∧ ∃ manifest, manifest.backend = request.backend ∧
      Summary.Gathered runs place name manifest ((collect request).after s).scene.disk := by
  have keeps := keepsIn_collect sound leaves leads plain named
  obtain ⟨rfl, made, outer, sources, -, created, established, filled⟩ := collect_of_ok sound passed
  have founded : (founding request s).scene.disk.Founded (directoryOf request) outer :=
    established.founded
  obtain ⟨stored, here⟩ := stored_of_filled founded filled
  have after : (collect request).after s =
      (fill request (directoryOf request)).after (founding request s) := by
    rw [(collect_of_filled created filled).2, if_neg (by simp [leaves])]
  rw [← after] at stored here
  -- The new directory is the entry of its name.
  obtain ⟨places, makes⟩ := founding_makes sound request
  rw [named] at founded
  obtain rfl := founded.eq_append (leads.mono makes.within makes.current_eq) plain
  refine ⟨named, manifestFor request (founding request s), rfl, keeps.sound, keeps.leads, here.stands,
    stored.linkless, ?_⟩
  have held := stored.manifest
  rwa [List.append_assoc] at held

end Collection

namespace Summary

variable {request : Request} {manifest : Manifest} {s : Session} {result : Result} {runs out : Path}
  {place : Location} {collection summary database stamp : String}

/-- A summary of a collection that is gathered in a directory is filed with it, under the backend of the
manifest whatever the log says. -/
theorem filed_of_summarize (gathered : Gathered runs place collection manifest s.scene.disk)
    (plain : IsPlain collection) (solo : IsPlain summary) (apart : summary ≠ collection)
    (solid : ∀ target, s.scene.disk.view (place ++ [summary]) ≠ some (.link target))
    (backed : manifestHint (some manifest) = some database)
    (root : request.root = runs / collection) (own : request.manifest = none)
    (wanted : request.jsonOut = some out) (stamped : request.timestamp = some stamp)
    (named : jsonPath out stamp = runs / summary)
    (passed : (summarize request).outcome s = .ok result) :
    result.jsonPath = some (runs / summary) ∧
      Filed runs place collection summary database ((summarize request).after s).scene.disk := by
  have keeps : s.scene.disk.KeepsIn runs place (· = summary)
      ((summarize request).after s).scene.disk :=
    keepsIn_summarize gathered.sound wanted stamped gathered.leads solo solid named
  obtain ⟨kept, same⟩ := gathered.keep keeps (fun mine => apart mine.symm) plain
  have place_eq : request.manifestPath = runs / collection / Manifest.fileName := by
    rw [Request.manifestPath, own, root]
    rfl
  have read := gathered.read_manifest plain
  rw [← place_eq] at read
  obtain ⟨loaded, still⟩ := Manifest.load_text read
  have stands : s.scene.disk.isDirectory request.root = true := by
    rw [root]
    exact isDirectory_iff.mpr ⟨_, gathered.leads_collection plain⟩
  obtain ⟨outcome, -⟩ := summarize_of_manifest stands loaded still
  have wrote := passed
  rw [outcome, map_eq_ok] at passed
  obtain ⟨file, written, rfl⟩ := passed
  -- The file that is wanted bears the stamp that is given.
  have path : file = some (runs / summary) := by
    rw [wanted, writeIf] at written
    obtain ⟨_, -, last⟩ := outcome_bind_eq_ok.mp written
    rw [← named, ← Except.ok.inj last]
    simp [Request.payload, stamped]
  have told := kept.leads.content?_of_read solo
    (fun target seen => solid target (keeps.linked [summary] target seen))
    (read_summarize gathered.sound wrote path)
  refine ⟨path, ⟨manifest, kept⟩, request.payload manifest s.scene, ?_, ?_, told⟩
  · simp [Request.payload, backend, backed]
  · rw [same, ← root]
    rfl

end Summary

end DialectBench
