import DialectBench.Proofs.Collection.Exactness
import DialectBench.Proofs.Summary.Account

/-! The log of a collection is found again when the collection is summarized. -/

namespace DialectBench

open Disk Action

namespace Collection

variable {request : CollectionOrder} {s : Session} {d : Disk} {place home : Location}
  {made : List Location} {directory : Path} {sources : List Path} {name : String} {bytes : Bytes}

/-- The manifest and the log of a collection are in its directory. -/
structure Stored (request : CollectionOrder) (s : Session) (place : Location) (d : Disk) :
    Prop where
  /-- The entries fit together. -/
  sound : d.Sound
  /-- There are no links in the directory. -/
  linkless : d.Linkless place
  /-- The manifest is there. -/
  manifest : d.content? (place ++ [Manifest.fileName]) =
    some (Text.encode ((manifestFor request (founding request s)).toJson.text ++ "\n"))
  /-- The log is there if one was found. -/
  log : ∀ name bytes, attachment? request (gathering request (founding request s)).scene.disk =
    some (name, bytes) → d.content? (place ++ ["logs", name]) = some bytes

/-- An exact snapshot holds its manifest and its log. -/
theorem Exact.stored (exact : Exact request s home place made d) : Stored request s place d where
  sound := exact.sound
  linkless := exact.linkless
  manifest := (exact.files _ _).mpr .manifest
  log _ _ found := (exact.files _ _).mpr (.log found)

/-- A collection that was filled, from whatever workspace, holds its manifest and its log. -/
theorem stored_of_filled
    (founded : (founding request s).scene.disk.Founded (directoryOf request) place)
    (filled : (fill request (directoryOf request)).outcome (founding request s) = .ok sources) :
    Stored request s place
        ((fill request (directoryOf request)).after (founding request s)).scene.disk ∧
      ((fill request (directoryOf request)).after (founding request s)).scene.disk.Leads
        (directoryOf request) place := by
  have known := Suite.modules_known founded.sound request.root
  have housed : (founding request s).scene.disk.Filling place (fun _ => False) (fun _ => none)
      (gathering request (founding request s)).scene.disk :=
    (keeps_copyModules founded (by simp) known).after ⟨founded.housed, by simp⟩
  -- Whatever has been copied stays as it is.
  have held : (founding request s).scene.disk.Filling place (fun _ => True)
      (fun names => (gathering request (founding request s)).scene.disk.content? (place ++ names))
      (gathering request (founding request s)).scene.disk :=
    ⟨housed.toHoused, fun _ _ => rfl⟩
  have filling := filling_fill_of founded held filled
  refine ⟨⟨filling.sound, filling.linkless, ?_, fun name bytes found => ?_⟩,
    filling.toHoused.leads founded⟩
  · rw [filling.held _ trivial, if_pos rfl]
  · rw [filling.held _ trivial, if_neg (by simp), found, attached, if_pos rfl]

/-- A collection that succeeds holds its manifest and its log. -/
theorem stored_collect (sound : s.scene.disk.Sound)
    (passed : (collect request).outcome s = .ok directory)
    (spared : request.removeSource = true →
      (∀ home, (founding request s).scene.disk.Leads request.root home →
        s.scene.disk.Linkless home) ∧
      ∀ home place, (founding request s).scene.disk.Leads request.root home →
        (founding request s).scene.disk.Leads (directoryOf request) place →
        ∀ sub ∈ takenBy request s home, ¬ home ++ sub <+: place) :
    directory = directoryOf request ∧ ∃ place,
      (founding request s).scene.disk.Leads directory place ∧
      Stored request s place ((collect request).after s).scene.disk ∧
      (request.removeSource = false →
        ((collect request).after s).scene.disk.Leads directory place) := by
  cases removes : request.removeSource with
  | true =>
    obtain ⟨linkless, apart⟩ := spared removes
    obtain ⟨rfl, home, place, made, -, exact, -⟩ := collection_exact sound passed linkless apart
    exact ⟨rfl, place, exact.founded.leads, exact.stored, by simp⟩
  | false =>
    obtain ⟨rfl, made, place, sources, -, created, established, filled⟩ :=
      collect_of_ok sound passed
    have founded : (founding request s).scene.disk.Founded (directoryOf request) place :=
      established.founded
    obtain ⟨stored, leads⟩ := stored_of_filled founded filled
    rw [(collect_of_filled created filled).2, if_neg (by simp [removes])]
    exact ⟨rfl, place, founded.leads, stored, fun _ => leads⟩

/-- The name of the copy of a log is plain. -/
theorem isPlain_attachment (found : attachment? request d = some (name, bytes)) : IsPlain name := by
  unfold attachment? at found
  split at found
  · simp at found
  next log _ =>
    dsimp only at found
    split at found
    next source content mode time _ =>
      obtain ⟨rfl, -⟩ := Prod.mk.inj (Option.some.inj found)
      exact isPlain_logName _
    next => simp at found

end Collection

namespace Summary

open Collection

variable {request : CollectionOrder} {s : Session} {directory : Path} {name : String}
  {bytes : Bytes} {summary : Request} {place : Location}

/-- A summary of a collection resolves the log to a copy of it. -/
structure Attached (directory : Path) (d : Disk) (name : String) (bytes : Bytes) (path : Path)
    (place : Location) (result : Result) : Prop where
  /-- The summary names the path of the copy. -/
  log : result.payload.log = some path.text
  /-- The path leads to the copy. -/
  entry : ∃ mode time, d.entry path = .ok (place ++ ["logs", name], .file bytes mode time)
  /-- The copy has the name of the log. -/
  named : path.fileName? = some name
  /-- The hint tells where it is. -/
  hint : result.logHint = "log: " ++ ((path.relativeTo? directory).getD path).text

/-- The log of a collection is resolved to the copy in its directory, whatever the workspace was, if the
path of the directory leads there also from within: it does if it is absolute. Unless the manifest
names a backend, that is told by the end of the copy, or else by its name. -/
theorem attached_log_resolved (sound : s.scene.disk.Sound)
    (passed : (collect request).outcome s = .ok directory)
    (found : attachment? request (gathering request (founding request s)).scene.disk =
      some (name, bytes))
    (spared : request.removeSource = true →
      (∀ home, (founding request s).scene.disk.Leads request.root home →
        s.scene.disk.Linkless home) ∧
      (∀ home place, (founding request s).scene.disk.Leads request.root home →
        (founding request s).scene.disk.Leads (directoryOf request) place →
        ∀ sub ∈ takenBy request s home, ¬ home ++ sub <+: place) ∧
      ∀ place, (founding request s).scene.disk.Leads directory place →
        ((collect request).after s).scene.disk.Leads directory place)
    (again : directory.isAbsolute = true ∨
      ∀ place, ((collect request).after s).scene.disk.Leads directory place →
        ((collect request).after s).scene.disk.Leads (directory.join directory) place)
    (whole : summary.root = directory ∧ summary.log = none ∧ summary.manifest = none) :
    ∃ path place, ((collect request).after s).scene.disk.Leads directory place ∧
      (summary.jsonOut = none →
        ∃ result, (summarize summary).outcome ((collect request).after s) = .ok result) ∧
      ∀ result, (summarize summary).outcome ((collect request).after s) = .ok result →
        Attached directory ((collect request).after s).scene.disk name bytes path place result ∧
        ((∀ hint, request.backend = some hint → Text.trimmed hint = "") →
          result.payload.database = ((hintInLog bytes).or (nameHint path)).getD "unknown") := by
  obtain ⟨rfl, place, founded, stored, stays⟩ :=
    stored_collect sound passed fun removes => ⟨(spared removes).1, (spared removes).2.1⟩
  have leads : ((collect request).after s).scene.disk.Leads (directoryOf request) place := by
    cases removes : request.removeSource with
    | true => exact (spared removes).2.2 place founded
    | false => exact stays removes
  generalize (collect request).after s = t at stored leads again ⊢
  obtain ⟨root, log, own⟩ := whole
  have named := isNamed_directoryOf request
  have parts : ∀ part ∈ ["logs", name], IsPlain part := by
    simpa using ⟨(by decide : IsPlain "logs"), isPlain_attachment found⟩
  -- The path in the manifest is taken from the directory once more, which changes an absolute one not.
  have inner : t.scene.disk.Leads ((directoryOf request).join (directoryOf request)) place := by
    rcases again with absolute | inner
    · rwa [Path.join_of_absolute absolute]
    · exact inner place leads
  have resolved : summary.logOf (manifestFor request (founding request s)) t.scene.disk =
      some (((directoryOf request).join (directoryOf request)).extend ["logs", name]) := by
    rw [← Path.join_extend named named parts, Request.logOf, log, root]
    simp only [logPath, manifestFor, manifestOf, found, Option.map_some, Option.bind_some]
    rfl
  obtain ⟨mode, time, there⟩ := content?_eq_some.mp (stored.log name bytes found)
  have entry := inner.entry_file stored.sound there
  have present : t.scene.disk.exists?
      (((directoryOf request).join (directoryOf request)).extend ["logs", name]) = true := by
    rw [exists?, entry]
    rfl
  have place_eq : summary.manifestPath = (directoryOf request).extend [Manifest.fileName] := by
    rw [Request.manifestPath, own, root]
    rfl
  obtain ⟨loaded, still⟩ := Manifest.load_text
    (leads.read_file stored.sound stored.manifest)
  rw [← place_eq] at loaded still
  have stands : t.scene.disk.isDirectory summary.root = true := by
    rw [root]
    exact isDirectory_iff.mpr ⟨place, leads⟩
  obtain ⟨outcome, -⟩ := summarize_of_manifest stands loaded still
  refine ⟨((directoryOf request).join (directoryOf request)).extend ["logs", name], place, leads,
    fun none => ?_, fun result passed => ?_⟩
  · rw [outcome, none]
    exact ⟨_, rfl⟩
  · rw [outcome, map_eq_ok] at passed
    obtain ⟨file, -, rfl⟩ := passed
    refine ⟨⟨by simp [Request.payload, resolved], ⟨mode, time, entry⟩,
      Path.fileName?_div (Path.isNamed_div (Path.isNamed_join named named) (by decide))
        (isPlain_attachment found), ?_⟩, fun blank => ?_⟩
    · simp only [resolved, hint, present, if_true, root]
    · have hintless : manifestHint (some (manifestFor request (founding request s))) = none := by
        unfold manifestHint manifestFor manifestOf
        cases backend : request.backend with
        | none => rfl
        | some hint => simp [blank hint backend]
      have read : t.scene.disk.read
          (((directoryOf request).join (directoryOf request)).extend ["logs", name]) = .ok bytes := by
        rw [Disk.read, entry]
      simp only [Request.payload, resolved, Option.filter_some, present, if_true, backend, hintless,
        tailHint, read, Option.bind_some, Option.none_or]

end Summary

/-- A request to collect the results and the log of a workspace into an absolute directory. -/
def CollectionOrder.attached : CollectionOrder where
  root := ⟨"/ws"⟩
  destination := ⟨"/out"⟩
  timestamp := "T"
  log := some ⟨"x.log"⟩
  logDirectory := some ⟨"/ws"⟩

/-- A request to collect them into a relative directory. -/
def CollectionOrder.nearby : CollectionOrder :=
  { CollectionOrder.attached with destination := ⟨"out"⟩ }

/-- What is to be summarized is the absolute directory. -/
def Summary.Request.attached : Summary.Request where
  root := ⟨"/out-T"⟩

namespace Summary

open Collection

/-- The log of a collection in an absolute directory is resolved to its copy. -/
theorem absolute_log_resolved :
    Disk.logged.Sound ∧ (collect .attached).outcome .logged = .ok ⟨"/out-T"⟩ ∧
      attachment? .attached (gathering .attached (founding .attached .logged)).scene.disk =
        some ("x.log", Text.encode "RDBMS=tidb\n") ∧
      CollectionOrder.attached.removeSource = false ∧ (Path.mk "/out-T").isAbsolute = true ∧
      ∃ path place, ((collect .attached).after .logged).scene.disk.Leads ⟨"/out-T"⟩ place ∧
        (Request.attached.jsonOut = none → ∃ result,
          (summarize .attached).outcome ((collect .attached).after .logged) = .ok result) ∧
        ∀ result, (summarize .attached).outcome ((collect .attached).after .logged) = .ok result →
          Attached ⟨"/out-T"⟩ ((collect .attached).after .logged).scene.disk "x.log"
              (Text.encode "RDBMS=tidb\n") path place result ∧
            ((∀ hint, CollectionOrder.attached.backend = some hint → Text.trimmed hint = "") →
              result.payload.database =
                ((hintInLog (Text.encode "RDBMS=tidb\n")).or (nameHint path)).getD "unknown") := by
  have passed : (collect .attached).outcome .logged = .ok ⟨"/out-T"⟩ := by decide +kernel
  have found : attachment? .attached (gathering .attached (founding .attached .logged)).scene.disk =
      some ("x.log", Text.encode "RDBMS=tidb\n") := by decide +kernel
  have absolute : (Path.mk "/out-T").isAbsolute = true := by decide
  have whole : Request.attached.root = ⟨"/out-T"⟩ ∧ Request.attached.log = none ∧
      Request.attached.manifest = none := ⟨rfl, rfl, rfl⟩
  exact ⟨sound_logged, passed, found, rfl, absolute,
    attached_log_resolved sound_logged passed found (fun removes => absurd removes (by decide))
      (Or.inl absolute) whole⟩

/-- The log of a collection in a relative directory is looked for in a directory of that name within
the collection, so it is missing, and its last line about the backend is not heard. -/
theorem relative_log_missed :
    (collect .nearby).outcome .logged = .ok ⟨"out-T"⟩ ∧
      attachment? .nearby (gathering .nearby (founding .nearby .logged)).scene.disk =
        some ("x.log", Text.encode "RDBMS=tidb\n") ∧
      ((collect .nearby).after .logged).scene.disk.content? ["out-T", "logs", "x.log"] =
        some (Text.encode "RDBMS=tidb\n") ∧
      ((summarize { root := ⟨"out-T"⟩ }).outcome ((collect .nearby).after .logged)).toOption.map
          (fun result => (result.logHint, result.payload.database)) =
        some ("log: out-T/out-T/logs/x.log (missing)", "unknown") ∧
      hintInLog (Text.encode "RDBMS=tidb\n") = some "tidb" := by
  decide +kernel

end Summary

end DialectBench
