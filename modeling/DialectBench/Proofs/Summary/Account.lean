import DialectBench.Proofs.Session.Outcome
import DialectBench.Summary.Account

/-! What a summary of a directory with a manifest says. -/

namespace DialectBench.Summary

open Action

/-- The file that the manifest is looked for in. -/
def Request.manifestPath (request : Request) : Path :=
  request.manifest.getD (request.root / Manifest.fileName)

/-- The log of a directory with a manifest. -/
def Request.logOf (request : Request) (manifest : Manifest) (d : Disk) : Option Path :=
  logPath d request.log request.root (some manifest) request.logDirectory

/-- What a summary of a directory with a manifest says. -/
def Request.payload (request : Request) (manifest : Manifest) (scene : Scene) : Payload where
  generatedAt := scene.moment.universal
  timestamp := request.timestamp.getD manifest.timestamp
  root := request.root.text
  manifest := if scene.disk.exists? request.manifestPath then some request.manifestPath.text else none
  database := backend scene.disk (some manifest)
    ((request.logOf manifest scene.disk).filter fun path => scene.disk.exists? path)
  overall := (sumsBelow scene.disk request.root).overall
  modules := (sumsBelow scene.disk request.root).modules
  log := (request.logOf manifest scene.disk).map Path.text

variable {request : Request} {manifest : Manifest} {s : Session}

/-- A directory with a manifest is summarized by what is in it, and then the summary is written. -/
theorem summarize_of_manifest (stands : s.scene.disk.isDirectory request.root = true)
    (loaded : (Manifest.load request.manifestPath).outcome s = .ok (some manifest))
    (still : (Manifest.load request.manifestPath).after s = s) :
    (summarize request).outcome s =
        ((writeIf request.jsonOut (request.payload manifest s.scene)).outcome s).map (fun path =>
          { payload := request.payload manifest s.scene, jsonPath := path,
            logHint := hint s.scene.disk request.root (request.logOf manifest s.scene.disk) }) ∧
      (summarize request).after s =
        (writeIf request.jsonOut (request.payload manifest s.scene)).after s := by
  have stamp : (request.timestamp.or ((some manifest).map Manifest.timestamp)).getD
      s.scene.moment.stamp = request.timestamp.getD manifest.timestamp := by
    cases request.timestamp <;> rfl
  unfold summarize
  rw [outcome_bind_of_ok (outcome_look _ s), after_bind_of_ok (outcome_look _ s), after_look, stands,
    if_pos rfl]
  rw [← Request.manifestPath, outcome_bind_of_ok loaded, after_bind_of_ok loaded, still]
  rw [outcome_bind_of_ok (rfl : (Action.disk).outcome s = .ok s.scene.disk),
    after_bind_of_ok (rfl : (Action.disk).outcome s = .ok s.scene.disk),
    show (Action.disk).after s = s from rfl,
    outcome_bind_of_ok (outcome_stamp s), after_bind_of_ok (outcome_stamp s), after_stamp, stamp]
  rw [outcome_bind_of_ok (rfl : universal.outcome s = .ok s.scene.moment.universal),
    after_bind_of_ok (rfl : universal.outcome s = .ok s.scene.moment.universal),
    show universal.after s = s from rfl]
  rw [bind_pure_comp]
  exact ⟨outcome_map _ _ s, after_map _ _ s⟩

end DialectBench.Summary
