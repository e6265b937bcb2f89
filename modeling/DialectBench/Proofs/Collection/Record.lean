import DialectBench.Collection.Manifest
import DialectBench.Proofs.Json.Reading
import DialectBench.Proofs.Session.Outcome

/-! The manifest of a collection reads back as it was written. -/

namespace DialectBench

open Action

namespace JsonValue

/-- Members that can be read make an object that can be. -/
theorem legible_ofMembers {members : List (String × JsonValue)}
    (legible : ∀ member ∈ members, Legible member.2) : Legible (ofMembers members) := by
  refine legibleMembers_iff.mpr fun member inside => ?_
  obtain ⟨own, listed, rfl⟩ := List.mem_map.mp inside
  exact ⟨by simp, legible own listed⟩

/-- An object reads back with the same names. -/
theorem settled_ofMembers (members : List (String × JsonValue)) :
    settled (ofMembers members) = ofMembers (members.map fun member => (member.1, settled member.2)) := by
  rw [ofMembers, settled, settledMembers_eq, ofMembers, List.map_map, List.map_map]
  rfl

/-- A text or nothing can be read, and reads back as it is. -/
theorem legible_ofOption (content : Option String) :
    Legible (ofOption content) ∧ settled (ofOption content) = ofOption content := by
  cases content with
  | none => exact ⟨trivial, rfl⟩
  | some content => exact ⟨by simp [ofOption, ofString, Legible], rfl⟩

/-- Texts can be read, and read back as they are. -/
theorem legible_texts (texts : List String) :
    Legible (.array (texts.map ofString)) ∧
      settled (.array (texts.map ofString)) = .array (texts.map ofString) := by
  constructor
  · refine legibleItems_iff.mpr fun item inside => ?_
    obtain ⟨content, -, rfl⟩ := List.mem_map.mp inside
    simp [ofString, Legible]
  · rw [settled, settledItems_eq, List.map_map]
    exact congrArg _ (List.map_congr_left fun content _ => rfl)

/-- A list of texts is understood as these texts. -/
theorem texts?_array (texts : List String) :
    texts? (.array (texts.map ofString)) = some texts := by
  induction texts with
  | nil => rfl
  | cons content texts ih =>
    rw [texts?] at ih ⊢
    simp [List.mapM_cons, ih, ofString, text?]

/-- A text or nothing is understood as what it is. -/
theorem textOrNull?_ofOption (content : Option String) :
    textOrNull? (ofOption content) = some content := by
  cases content <;> rfl

/-- A text is understood as what it is where nothing might stand, too. -/
theorem textOrNull?_string (content : String) :
    textOrNull? (.string (some content)) = some (some content) :=
  rfl

end JsonValue

namespace Manifest

open JsonValue

variable {d : Disk} {path : Path} {s : Session}

/-- A manifest can be read, and reads back as it is. -/
theorem legible_toJson (manifest : Manifest) :
    Legible manifest.toJson ∧ settled manifest.toJson = manifest.toJson := by
  have log := legible_ofOption manifest.logCopy
  have modules := legible_texts manifest.modules
  constructor
  · refine legible_ofMembers fun member inside => ?_
    rcases List.mem_append.mp inside with known | backend
    · simp only [List.mem_cons, List.not_mem_nil, or_false] at known
      rcases known with rfl | rfl | rfl | rfl | rfl
      · simp [ofString, Legible]
      · simp [ofString, Legible]
      · simp [ofString, Legible]
      · exact log.1
      · exact modules.1
    · obtain ⟨name, -, rfl⟩ := List.mem_map.mp backend
      simp [ofString, Legible]
  · rw [toJson, settled_ofMembers, List.map_append, List.map_map]
    simp only [List.map_cons, List.map_nil, log.2, modules.2]
    rfl

/-- The value of a manifest is understood as the manifest. -/
theorem ofJson?_toJson (manifest : Manifest) : ofJson? manifest.toJson = some manifest := by
  obtain ⟨timestamp, sourceRoot, directory, logCopy, modules, backend⟩ := manifest
  cases backend <;>
    simp [ofJson?, toJson, ofMembers, fields?, memberNames, valuesOf, optional?, ofString, text?,
      texts?_array, textOrNull?_ofOption, textOrNull?_string]

/-- A file with the text of a manifest is understood as the manifest. -/
theorem readStored_text {manifest : Manifest}
    (holds : d.read path = .ok (Text.encode (manifest.toJson.text ++ "\n"))) :
    readStored d path ofJson? = .ok manifest := by
  obtain ⟨legible, settles⟩ := manifest.legible_toJson
  have read := read?_text legible
  rw [← Text.encode_append, settles] at read
  rw [readStored, holds]
  simp only [read, Option.bind_some, ofJson?_toJson]

/-- The manifest in a file with its text is found. -/
theorem load_text {manifest : Manifest}
    (holds : s.scene.disk.read path = .ok (Text.encode (manifest.toJson.text ++ "\n"))) :
    (load path).outcome s = .ok (some manifest) ∧ (load path).after s = s := by
  have there : s.scene.disk.exists? path = true := by
    unfold Disk.read at holds
    unfold Disk.exists?
    cases found : s.scene.disk.entry path with
    | ok entry => rfl
    | error refusal => simp [found] at holds
  have stored := readStored_text holds
  unfold load
  constructor
  · rw [outcome_bind_of_ok (rfl : (Action.disk).outcome s = .ok s.scene.disk)]
    rw [show (Action.disk).after s = s from rfl, if_pos there, stored]
    rfl
  · rw [after_bind_of_ok (rfl : (Action.disk).outcome s = .ok s.scene.disk)]
    rw [show (Action.disk).after s = s from rfl, if_pos there, stored]
    rfl

end Manifest

end DialectBench
