import DialectBench.Bench.Comparison
import DialectBench.Proofs.Collection.Record
import DialectBench.Proofs.Json.Double
import DialectBench.Proofs.Session.Upkeep

/-! What a summary stores is what a comparison reads. -/

namespace DialectBench

namespace Totals

open JsonValue

variable {totals : Totals}

/-- All counts fit into 64 bits. -/
structure Fits (totals : Totals) : Prop where
  /-- The files do. -/
  files : totals.files < Number.wordSize
  /-- The tests do. -/
  tests : totals.tests < Number.wordSize
  /-- The failures do. -/
  failures : totals.failures < Number.wordSize
  /-- The errors do. -/
  errors : totals.errors < Number.wordSize
  /-- The skipped tests do. -/
  skipped : totals.skipped < Number.wordSize

/-- A time can be read, whatever it is. -/
theorem legible_timeJson (time : Float) : Legible (timeJson time) := by
  unfold timeJson
  split
  · exact isNumeral_text timeLayout .plus time
  · trivial

/-- Totals can be read. -/
theorem legible_toJson (totals : Totals) : Legible totals.toJson := by
  refine legible_ofMembers fun member inside => ?_
  simp only [List.mem_cons, List.not_mem_nil, or_false] at inside
  rcases inside with rfl | rfl | rfl | rfl | rfl | rfl
  case inr.inr.inr.inr.inr => exact legible_timeJson totals.time
  all_goals exact isNumeral_toString _

/-- A count reads back as it is. -/
theorem settled_ofNat (count : Nat) : settled (ofNat count) = ofNat count := by
  rw [ofNat, settled, Nat.toString_eq_ofList_toDigits, String.toList_ofList,
    kept_digits (isWhole_toDigits count).isDigit]

/-- What is written of totals is understood as the same counts and the time that is read. -/
theorem ofJson?_settled (fits : totals.Fits) :
    ofJson? (settled totals.toJson) =
      (settled (timeJson totals.time)).double?.map fun time => { totals with time } := by
  rw [toJson, settled_ofMembers]
  simp only [List.map_cons, List.map_nil, settled_ofNat]
  generalize settled (timeJson totals.time) = time
  -- Each member is found once, under the name that it was written with.
  have found : (JsonValue.ofMembers [
      ("files", .ofNat totals.files), ("tests", .ofNat totals.tests),
      ("failures", .ofNat totals.failures), ("errors", .ofNat totals.errors),
      ("skipped", .ofNat totals.skipped), ("time", time)]).fields? memberNames =
        some ⟨[some (.ofNat totals.files), some (.ofNat totals.tests),
          some (.ofNat totals.failures), some (.ofNat totals.errors),
          some (.ofNat totals.skipped), some time], false⟩ := by
    simp [fields?, ofMembers, memberNames, valuesOf]
  rw [ofJson?, found]
  simp only [countOr, count?_ofNat fits.files, count?_ofNat fits.tests, count?_ofNat fits.failures,
    count?_ofNat fits.errors, count?_ofNat fits.skipped]
  cases time.double? <;> rfl

end Totals

namespace Summary

open JsonValue

/-- A summary can be read, whatever it says. -/
theorem Payload.legible_toJson (payload : Payload) : Legible payload.toJson := by
  refine legible_ofMembers fun member inside => ?_
  rcases List.mem_append.mp inside with known | log
  -- Every member of a summary is a text, may be left out, or is an object of totals.
  · simp only [List.mem_cons, List.not_mem_nil, or_false] at known
    rcases known with rfl | rfl | rfl | rfl | rfl | rfl | rfl
    case inr.inr.inr.inl => exact (legible_ofOption _).1
    case inr.inr.inr.inr.inr.inl => exact payload.overall.legible_toJson
    case inr.inr.inr.inr.inr.inr =>
      refine legible_ofMembers fun module' listed => ?_
      obtain ⟨⟨name, totals⟩, -, rfl⟩ := List.mem_map.mp listed
      exact totals.legible_toJson
    all_goals simp [ofString, Legible]
  -- The member for the log is there only with a path.
  · obtain ⟨path, -, rfl⟩ := List.mem_map.mp log
    simp [ofString, Legible]

/-- What is written of a summary is understood as the sums over all suites. -/
theorem Payload.totalsOf?_settled (payload : Payload) :
    Comparison.totalsOf? (settled payload.toJson) =
      Totals.ofJson? (settled payload.overall.toJson) := by
  have found : (settled payload.toJson).fields? ["overall"] =
      some ⟨[some (settled payload.overall.toJson)], false⟩ := by
    rw [Payload.toJson, settled_ofMembers]
    cases payload.log <;> simp [fields?, ofMembers, valuesOf]
  rw [Comparison.totalsOf?, found]

end Summary

open Action

/-- A JSON file that was written holds the text of the value and a line feed. -/
theorem Action.read_writeJson {path : Path} {value : JsonValue} {s : Session}
    (sound : s.scene.disk.Sound) (passed : (writeJson path value).outcome s = .ok ()) :
    ((writeJson path value).after s).scene.disk.read path =
      .ok (Text.encode (value.text ++ "\n")) := by
  obtain ⟨places, between, makes, ⟨failure, failed, -⟩ | ⟨-, goal, writable, puts⟩⟩ :=
    writeJson_ends sound path value
  · rw [passed] at failed
    cases failed
  · exact puts.read_eq (makes.sound sound) writable

namespace Summary

variable {request : Request} {s : Session} {result : Result} {path : Path}

/-- A summary for which a file was wanted is in it. -/
theorem read_writeIf {out : Option Path} {payload : Payload} (sound : s.scene.disk.Sound)
    (wrote : (writeIf out payload).outcome s = .ok (some path)) :
    ((writeIf out payload).after s).scene.disk.read path =
      .ok (Text.encode (payload.toJson.text ++ "\n")) := by
  cases out with
  | none => cases wrote
  -- The path that is told is the one that was written to.
  | some out =>
    unfold writeIf at wrote ⊢
    obtain ⟨_, passed, same⟩ := outcome_bind_eq_ok.mp wrote
    obtain rfl := Option.some.inj (Except.ok.inj same)
    rw [after_bind_of_ok passed, after_pure]
    exact read_writeJson sound passed

/-- A summary that was written is in its file. -/
theorem read_summarize (sound : s.scene.disk.Sound)
    (passed : (summarize request).outcome s = .ok result) (wrote : result.jsonPath = some path) :
    ((summarize request).after s).scene.disk.read path =
      .ok (Text.encode (result.payload.toJson.text ++ "\n")) := by
  unfold summarize at passed ⊢
  obtain ⟨present, looked, passed⟩ := outcome_bind_eq_ok.mp passed
  rw [after_bind_of_ok looked, after_look] at *
  -- Without a directory there is nothing to be summarized.
  split at passed
  next stands =>
    rw [if_pos stands]
    obtain ⟨manifest, loaded, passed⟩ := outcome_bind_eq_ok.mp passed
    rw [after_bind_of_ok loaded]
    -- Loading the manifest leaves the tree as it is, so the file is written in a sound tree.
    have sound' : ((Manifest.load (request.manifest.getD
        (request.root / Manifest.fileName))).after s).scene.disk.Sound :=
      (Manifest.upholds_load _).after_of_quiet (Manifest.quiet_load _) sound
    generalize (Manifest.load (request.manifest.getD
      (request.root / Manifest.fileName))).after s = t at passed sound' ⊢
    have disk : (Action.disk).outcome t = .ok t.scene.disk ∧ (Action.disk).after t = t := ⟨rfl, rfl⟩
    have now : universal.outcome t = .ok t.scene.moment.universal ∧ universal.after t = t :=
      ⟨rfl, rfl⟩
    rw [outcome_bind_of_ok disk.1, disk.2, outcome_bind_of_ok (outcome_stamp t), after_stamp,
      outcome_bind_of_ok now.1, now.2] at passed
    rw [after_bind_of_ok disk.1, disk.2, after_bind_of_ok (outcome_stamp t), after_stamp,
      after_bind_of_ok now.1, now.2]
    rw [bind_pure_comp, outcome_map, map_eq_ok] at passed
    rw [bind_pure_comp, after_map]
    -- The summary ends with the file that is written, if one is.
    obtain ⟨file, written, rfl⟩ := passed
    obtain rfl : file = some path := wrote
    exact read_writeIf sound' written
  next => cases passed

/-- A stored summary whose counts fit into 64 bits is read by a comparison with these counts and the time
that is read, if one is. -/
theorem storedTotals_of_read {d : Disk} {payload : Payload}
    (read : d.read path = .ok (Text.encode (payload.toJson.text ++ "\n")))
    (fits : payload.overall.Fits) :
    Comparison.storedTotals d path =
      match (JsonValue.settled (Totals.timeJson payload.overall.time)).double? with
      | some time => .ok { payload.overall with time }
      | none => .error (.of (.parseFile path)) := by
  -- The line feed behind the text is blank, so the text is read as if it ended there.
  have understood := JsonValue.read?_text payload.legible_toJson
  rw [← Text.encode_append] at understood
  rw [Comparison.storedTotals, readStored, read]
  simp only [understood, Option.bind_some, Payload.totalsOf?_settled, Totals.ofJson?_settled fits]
  cases (JsonValue.settled (Totals.timeJson payload.overall.time)).double? <;> rfl

/-- A summary whose counts fit into 64 bits is read by a comparison with the same counts if the time
in all is finite; otherwise the time is left open, and the file cannot be read. -/
theorem stored_totals_of_summarize (sound : s.scene.disk.Sound)
    (passed : (summarize request).outcome s = .ok result) (wrote : result.jsonPath = some path)
    (fits : result.payload.overall.Fits) :
    (result.payload.overall.time.isFinite = true → ∃ time,
      Comparison.storedTotals ((summarize request).after s).scene.disk path =
        .ok { result.payload.overall with time }) ∧
      (result.payload.overall.time.isFinite = false →
        Comparison.storedTotals ((summarize request).after s).scene.disk path =
          .error (.of (.parseFile path))) := by
  -- What is left open is the time alone, and it reads if and only if it is finite.
  rw [storedTotals_of_read (read_summarize sound passed wrote) fits]
  constructor
  · intro finite
    obtain ⟨time, reads⟩ := Option.isSome_iff_exists.mp (JsonValue.double?_timeJson finite)
    exact ⟨time, by rw [reads]⟩
  · intro infinite
    rw [JsonValue.double?_timeJson_of_not_isFinite infinite]

end Summary

/-- Two reports of suites that took the same time. -/
def Disk.timed (time : String) : Disk where
  entries := [(["c"], .directory 0), (["c", "target"], .directory 0),
    (["c", "target", "test-results"], .directory 0),
    (["c", "target", "test-results", "a.xml"],
      .file (Text.encode ("<testsuite tests=\"1\" time=\"" ++ time ++ "\"/>")) false 0),
    (["c", "target", "test-results", "b.xml"],
      .file (Text.encode ("<testsuite tests=\"2\" time=\"" ++ time ++ "\"/>")) false 0)]
  current := []
  clock := 0

/-- A session with them. -/
def Session.timed (time : String) : Session where
  scene := ⟨Disk.timed time, false, ⟨"20250101-000000", "2025-01-01T00:00:00Z"⟩⟩

/-- A summary of them is wanted. -/
def Summary.Request.timed : Summary.Request where
  root := ⟨"/c"⟩
  jsonOut := some ⟨"/s.json"⟩

namespace Summary

/-- The tree is sound whatever the time. -/
theorem sound_timed (time : String) : (Disk.timed time).Sound := by
  have own : (Disk.timed time).places = [["c"], ["c", "target"], ["c", "target", "test-results"],
    ["c", "target", "test-results", "a.xml"], ["c", "target", "test-results", "b.xml"]] := rfl
  refine ⟨?_, ?_, ?_, ?_⟩ <;> rw [own]
  · decide
  · decide
  · decide
  · intro place inside
    simp only [List.mem_cons, List.not_mem_nil, or_false] at inside
    rcases inside with rfl | rfl | rfl | rfl | rfl <;> rfl

/-- The two suites are summed up, and the summary is written. -/
def Told (finite : Bool) (result : Result) : Prop :=
  result.jsonPath = some ⟨"/s.json"⟩ ∧ result.payload.overall.files = 2 ∧
    result.payload.overall.tests = 3 ∧ result.payload.overall.failures = 0 ∧
    result.payload.overall.errors = 0 ∧ result.payload.overall.skipped = 0 ∧
    result.payload.overall.time.isFinite = finite

instance (finite : Bool) (result : Result) : Decidable (Told finite result) :=
  inferInstanceAs (Decidable (_ ∧ _))

theorem Told.fits {finite : Bool} (told : Told finite result) : result.payload.overall.Fits := by
  obtain ⟨-, files, tests, failures, errors, skipped, -⟩ := told
  constructor <;> simp only [files, tests, failures, errors, skipped] <;> decide

/-- A summary is what it is evaluated to. -/
theorem exists_of_told (finite : Bool) (evaluated :
      ((summarize request).outcome s).toOption.any (fun result => decide (Told finite result)) = true) :
    ∃ result, (summarize request).outcome s = .ok result ∧ Told finite result := by
  cases outcome : (summarize request).outcome s with
  | error failure => simp [outcome, Except.toOption] at evaluated
  | ok result => exact ⟨result, rfl, by simpa [outcome, Except.toOption] using evaluated⟩

/-- A summary of two suites that took half a second each is read. -/
theorem halves_stored :
    (Disk.timed "0.5").Sound ∧ ∃ result,
      (summarize .timed).outcome (.timed "0.5") = .ok result ∧
        result.jsonPath = some ⟨"/s.json"⟩ ∧ result.payload.overall.Fits ∧
        result.payload.overall.time.isFinite = true ∧ ∃ time,
          Comparison.storedTotals ((summarize .timed).after (.timed "0.5")).scene.disk ⟨"/s.json"⟩ =
            .ok { result.payload.overall with time } := by
  obtain ⟨result, passed, told⟩ := exists_of_told true
    (show ((summarize .timed).outcome (.timed "0.5")).toOption.any _ = true by decide +kernel)
  have finite := told.2.2.2.2.2.2
  exact ⟨sound_timed _, result, passed, told.1, told.fits, finite,
    (stored_totals_of_summarize (sound_timed _) passed told.1 told.fits).1 finite⟩

/-- Each of two suites took a finite time, but the sum is not finite, and the summary that was written
cannot be read. -/
theorem infinite_sum_unread :
    (Disk.timed "1e308").Sound ∧ ∃ result,
      (summarize .timed).outcome (.timed "1e308") = .ok result ∧
        result.jsonPath = some ⟨"/s.json"⟩ ∧ result.payload.overall.Fits ∧
        ∀ totals,
          Comparison.storedTotals ((summarize .timed).after (.timed "1e308")).scene.disk
            ⟨"/s.json"⟩ ≠ .ok totals := by
  obtain ⟨result, passed, told⟩ := exists_of_told false
    (show ((summarize .timed).outcome (.timed "1e308")).toOption.any _ = true by decide +kernel)
  refine ⟨sound_timed _, result, passed, told.1, told.fits, fun totals => ?_⟩
  rw [storedTotals_of_read (read_summarize (sound_timed _) passed told.1) told.fits,
    JsonValue.double?_timeJson_of_not_isFinite told.2.2.2.2.2.2]
  simp

end Summary

end DialectBench
