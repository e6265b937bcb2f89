import DialectBench.Proofs.Summary.Aggregate

/-!
Suite files: the XML documents below directories of test results whose root element is a test suite. Each
is read once, by the path to it.
-/

namespace DialectBench

open Disk

/-- The extension of a name is what stands after its last point, if something stands in front of that. -/
theorem Path.extensionOf?_eq_some {name suffix : String} :
    extensionOf? name = some suffix ↔
      ∃ stem : String, stem ≠ "" ∧ name = stem ++ "." ++ suffix ∧ '.' ∉ suffix.toList := by
  unfold extensionOf?
  constructor
  · intro found
    dsimp only at found
    split at found
    next point letter rest split =>
      obtain rfl := Option.some.inj found
      -- Read from behind, the first point is where the extension begins.
      have dot : point = '.' := by
        have stop := List.head_dropWhile_not (· != '.') (l := name.toList.reverse) (by simp [split])
        simpa [split] using stop
      have whole := List.takeWhile_append_dropWhile (p := (· != '.')) (l := name.toList.reverse)
      rw [split, dot] at whole
      refine ⟨String.ofList (letter :: rest).reverse, ?_, ?_, ?_⟩
      · intro none
        simpa using congrArg String.toList none
      · rw [← String.toList_inj, ← List.reverse_inj]
        simpa using whole.symm
      · intro member
        rw [String.toList_ofList, List.mem_reverse] at member
        simpa using List.all_eq_true.mp List.all_takeWhile _ member
    · simp at found
  · rintro ⟨stem, some, rfl, clean⟩
    -- There is no point behind the last one, so all of the suffix is taken.
    have ahead : ∀ letter ∈ suffix.toList.reverse, (letter != '.') = true := fun letter member =>
      bne_iff_ne.mpr fun dot => clean (dot ▸ List.mem_reverse.mp member)
    have backwards : (stem ++ "." ++ suffix).toList.reverse =
        suffix.toList.reverse ++ '.' :: stem.toList.reverse := by simp
    have front : stem.toList.reverse ≠ [] := by simpa using some
    obtain ⟨letter, rest, same⟩ := List.exists_cons_of_ne_nil front
    dsimp only
    rw [backwards, List.dropWhile_append_of_pos ahead, List.takeWhile_append_of_pos ahead, same]
    simp

namespace Suite

variable {d e : Disk} {root : Path} {place : Location} {way : List String} {totals : Totals}

/-- A file has the extension of XML if its name ends in a point and those letters in any case, with
something in front of the point. -/
theorem isXmlName_iff {name : String} :
    isXmlName name = true ↔ ∃ stem suffix : String, stem ≠ "" ∧ name = stem ++ "." ++ suffix ∧
      suffix.toList.map Char.toLower = "xml".toList := by
  unfold isXmlName
  constructor
  · intro xml
    split at xml
    next suffix found =>
      obtain ⟨stem, some, split, -⟩ := Path.extensionOf?_eq_some.mp found
      exact ⟨stem, suffix, some, split, by simpa using xml⟩
    · simp at xml
  · rintro ⟨stem, suffix, some, split, letters⟩
    -- None of the letters is a point, so the suffix is the whole extension.
    have clean : '.' ∉ suffix.toList := fun member => by
      have lower : ('.' : Char).toLower ∈ "xml".toList := letters ▸ List.mem_map_of_mem member
      exact absurd lower (by decide)
    rw [Path.extensionOf?_eq_some.mpr ⟨stem, some, split, clean⟩]
    simpa using letters

/-- A file below a place is the XML document of a test suite below a directory of test results. -/
structure HoldsCounts (d : Disk) (place : Location) (way : List String) (totals : Totals) :
    Prop where
  /-- Its name has the extension of XML in any case. -/
  xml : ∃ stem suffix : String, stem ≠ "" ∧ way.getLast? = some (stem ++ "." ++ suffix) ∧
    suffix.toList.map Char.toLower = "xml".toList
  /-- It lies below a directory of test results. -/
  inner : resultsName ∈ way.dropLast
  /-- Its text is a document with a test suite as root, whose attributes give the counts. -/
  suite : ∃ bytes text name attributes children, d.content? (place ++ way) = some bytes ∧
    Text.text? bytes = some text ∧
    Xml.root? text.toList = some (.element name attributes children) ∧
    name.base = "testsuite".toList ∧ totals = SuiteReport.totalsOf attributes

/-- A way is one to a result if it ends in the name of an XML file below a directory of test results. -/
theorem isResultWay_iff :
    isResultWay way = true ↔
      (∃ stem suffix : String, stem ≠ "" ∧ way.getLast? = some (stem ++ "." ++ suffix) ∧
        suffix.toList.map Char.toLower = "xml".toList) ∧ resultsName ∈ way.dropLast := by
  rw [isResultWay, Bool.and_eq_true, List.contains_iff_mem]
  refine and_congr_left fun _ => ?_
  unfold isXmlWay
  cases last : way.getLast? with
  | none => simp
  | some name => simp [isXmlName_iff]

/-- The counts of the report that a file holds. -/
def countsAt (d : Disk) (place : Location) (way : List String) : Option Totals :=
  (((d.content? (place ++ way)).bind Text.text?).bind SuiteReport.ofText?).map SuiteReport.totals

/-- A text is a report if it is a document with a test suite as root. -/
theorem ofText?_totals {text : String} :
    (SuiteReport.ofText? text).map SuiteReport.totals = some totals ↔
      ∃ name attributes children, Xml.root? text.toList = some (.element name attributes children) ∧
        name.base = "testsuite".toList ∧ totals = SuiteReport.totalsOf attributes := by
  unfold SuiteReport.ofText?
  constructor
  -- Only an element that is a suite has totals, and those are the ones of its attributes.
  · intro found
    split at found
    next name attributes children root =>
      split at found
      next own => exact ⟨name, attributes, children, root, own, (Option.some.inj found).symm⟩
      · simp at found
    · simp at found
  · rintro ⟨name, attributes, children, root, own, rfl⟩
    simp [root, own]

/-- A file has counts if it is a result that holds a report. -/
theorem holdsCounts_iff :
    HoldsCounts d place way totals ↔
      isResultWay way = true ∧ countsAt d place way = some totals := by
  -- The content, its text and the root of the document are read one after the other.
  have held : countsAt d place way = some totals ↔
      ∃ bytes text name attributes children, d.content? (place ++ way) = some bytes ∧
        Text.text? bytes = some text ∧
        Xml.root? text.toList = some (.element name attributes children) ∧
        name.base = "testsuite".toList ∧ totals = SuiteReport.totalsOf attributes := by
    unfold countsAt
    cases content : d.content? (place ++ way) with
    | none => simp
    | some bytes =>
      cases read : Text.text? bytes with
      | none => simp [read]
      | some text => simpa [read] using ofText?_totals
  rw [isResultWay_iff, held]
  exact ⟨fun ⟨xml, inner, suite⟩ => ⟨⟨xml, inner⟩, suite⟩, fun ⟨⟨xml, inner⟩, suite⟩ => ⟨xml, inner, suite⟩⟩

/-- The way to a file with the counts of the report that it holds. -/
def fileAt (d : Disk) (place : Location) (way : List String) : Option (List String × Totals) :=
  (countsAt d place way).map fun totals => (way, totals)

/-- The suite files below a directory with their counts, in the order of names. -/
def countedFiles (d : Disk) (root : Path) (place : Location) : List (List String × Totals) :=
  (resultWays d root).filterMap (fileAt d place)

/-- The suite files below a directory are those that hold counts. -/
theorem mem_countedFiles (sound : d.Sound) (leads : d.Leads root place) :
    (way, totals) ∈ countedFiles d root place ↔ HoldsCounts d place way totals := by
  rw [holdsCounts_iff, countedFiles, List.mem_filterMap]
  constructor
  · rintro ⟨other, listed, found⟩
    obtain ⟨totals', counts, same⟩ := Option.map_eq_some_iff.mp found
    obtain ⟨rfl, rfl⟩ := Prod.mk.inj same
    exact ⟨((mem_resultWays sound leads).mp listed).2, counts⟩
  · rintro ⟨result, counts⟩
    refine ⟨way, (mem_resultWays sound leads).mpr ⟨?_, result⟩, by rw [fileAt, counts]; rfl⟩
    intro none
    simp [countsAt, none] at counts

/-- No suite file is listed twice. -/
theorem nodup_countedFiles (sound : d.Sound) (root : Path) (place : Location) :
    ((countedFiles d root place).map Prod.fst).Nodup := by
  -- The ways are in ascending order, and only some of them have counts.
  have distinct : (resultWays d root).Nodup :=
    nodup_of_ascending ((fileWays_ascending sound root).filter _)
  refine distinct.sublist ?_
  unfold countedFiles
  induction resultWays d root with
  | nil => exact List.nil_sublist _
  | cons way ways ih =>
    rw [List.filterMap_cons, fileAt]
    cases countsAt d place way with
    | none => exact ih.cons way
    | some totals => exact ih.cons_cons way

/-- A result file is read by the path to it. -/
theorem totals_of_listed (sound : d.Sound) (leads : d.Leads root place)
    (listed : way ∈ resultWays d root) :
    (SuiteReport.read? d (root.extend way)).map SuiteReport.totals = countsAt d place way := by
  obtain ⟨there, -⟩ := (mem_resultWays sound leads).mp listed
  obtain ⟨bytes, held⟩ := Option.ne_none_iff_exists'.mp there
  have text : d.readText? (root.extend way) = Text.text? bytes := by
    rw [readText?, readText, leads.read_file sound held]
    cases read : Text.text? bytes <;> simp [read, Except.toOption]
  rw [SuiteReport.read?, text, countsAt, held]
  rfl

end Suite

namespace Summary

variable {d : Disk} {root : Path} {place : Location}

/-- The suites below a directory are the suite files in it, each with its module. -/
theorem suites_eq_map (sound : d.Sound) (leads : d.Leads root place) :
    suites d root =
      (Suite.countedFiles d root place).map fun file => (Suite.moduleOf file.1, file.2) := by
  unfold suites Suite.countedFiles
  rw [List.map_filterMap]
  refine List.filterMap_congr fun way listed => ?_
  rw [Suite.fileAt, ← Suite.totals_of_listed sound leads listed, Option.map_map, Option.map_map]
  rfl

end Summary

end DialectBench
