import DialectBench.Summary.Backend
import DialectBench.Proofs.Disk.Way
import DialectBench.Proofs.Text.Blank
import DialectBench.Proofs.Text.Line
import DialectBench.Proofs.Text.Utf8

/-! The backend of results is the last one that the end of their log names, where no manifest names one. -/

namespace DialectBench.Summary

open Text

/-- The byte of a line feed. -/
def lineFeed : UInt8 := 0x0A

/-- Bytes whose last line is not left open: there are none, or a line feed ends them. -/
def WholeLines (content : Bytes) : Prop :=
  content = [] ∨ ∃ front, content = front ++ [lineFeed]

/-- A line gives the variable of the backend a value that is not blank. -/
def Assigns (line value : String) : Prop :=
  ∃ given, trimmed line = "RDBMS=" ++ given ∧ trimmed given = value ∧ value ≠ ""

section Lines

variable {line value : String}

/-- The hint of a line is the value that it gives the variable. -/
theorem hintOf_eq_some : hintOf line = some value ↔ Assigns line value := by
  have key : ("RDBMS=" : String).toList = "RDBMS".toList ++ ['='] := by decide
  unfold hintOf
  constructor
  · intro found
    cases cut : splitOnce '=' (trimmed line) with
    | none => simp [cut] at found
    | some parts =>
      -- In front of the first equals sign stands the name of the variable.
      obtain ⟨name, given⟩ := parts
      simp only [cut, Option.ite_none_right_eq_some, Bool.and_eq_true, decide_eq_true_eq,
        Option.some.injEq, Bool.not_eq_true'] at found
      obtain ⟨⟨rfl, some⟩, rfl⟩ := found
      obtain ⟨⟨front, back⟩, cutting, same⟩ := Option.map_eq_some_iff.mp cut
      obtain ⟨named, rfl⟩ := Prod.mk.inj same
      have whole := eq_append_of_cutOnce cutting
      refine ⟨String.ofList back, ?_, rfl, ?_⟩
      · have name : front = ['R', 'D', 'B', 'M', 'S'] := by
          rw [← String.toList_ofList (l := front), named]
          rfl
        have rest : (String.ofList back).toList = back := String.toList_ofList
        rw [← String.toList_inj, whole, String.toList_append, rest, name]
        rfl
      · rintro empty
        simp [empty] at some
  · -- The name holds no equals sign, so the line is cut behind it.
    rintro ⟨given, whole, rfl, some⟩
    have cut : splitOnce '=' (trimmed line) = Option.some ("RDBMS", given) := by
      have absent : '=' ∉ "RDBMS".toList := by decide
      rw [splitOnce, whole, String.toList_append, key, List.append_assoc, List.singleton_append,
        cutOnce_append_cons absent]
      simp
    simp only [cut, decide_true, Bool.true_and]
    exact if_pos (by simpa using some)

/-- A line gives no hint if it gives the variable no value. -/
theorem hintOf_eq_none : hintOf line = none ↔ ∀ value, ¬ Assigns line value := by
  simp only [← hintOf_eq_some, Option.eq_none_iff_forall_ne_some, ne_eq]

/-- An assignment to the variable gives it its value without the blanks around it. -/
theorem assigns_line {line : List Char} (same : trim line = trim ("RDBMS=" ++ value).toList)
    (some : trimmed value ≠ "") : Assigns (String.ofList line) (trimmed value) := by
  refine ⟨String.ofList (trimEnd value.toList), ?_, ?_, some⟩
  · -- In front of the value nothing is blank, so only its own end is trimmed.
    have key : ("RDBMS=" ++ value).toList = 'R' :: "DBMS".toList ++ '=' :: value.toList := by
      rw [String.toList_append]
      rfl
    have plain : trim ("RDBMS=" ++ value).toList = 'R' :: "DBMS".toList ++ '=' :: trimEnd value.toList := by
      rw [key]
      exact trim_cons_append_cons (by decide) (by decide) _ _
    have rest : (String.ofList (trimEnd value.toList)).toList = trimEnd value.toList :=
      String.toList_ofList
    rw [← String.toList_inj, trimmed, String.toList_ofList, String.toList_ofList, same, plain,
      String.toList_append, rest]
    rfl
  · rw [trimmed, String.toList_ofList, trim_trimEnd]
    rfl

/-- The last value in the lines at the end is found if so many lines at most follow it, none of them an
assignment. -/
theorem hintAmong_append {before after : List String} (assigns : Assigns line value)
    (few : after.length < tailLength) (others : ∀ other ∈ after, ∀ value, ¬ Assigns other value) :
    hintAmong ((before ++ line :: after).reverse.take tailLength) = some value := by
  -- From the end the lines that follow come first and give nothing.
  have room : tailLength - after.length = tailLength - after.length - 1 + 1 := by omega
  have silent : after.reverse.findSome? hintOf = none := by
    rw [List.findSome?_eq_none_iff]
    intro other listed
    exact hintOf_eq_none.mpr (others other (List.mem_reverse.mp listed))
  rw [List.reverse_append, List.reverse_cons, List.append_assoc, List.take_append, List.length_reverse,
    List.take_of_length_le (by rw [List.length_reverse]; omega), List.singleton_append, room,
    List.take_succ_cons, hintAmong, List.findSome?_append, silent, Option.none_or,
    List.findSome?_cons, hintOf_eq_some.mpr assigns]

/-- Lines in front of so many others are not looked through. -/
theorem take_reverse_append {before after : List String} (many : tailLength ≤ after.length) :
    (before ++ after).reverse.take tailLength = after.reverse.take tailLength := by
  rw [List.reverse_append, List.take_append_of_le_length (by rw [List.length_reverse]; exact many)]

end Lines

section Content

variable {content : Bytes}

/-- Behind lines that are ended bytes are read as if they began there. -/
theorem textLossy_append (whole : WholeLines content) (rest : Bytes) :
    textLossy (content ++ rest) = textLossy content ++ textLossy rest := by
  -- Nothing is read of no bytes.
  rcases whole with rfl | ⟨front, rfl⟩
  · have none : textLossy [] = "" := by simp [textLossy, glyphs]
    rw [none, List.nil_append, String.empty_append]
  · -- A line feed is a character of its own, which no sequence of bytes goes beyond.
    have small : lineFeed < 0x80 := by decide
    have none : glyphs [] = [] := by rw [glyphs]
    rw [← String.toList_inj, String.toList_append]
    simp only [textLossy, String.toList_ofList]
    rw [List.append_assoc, List.singleton_append, glyphs_append_cons small, glyphs_append_cons small, none]
    simp

/-- The text of lines that are ended is ended. -/
theorem endsLine_textLossy (whole : WholeLines content) : EndsLine (textLossy content) := by
  -- No bytes have no text, and a line feed at the end of the bytes is one at the end of the text.
  rcases whole with rfl | ⟨front, rfl⟩
  · left
    simp [textLossy, glyphs]
  · right
    have feed : WholeLines [lineFeed] := .inr ⟨[], rfl⟩
    have small : lineFeed < 0x80 := by decide
    refine ⟨textLossy front, ?_⟩
    rw [← String.toList_inj, String.toList_append]
    simp only [textLossy, String.toList_ofList]
    rw [glyphs_append_cons small, List.map_append]
    simp [glyphs]
    rfl

/-- The lines of bytes are those of the ended lines in front and those of the rest. -/
theorem lines_textLossy_append (whole : WholeLines content) (rest : Bytes) :
    lines (textLossy (content ++ rest)) = lines (textLossy content) ++ lines (textLossy rest) := by
  rw [textLossy_append whole, lines_append (endsLine_textLossy whole)]

/-- A text with a line feed behind it is written as a line that is ended. -/
theorem wholeLines_encode (s : String) : WholeLines (encode (s ++ "\n")) :=
  .inr ⟨encode s, by rw [encode_append]; rfl⟩

end Content

section Tail

variable {d e : Disk} {path other : Path} {content : Bytes} {value : String}

/-- The hint of a file that can be read is that of its bytes. -/
theorem tailHint_of_read (read : d.read path = .ok content) : tailHint d path = hintInLog content := by
  rw [tailHint, read]

/-- A hint that a log gives is not empty. -/
theorem ne_empty_of_tailHint (told : tailHint d path = some value) : value ≠ "" := by
  cases read : d.read path with
  | error refusal => simp [tailHint, read] at told
  | ok content =>
    rw [tailHint_of_read read] at told
    obtain ⟨line, -, hint⟩ := List.exists_of_findSome?_eq_some told
    obtain ⟨given, -, -, some⟩ := hintOf_eq_some.mp hint
    exact some

/-- An assignment behind whole lines is the hint if fewer lines than are looked through follow it, none of them
an assignment. -/
theorem hintInLog_append {later : Bytes} (whole : WholeLines content) (single : '\n' ∉ value.toList)
    (solid : trimmed value ≠ "") (few : (lines (textLossy later)).length < tailLength)
    (others : ∀ line ∈ lines (textLossy later), ∀ other, ¬ Assigns line other) :
    hintInLog (content ++ encode ("RDBMS=" ++ value ++ "\n") ++ later) = some (trimmed value) := by
  -- The whole assignment is one line, since there is no line feed in the value.
  have plain : '\n' ∉ ("RDBMS=" ++ value).toList := by
    rw [String.toList_append, List.mem_append]
    rintro (inside | inside)
    · exact absurd inside (by decide)
    · exact single inside
  -- A carriage return at the end of the line is a blank of the value.
  have same : trim (bare (("RDBMS=" ++ value).toList ++ ['\n'])) = trim ("RDBMS=" ++ value).toList := by
    rcases bare_append_feed ("RDBMS=" ++ value).toList with bare | returned
    · rw [bare]
    · conv_rhs => rw [returned]
      exact (trim_concat (by decide) _).symm
  -- The lines in front, the assignment and the lines behind it are read apart.
  rw [hintInLog, List.append_assoc, lines_textLossy_append whole,
    lines_textLossy_append (wholeLines_encode _), textLossy_encode, lines_line plain,
    List.singleton_append]
  exact hintAmong_append (assigns_line same solid) few others

/-- What stands in front of as many lines as are looked through makes no difference. -/
theorem hintInLog_append_of_many {earlier : Bytes} (whole : WholeLines earlier)
    (many : tailLength ≤ (lines (textLossy content)).length) :
    hintInLog (earlier ++ content) = hintInLog content := by
  rw [hintInLog, hintInLog, lines_textLossy_append whole, take_reverse_append many]

end Tail

section Decision

variable {d : Disk} {manifest : Option Manifest} {log : Option Path} {path : Path} {value : String}

/-- No backend is named by the manifest: there is none, or none in it, or a blank one. -/
def Silent (manifest : Option Manifest) : Prop :=
  ∀ hint, manifest.bind Manifest.backend = some hint → trimmed hint = ""

/-- What decides the backend: the manifest, and without a word of it the end of the log, and then the name of
the log, and then nothing. -/
inductive Decides (d : Disk) (manifest : Option Manifest) (log : Option Path) : String → Prop where
  /-- The manifest names it. -/
  | manifest {hint : String} (named : manifest.bind Manifest.backend = some hint)
      (solid : trimmed hint ≠ "") : Decides d manifest log (trimmed hint)
  /-- The end of the log gives it. -/
  | tail {path : Path} {value : String} (silent : Silent manifest) (there : log = some path)
      (told : tailHint d path = some value) : Decides d manifest log value
  /-- The name of the log begins with it. -/
  | name {path : Path} {value : String} (silent : Silent manifest) (there : log = some path)
      (untold : tailHint d path = none) (begins : nameHint path = some value) : Decides d manifest log value
  /-- Nothing tells it. -/
  | unknown (silent : Silent manifest)
      (untold : ∀ path, log = some path → tailHint d path = none ∧ nameHint path = none) :
      Decides d manifest log "unknown"

/-- The hint of a manifest is what it names, if that is not blank. -/
theorem manifestHint_eq_some : manifestHint manifest = some value ↔
    ∃ hint, manifest.bind Manifest.backend = some hint ∧ trimmed hint = value ∧ value ≠ "" := by
  simp only [manifestHint, Option.filter_eq_some_iff, Option.map_eq_some_iff, Bool.not_eq_true',
    String.isEmpty_eq_false_iff, ne_eq]
  constructor
  · rintro ⟨⟨hint, named, rfl⟩, some⟩
    exact ⟨hint, named, rfl, some⟩
  · rintro ⟨hint, named, rfl, some⟩
    exact ⟨⟨hint, named, rfl⟩, some⟩

/-- A manifest without a word of the backend gives no hint. -/
theorem manifestHint_eq_none : manifestHint manifest = none ↔ Silent manifest := by
  rw [Option.eq_none_iff_forall_ne_some]
  constructor
  · intro none hint named
    by_contra some
    exact none _ (manifestHint_eq_some.mpr ⟨hint, named, rfl, some⟩)
  · intro silent value told
    obtain ⟨hint, named, rfl, some⟩ := manifestHint_eq_some.mp told
    exact some (silent hint named)

/-- A text begins with one of two backends at most. -/
theorem not_startsWith_both {name : String} (mysql : startsWith name "mysql-ci" = true) :
    startsWith name "tidb-ci" = false := by
  rw [startsWith, List.isPrefixOf_iff_prefix] at mysql
  obtain ⟨rest, whole⟩ := mysql
  rw [startsWith, ← whole]
  rfl

/-- The name of a log gives one of two backends by what it begins with, whatever the case of its letters. -/
theorem nameHint_eq_some : nameHint path = some value ↔
    ∃ name, path.fileName? = some name ∧
      (startsWith (String.ofList (name.toList.map Char.toLower)) "mysql-ci" = true ∧ value = "mysql_8_0" ∨
        startsWith (String.ofList (name.toList.map Char.toLower)) "tidb-ci" = true ∧ value = "tidb") := by
  unfold nameHint
  -- The name is compared in small letters, and it cannot begin with both words.
  cases path.fileName? with
  | none => simp
  | some name =>
    simp only [Option.some.injEq, exists_eq_left']
    generalize String.ofList (name.toList.map Char.toLower) = name
    by_cases mysql : startsWith name "mysql-ci" = true
    · simp [mysql, not_startsWith_both mysql, eq_comm]
    · by_cases tidb : startsWith name "tidb-ci" = true <;> simp [mysql, tidb, eq_comm]

/-- The backend is what decides it. -/
theorem backend_eq_iff : backend d manifest log = value ↔ Decides d manifest log value := by
  have decided : Decides d manifest log (backend d manifest log) := by
    unfold backend
    -- The sources are asked in turn, and the first that answers decides.
    cases named : manifestHint manifest with
    | some hint =>
      obtain ⟨word, there, rfl, solid⟩ := manifestHint_eq_some.mp named
      exact .manifest there solid
    | none =>
      have silent := manifestHint_eq_none.mp named
      cases log with
      | none => exact .unknown silent fun _ there => by cases there
      | some path =>
        simp only [Option.none_or, Option.bind_some]
        cases told : tailHint d path with
        | some hint => exact .tail silent rfl told
        | none =>
          rw [Option.none_or]
          cases begins : nameHint path with
          | some hint => exact .name silent rfl told begins
          | none =>
            refine .unknown silent ?_
            rintro other ⟨⟩
            exact ⟨told, begins⟩
  constructor
  · rintro rfl
    exact decided
  · -- What comes first in the order decides alone.
    intro decides
    unfold backend
    cases decides with
    | manifest named solid => rw [manifestHint_eq_some.mpr ⟨_, named, rfl, solid⟩]; rfl
    | tail silent there told => rw [manifestHint_eq_none.mpr silent, there, Option.bind_some, told]; rfl
    | name silent there untold begins =>
      rw [manifestHint_eq_none.mpr silent, there, Option.bind_some, untold, begins]; rfl
    | unknown silent untold =>
      rw [manifestHint_eq_none.mpr silent]
      cases log with
      | none => rfl
      | some path =>
        obtain ⟨tail, name⟩ := untold path rfl
        rw [Option.bind_some, tail, name]; rfl

/-- The backend is not empty. -/
theorem Decides.ne_empty (decides : Decides d manifest log value) : value ≠ "" := by
  cases decides with
  | manifest named solid => exact solid
  | tail silent there told => exact ne_empty_of_tailHint told
  | name silent there untold begins =>
    obtain ⟨-, -, ⟨-, rfl⟩ | ⟨-, rfl⟩⟩ := nameHint_eq_some.mp begins <;> decide
  | unknown silent untold => decide

end Decision

/-- The end of the log decides the backend. Behind whole lines of any bytes an assignment of a value to the
variable of the backend gives that value without the blanks around it, if 255 lines at most follow and none of
them assigns another; of a log of 256 lines or more nothing in front makes a difference. This hint is the
backend exactly if the manifest names none and the log gives one; then comes the name of the log, and then the
word for an unknown backend, so that the backend is never empty. -/
theorem log_tail_decides_backend :
    (∀ (d : Disk) (path : Path) (earlier later : Bytes) (value : String),
        WholeLines earlier → '\n' ∉ value.toList → trimmed value ≠ "" →
        (lines (textLossy later)).length ≤ 255 →
        (∀ line ∈ lines (textLossy later), ∀ other, ¬ Assigns line other) →
        d.read path = .ok (earlier ++ encode ("RDBMS=" ++ value ++ "\n") ++ later) →
        tailHint d path = some (trimmed value)) ∧
      (∀ (d e : Disk) (path other : Path) (earlier content : Bytes), WholeLines earlier →
        256 ≤ (lines (textLossy content)).length → d.read path = .ok content →
        e.read other = .ok (earlier ++ content) → tailHint e other = tailHint d path) ∧
      ∀ (d : Disk) (manifest : Option Manifest) (log : Option Path),
        (∀ value, backend d manifest log = value ↔ Decides d manifest log value) ∧
          backend d manifest log ≠ "" := by
  refine ⟨fun d path earlier later value whole single solid few others read => ?_,
    fun d e path other earlier content whole many read extended => ?_,
    fun d manifest log => ⟨fun value => backend_eq_iff, (backend_eq_iff.mp rfl).ne_empty⟩⟩
  · -- Up to 255 lines behind the assignment leave room for it among the 256 that are looked through.
    rw [tailHint_of_read read]
    exact hintInLog_append whole single solid (Nat.lt_succ_of_le few) others
  · rw [tailHint_of_read read, tailHint_of_read extended]
    exact hintInLog_append_of_many whole many

/-- A log with a broken line, an assignment with blanks and a carriage return, and one of nothing behind it. -/
def sampleLog : Bytes :=
  [0xFF, lineFeed] ++ encode ("RDBMS= tidb \r" ++ "\n") ++ encode "RDBMS=\n"

/-- So many empty lines as are looked through. -/
def emptyLines : Bytes := encode (String.ofList (List.replicate 256 '\n'))

/-- Two logs, the second of them with another assignment in front of many empty lines. -/
def sampleLogs : Disk where
  entries :=
    [(["first.log"], .file sampleLog false 0), (["second.log"], .file emptyLines false 0),
      (["third.log"], .file (encode "RDBMS=mysql\n" ++ emptyLines) false 0)]
  current := []
  clock := 0

/-- The end of the first log decides, and the assignment in front of the many lines does not. -/
theorem sampleLogs_decided :
    tailHint sampleLogs "first.log" = some "tidb" ∧
      tailHint sampleLogs "third.log" = tailHint sampleLogs "second.log" := by
  -- Each of the logs is a file of the root, under its own name.
  have first : sampleLogs.Reaches "first.log" ["first.log"] (.file sampleLog false 0) :=
    .of_name (by decide) (by decide) (by decide) (by decide) rfl (by simp)
  have second : sampleLogs.Reaches "second.log" ["second.log"] (.file emptyLines false 0) :=
    .of_name (by decide) (by decide) (by decide) (by decide) rfl (by simp)
  have third : sampleLogs.Reaches "third.log" ["third.log"]
      (.file (encode "RDBMS=mysql\n" ++ emptyLines) false 0) :=
    .of_name (by decide) (by decide) (by decide) (by decide) rfl (by simp)
  obtain ⟨assigned, apart, -⟩ := log_tail_decides_backend
  -- A value of blanks assigns nothing.
  have blank : ∀ line ∈ lines (textLossy (encode "RDBMS=\n")), ∀ other, ¬ Assigns line other := by
    intro line listed
    rw [textLossy_encode] at listed
    obtain rfl : line = "RDBMS=" := by simpa [show lines "RDBMS=\n" = ["RDBMS="] by decide] using listed
    exact hintOf_eq_none.mp (by decide)
  refine ⟨assigned _ _ [0xFF, lineFeed] (encode "RDBMS=\n") " tidb \r" (.inr ⟨[0xFF], rfl⟩) (by decide)
    (by decide) ?_ blank first.read_eq, apart _ _ _ _ (encode "RDBMS=mysql\n") emptyLines ?_ ?_
    second.read_eq third.read_eq⟩
  · rw [textLossy_encode]
    decide
  · exact wholeLines_encode "RDBMS=mysql"
  · rw [emptyLines, textLossy_encode, lines, String.toList_ofList]
    decide +kernel

end DialectBench.Summary
