import DialectBench.Failing.Selection
import DialectBench.Proofs.Text.Blank
import DialectBench.Proofs.Text.Line

/-! The two ways to ask for a failing test, by its position in the listing and by its name, come to the same
test. -/

namespace DialectBench

namespace FailingTest

/-- What the lines of the test at a position begin with. -/
def mark (position : Nat) : String :=
  "[" ++ toString position ++ "] "

/-- The first line of the test at a position: its place, its class and name, its module and its report. -/
def heading (position : Nat) (test : FailingTest) : String :=
  mark position ++ (test.title ++ " (module=" ++ test.module ++ ", file="
    ++ test.resultFile.fileName?.getD "" ++ ")")

/-- A test is listed by its heading and its message. -/
theorem entryLines_eq (position : Nat) (test : FailingTest) :
    entryLines position test = [heading position test, "      " ++ excerpt test.message] := by
  simp [entryLines, heading, mark, String.append_assoc]

/-- The characters that the lines of a position begin with. -/
theorem toList_mark (position : Nat) :
    (mark position).toList = '[' :: (Nat.toDigits 10 position ++ [']', ' ']) := by
  simp [mark]

/-- The heading of a test begins with the mark of its own position and of no other. -/
theorem startsWith_heading (position place : Nat) (test : FailingTest) :
    Text.startsWith (heading position test) (mark place) = decide (position = place) := by
  rw [Text.startsWith, Bool.eq_iff_iff, List.isPrefixOf_iff_prefix, decide_eq_true_iff, heading,
    String.toList_append]
  refine ⟨fun begins => ?_, fun same => same ▸ List.prefix_append _ _⟩
  -- Both sides are cut at the first closing bracket, and no digit is one.
  have digits (n : Nat) : ']' ∉ Nat.toDigits 10 n := fun inside =>
    absurd (Nat.isDigit_of_mem_toDigits (by decide) (by decide) inside) (by decide)
  obtain ⟨rest, whole⟩ := begins
  simp only [toList_mark, List.cons_append, List.append_assoc, List.cons.injEq, true_and] at whole
  have cut := congrArg (Text.cutOnce ']') whole
  simp only [Text.cutOnce_append_cons (digits _), Option.some.injEq, Prod.mk.injEq] at cut
  rw [← Nat.ofDigitChars_ten_toDigits (n := position), ← cut.1, Nat.ofDigitChars_ten_toDigits]

/-- The message of a test stands on a line that begins with blanks. -/
theorem startsWith_message (place : Nat) (text : String) :
    Text.startsWith ("      " ++ text) (mark place) = false := by
  simp [Text.startsWith, toList_mark, List.isPrefixOf]

/-- In a part of the listing the lines that begin with the mark of a position are the heading of the test
there. -/
theorem filter_listingFrom (position place : Nat) (tests : List FailingTest) :
    (listingFrom position tests).filter (fun line => Text.startsWith line (mark place)) =
      if position ≤ place then (tests[place - position]?.map (heading place)).toList else [] := by
  induction tests generalizing position with
  | nil => simp [listingFrom]
  | cons test tests ih =>
    rw [listingFrom, entryLines_eq, List.filter_append, ih, List.filter_cons, List.filter_cons,
      startsWith_heading, startsWith_message]
    -- The first test has the position itself, and the others come behind it.
    rcases Nat.lt_trichotomy position place with below | rfl | above
    · have next : place - position = (place - (position + 1)) + 1 := by omega
      rw [if_pos (show position + 1 ≤ place by omega), if_pos below.le, next]
      simp [below.ne]
    · simp [show ¬ position + 1 ≤ position by omega]
    · simp [above.ne', Nat.not_le.mpr above, show ¬ position + 1 ≤ place by omega]

/-- The lines of a listing that begin with the mark of a position are the heading of the test there. -/
theorem filter_listing (place : Nat) (tests : List FailingTest) :
    (listing tests).filter (fun line => Text.startsWith line (mark place)) =
      if 1 ≤ place then (tests[place - 1]?.map (heading place)).toList else [] :=
  filter_listingFrom 1 place tests

/-- The heading of each test stands at every other line from its position on. -/
theorem getElem?_listingFrom (position before : Nat) (tests : List FailingTest) :
    (listingFrom position tests)[2 * before]? = tests[before]?.map (heading (position + before)) := by
  induction tests generalizing position before with
  | nil => simp [listingFrom]
  | cons test tests ih =>
    rw [listingFrom, entryLines_eq]
    cases before with
    | zero => simp
    | succ before =>
      rw [show 2 * (before + 1) = 2 * before + 1 + 1 by omega]
      simp [ih, Nat.add_assoc, Nat.add_comm 1 before]

/-- A test as it is asked for by its name: its class, and its method if it has a plain one. -/
def identifier (test : FailingTest) : String :=
  match test.method? with
  | some method => test.classname ++ "#" ++ method
  | none => test.classname

/-- The name of a method is not empty, and there are no blanks around it. -/
theorem trimmed_of_method? {test : FailingTest} {method : String} (plain : test.method? = some method) :
    method.isEmpty = false ∧ Text.trimmed method = method := by
  unfold method? at plain
  simp only [Option.ite_none_left_eq_some, Bool.or_eq_true, not_or, Bool.not_eq_true,
    Option.some.injEq] at plain
  obtain ⟨⟨some, -⟩, rfl⟩ := plain
  refine ⟨?_, ?_⟩
  · simpa [String.isEmpty_iff] using some
  · rw [Text.trimmed, String.toList_ofList, Text.trim_trim]

end FailingTest

/-- A text is the name of a class: there is something in it, no blanks around it, and no number sign. -/
structure IsClassName (name : String) : Prop where
  /-- It is not empty. -/
  nonempty : name ≠ ""
  /-- There are no blanks around it. -/
  trimmed : Text.trimmed name = name
  /-- There is no number sign in it. -/
  unmarked : '#' ∉ name.toList

/-- Two targets come to the same build, however they were found. -/
structure RerunTarget.Alike (target other : RerunTarget) : Prop where
  /-- The modules are the same. -/
  module : target.module = other.module
  /-- The tasks are the same. -/
  task : target.task = other.task
  /-- The classes are the same. -/
  classname : target.classname = other.classname
  /-- The methods are the same. -/
  method : target.method = other.method

namespace RerunTarget.Alike

variable {target other : RerunTarget}

/-- The build matches tests with the same pattern. -/
theorem pattern (alike : target.Alike other) : target.pattern = other.pattern := by
  rw [RerunTarget.pattern, RerunTarget.pattern, alike.classname, alike.method]

/-- The build is started by the same command. -/
theorem gradleWords (alike : target.Alike other) (d : Disk) (workspace : Path) (profile : String)
    (extra : List String) :
    target.gradleWords d workspace profile extra = other.gradleWords d workspace profile extra := by
  rw [RerunTarget.gradleWords, RerunTarget.gradleWords, alike.task, alike.pattern]

end RerunTarget.Alike

namespace Selection

variable {tests : List FailingTest} {test : FailingTest} {overrides : Overrides}

/-- The name of a test is taken apart into its class and its method. -/
theorem parseIdentifier_identifier (named : IsClassName test.classname) :
    parseIdentifier test.identifier = .ok (test.classname, test.method?) := by
  have some : test.classname.isEmpty = false := by simpa using named.nonempty
  unfold parseIdentifier FailingTest.identifier
  cases plain : test.method? with
  | none =>
    -- No number sign means that the text is a class alone.
    simp [Text.splitOnce, Text.cutOnce_eq_none named.unmarked, named.trimmed, some]
  | some method =>
    obtain ⟨solid, trimmed⟩ := FailingTest.trimmed_of_method? plain
    have written : (test.classname ++ "#" ++ method).toList =
        test.classname.toList ++ '#' :: method.toList := by simp
    simp [Text.splitOnce, written, Text.cutOnce_append_cons named.unmarked, named.trimmed, some,
      trimmed, solid]

/-- A test names its module if no test before it has its class in another module. -/
theorem moduleOf?_eq {before : Nat} (there : tests[before]? = some test)
    (first : ∀ earlier ∈ tests.take before, earlier.classname = test.classname →
      earlier.module = test.module) : moduleOf? tests test.classname = some test.module := by
  induction tests generalizing before with
  | nil => simp at there
  | cons other tests ih =>
    by_cases own : other.classname = test.classname
    · -- The first test of the class is this one or one before it.
      have same : other.module = test.module := by
        cases before with
        | zero => cases there; rfl
        | succ before => exact first other (by simp) own
      simp [moduleOf?, own, same]
    · cases before with
      | zero => cases there; exact absurd rfl own
      | succ before =>
        have behind : tests[before]? = some test := by simpa using there
        have rest := ih behind fun earlier member => first earlier (by simp [member])
        simpa [moduleOf?, own] using rest

/-- A position is taken if there is a test at it. -/
theorem resolveIndex_eq_ok {position : Nat} {target : RerunTarget} :
    resolveIndex tests position overrides = .ok target ↔
      1 ≤ position ∧ ∃ test, tests[position - 1]? = some test ∧ target = targetAt position test overrides := by
  unfold resolveIndex
  cases position with
  | zero => split <;> simp
  | succ before =>
    split
    · simp_all
    · cases there : tests[before]? <;> simp [there, eq_comm]

/-- A test that is asked for by its name is the one at its position. -/
theorem resolveIdentifier_identifier {before : Nat} (there : tests[before]? = some test)
    (named : IsClassName test.classname)
    (first : ∀ earlier ∈ tests.take before, earlier.classname = test.classname →
      earlier.module = test.module) (position : Nat) :
    resolveIdentifier tests test.identifier none overrides =
      .ok { targetAt position test overrides with provenance := .manual test.identifier } := by
  simp only [resolveIdentifier, parseIdentifier_identifier named, Option.none_or,
    moduleOf?_eq there first]
  rfl

/-- A position selects a test if and only if there is an entry of it in the listing, and then the test of
that entry, which is the only one that begins with the position. Asked for by its name, a test whose class
has a name, and is in no other module before it, is the one at its position, with the same build. -/
theorem position_and_name_select_alike (tests : List FailingTest) (overrides : Overrides)
    (position : Nat) :
    ((∃ target, resolve tests overrides (.index position) = .ok target) ↔
        1 ≤ position ∧ position ≤ tests.length) ∧
      (∀ target, resolve tests overrides (.index position) = .ok target →
        ∃ test, tests[position - 1]? = some test ∧ target.module = test.module ∧
          target.classname = test.classname ∧
          target.provenance = .selected position test.resultFile ∧
          (FailingTest.listing tests)[2 * (position - 1)]? = some (test.heading position) ∧
          (FailingTest.listing tests).filter
            (fun line => Text.startsWith line ("[" ++ toString position ++ "] ")) =
              [test.heading position]) ∧
      ∀ test, 1 ≤ position → tests[position - 1]? = some test → IsClassName test.classname →
        (∀ earlier ∈ tests.take (position - 1), earlier.classname = test.classname →
          earlier.module = test.module) →
        ∃ target other, resolve tests overrides (.identifier test.identifier none) = .ok target ∧
          resolve tests overrides (.index position) = .ok other ∧
          target.module = other.module ∧ target.task = other.task ∧
          target.classname = other.classname ∧ target.method = other.method ∧
          target.pattern = other.pattern ∧
          ∀ d workspace profile extra, target.gradleWords d workspace profile extra =
            other.gradleWords d workspace profile extra := by
  refine ⟨?_, ?_, ?_⟩
  · simp only [resolve, resolveIndex_eq_ok]
    constructor
    · rintro ⟨-, first, test, there, -⟩
      have within := (List.getElem?_eq_some_iff.mp there).1
      omega
    · rintro ⟨first, last⟩
      exact ⟨_, first, _, List.getElem?_eq_getElem (by omega), rfl⟩
  · intro target taken
    obtain ⟨first, test, there, rfl⟩ := resolveIndex_eq_ok.mp taken
    refine ⟨test, there, rfl, rfl, rfl, ?_, ?_⟩
    · rw [FailingTest.listing, FailingTest.getElem?_listingFrom, there, Option.map_some,
        Nat.add_sub_cancel' first]
    · have lines := FailingTest.filter_listing position tests
      rw [if_pos first, there] at lines
      exact lines
  · intro test first there named alone
    have taken : resolve tests overrides (.index position) = .ok (targetAt position test overrides) :=
      resolveIndex_eq_ok.mpr ⟨first, test, there, rfl⟩
    have asked : resolveIdentifier tests test.identifier none overrides = _ :=
      resolveIdentifier_identifier there named alone position
    -- They differ in how they were found alone.
    have alike : RerunTarget.Alike
        { targetAt position test overrides with provenance := .manual test.identifier }
        (targetAt position test overrides) := ⟨rfl, rfl, rfl, rfl⟩
    exact ⟨_, _, asked, taken, alike.module, alike.task, alike.classname, alike.method, alike.pattern,
      alike.gradleWords⟩

/-- Two failing tests of a class, one of them without a name and the other with parameters. -/
def parameterized : List FailingTest :=
  [⟨"core", "a.T", "", "gone", ⟨"T.xml"⟩⟩, ⟨"core", "a.T", "save(x)[1]", "gone", ⟨"T.xml"⟩⟩]

/-- The second of them is asked for by its class and method without the parameters. -/
theorem parameterized_selected_alike :
    ∃ target other, resolve parameterized {} (.identifier "a.T#save" none) = .ok target ∧
      resolve parameterized {} (.index 2) = .ok other ∧ target.module = other.module ∧
      target.task = other.task ∧ target.classname = other.classname ∧ target.method = other.method ∧
      target.pattern = other.pattern ∧
      ∀ d workspace profile extra, target.gradleWords d workspace profile extra =
        other.gradleWords d workspace profile extra :=
  (position_and_name_select_alike parameterized {} 2).2.2
    ⟨"core", "a.T", "save(x)[1]", "gone", ⟨"T.xml"⟩⟩ (by decide) rfl
    ⟨by decide, by decide, by decide⟩ (by decide)

end Selection

end DialectBench
