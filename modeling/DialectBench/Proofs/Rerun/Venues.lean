import DialectBench.Proofs.Rerun.QueryLog
import DialectBench.Proofs.Shell.Rendering

/-! A failing test is run again by the same build command directly and in a container, where a shell reads
the command from a script. -/

namespace DialectBench

namespace Shell

/-- A shell finds exactly some words in a script: there is nothing else in it, and outside quotes there is
nothing that it would expand. -/
structure Spells (script : String) (words : List String) : Prop where
  /-- The words have these texts. -/
  texts : texts? script.toList = some (words.map some)
  /-- The words are all that is found, and outside quotes nothing in them is active. -/
  inert : ∃ found : List Word, tokens? script.toList = some (found.map .word) ∧
    ∀ word ∈ found, ∀ c ∈ activeChars, .plain c ∉ word

variable {words : List String}

/-- Words that are put together are spelled by what is written, but for a comment. -/
theorem spells_joinWords (kept : ∀ word ∈ words, opensComment word.toList = false) :
    Spells (joinWords words) words := by
  obtain ⟨texts, tokens, inert⟩ := (texts_joinWords_iff words).mpr kept
  refine ⟨texts, words.map fun word => partsOf word.toList, ?_, ?_⟩
  · rw [tokens, List.map_map]
    rfl
  · simpa using inert

/-- The parts of the word that sets the variable of the database. -/
def settingParts (value : String) : Word :=
  "RDBMS=".toList.map .plain ++ partsOf value.toList

/-- The word that sets the variable is its name and what the value is quoted to. -/
theorem settingParts_eq (value : String) :
    settingParts value = "RDBMS=".toList.map .plain ++ partsOf value.toList := rfl

/-- The word that sets the variable has its name and its value for a text. -/
theorem text?_settingParts (value : String) :
    (Token.word (settingParts value)).text? = some ("RDBMS=" ++ value) := by
  have chars : (settingParts value).mapM Fragment.char? = some ("RDBMS=".toList ++ value.toList) := by
    rw [settingParts_eq, List.mapM_append, mapM_char? (fun _ => rfl), mapM_char?_partsOf]
    rfl
  rw [Token.text?, Word.text?, chars]
  exact congrArg some (String.ext (by simp))

/-- Outside quotes nothing is active in characters that need no quotes. -/
theorem plain_notMem_map {chars : List Char} {c : Char} (plain : chars.all isPlain = true)
    (active : c ∈ activeChars) : Fragment.plain c ∉ chars.map .plain := by
  intro member
  obtain ⟨d, listed, same⟩ := List.mem_map.mp member
  obtain rfl := Fragment.plain.inj same
  exact absurd (List.all_eq_true.mp plain d listed) (by simp [isPlain_of_mem_activeChars active])

/-- Outside quotes nothing in the word that sets the variable is active. -/
theorem plain_notMem_settingParts {value : String} {c : Char} (active : c ∈ activeChars) :
    .plain c ∉ settingParts value := by
  have named : "RDBMS=".toList.all isPlain = true := by decide
  intro member
  rcases List.mem_append.mp member with own | other
  · exact plain_notMem_map named active own
  · exact plain_notMem_partsOf active other

/-- With the command in front that sets the variable of the database, what is written is read as that command,
the name and the value as one word, although the value may be quoted and the name is not, and the words. -/
theorem tokens_setting (value : String) (kept : ∀ word ∈ words, opensComment word.toList = false) :
    tokens? ("env RDBMS=" ++ quote value ++ " " ++ joinWords words).toList =
      some (("env".toList.map .plain :: settingParts value ::
        words.map fun word => partsOf word.toList).map .word) := by
  have keptLines : ∀ line ∈ words.map String.toList, opensComment line = false := by simpa using kept
  have opened : "env RDBMS=".toList.foldl Scan.read {} =
      ⟨.normal, some ("RDBMS=".toList.map .plain).reverse, [.word ("env".toList.map .plain)]⟩ := by
    decide
  -- The value goes on with the word that the name has begun, and a blank completes it.
  have set (parts : List Fragment) (tokens : List Token) :
      (quoteChars value.toList ++ [' ']).foldl Scan.read ⟨.normal, some parts, tokens⟩ =
        ⟨.normal, none, .word (parts.reverse ++ partsOf value.toList) :: tokens⟩ := by
    rw [List.foldl_append, foldl_quoteChars_onto (fun none => by cases none), List.foldl_cons, read_blank]
    simp
  have written : ("env RDBMS=" ++ quote value ++ " " ++ joinWords words).toList =
      "env RDBMS=".toList ++ ((quoteChars value.toList ++ [' ']) ++
        [' '].intercalate ((words.map String.toList).map quoteChars)) := by
    simp [quote, toList_joinWords, Function.comp_def]
  rw [tokens?, written, List.foldl_append, List.foldl_append, opened, set,
    finish_of_closeWord (closeWord_foldl _ keptLines)]
  simp [settingParts_eq, Function.comp_def]

/-- With the command in front that sets the variable of the database, what is written spells two words more. -/
theorem spells_setting (value : String) (kept : ∀ word ∈ words, opensComment word.toList = false) :
    Spells ("env RDBMS=" ++ quote value ++ " " ++ joinWords words)
      ("env" :: ("RDBMS=" ++ value) :: words) := by
  have tokens := tokens_setting value kept
  refine ⟨?_, _, tokens, ?_⟩
  -- Each word is read back as its text.
  · have env : (Token.word ("env".toList.map .plain)).text? = some "env" := by decide
    simp only [texts?, tokens, Option.map_some, List.map_cons, List.map_map, env, text?_settingParts,
      Function.comp_def, text?_partsOf]
  -- No character that a shell expands is active in any of them.
  · intro word member c active
    rcases List.mem_cons.mp member with rfl | member
    · have named : "env".toList.all isPlain = true := by decide
      exact plain_notMem_map named active
    · rcases List.mem_cons.mp member with rfl | member
      · exact plain_notMem_settingParts active
      · obtain ⟨written, -, rfl⟩ := List.mem_map.mp member
        exact plain_notMem_partsOf active

end Shell

namespace Rerun

variable {d : Disk} {workspace : Path} {target : RerunTarget} {profile : String}
  {extra gradle : List String}

/-- The arguments of the build that runs a test again. -/
def buildArguments (target : RerunTarget) (profile : String) (extra : List String) : List String :=
  [target.task, "-Pdb=" ++ profile, "--stacktrace", "--tests", target.pattern] ++ extra

/-- The path of the wrapper in a workspace ends in its name. -/
theorem endsWith_wrapper (workspace : Path) :
    Text.endsWith (workspace / "gradlew").text "gradlew" = true := by
  have apart : (⟨"gradlew"⟩ : Path).isAbsolute = false := by decide
  rw [Text.endsWith, List.isSuffixOf_iff_suffix]
  show _ <:+ (workspace.join ⟨"gradlew"⟩).text.toList
  rw [Path.join, if_neg (by simp [apart])]
  -- The name stands behind the workspace, or alone.
  split
  · exact List.suffix_rfl
  · rw [String.toList_append]
    exact List.suffix_append _ _
  · rw [String.toList_append]
    exact List.suffix_append _ _

/-- A failing test is run again by the same build in both venues. Directly, the wrapper of the workspace is
called with the arguments of the build, and the database is named in the environment if it has a name. In a
container a shell reads from a script the wrapper there with the same arguments, behind a command that names
the database in one word if it has a name; it finds nothing else in it, and nothing to expand. -/
theorem same_build_in_both_venues (lab : Lab) (options : RerunOptions)
    (built : target.gradleWords d workspace profile extra = .ok gradle)
    (signless : ∀ word ∈ gradle.tail, word.toList.head? ≠ some '#') :
    wrapCommand lab { options with venue := .host } gradle = .ok {
        program := (workspace / "gradlew").text
        arguments := buildArguments target profile extra
        directory := some lab.workspace
        bindings := if options.rdbms = "" then [] else [("RDBMS", options.rdbms)] } ∧
      ∃ script, wrapCommand lab { options with venue := .docker } gradle = .ok {
          program := docker
          arguments := ["run", "--rm", "--network", "container:" ++ lab.tidbContainer, "-v",
            lab.workspace.text ++ ":/workspace", "-w", "/workspace", options.image, "bash", "-lc",
            script] } ∧
        Shell.Spells script
          ((if options.rdbms = "" then [] else ["env", "RDBMS=" ++ options.rdbms]) ++
            "/workspace/gradlew" :: buildArguments target profile extra) := by
  -- The words begin with the wrapper of the workspace, if they can be made at all.
  obtain rfl : (workspace / "gradlew").text :: buildArguments target profile extra = gradle := by
    unfold RerunTarget.gradleWords at built
    dsimp only at built
    split at built
    · exact Except.ok.inj built
    · cases built
  -- None of the words is taken for a comment.
  have kept : ∀ word ∈ containerWrapper :: buildArguments target profile extra,
      Shell.opensComment word.toList = false := by
    refine List.forall_mem_cons.mpr ⟨by decide, fun word member => ?_⟩
    simp [Shell.opensComment, signless word member]
  refine ⟨?_, containerScript options.rdbms (workspace / "gradlew").text
    (buildArguments target profile extra), ?_, ?_⟩
  · by_cases unnamed : options.rdbms = "" <;> simp [wrapCommand, rdbmsVariables, unnamed]
  · rw [wrapCommand]
  · unfold containerScript
    rw [if_pos (endsWith_wrapper workspace)]
    by_cases unnamed : options.rdbms = ""
    · rw [if_pos unnamed, if_pos (by simp [unnamed]), List.nil_append]
      exact Shell.spells_joinWords kept
    · rw [if_neg unnamed, if_neg (by simpa using unnamed)]
      exact Shell.spells_setting options.rdbms kept

/-- A test whose name holds a blank, a quote and what a shell would expand. -/
def odd : RerunTarget where
  module := "hibernate-core"
  task := ":hibernate-core:test"
  classname := "org.example.LockTest"
  method := some "lock[it's $HOME]"
  provenance := .manual "org.example.LockTest#lock[it's $HOME]"

/-- The options of that test, with a name of the database that holds a blank. -/
def oddOptions : RerunOptions :=
  { refused.options with rdbms := "tidb 8" }

/-- The words of that test are the same in both venues. -/
theorem odd_build_in_both_venues :
    odd.gradleWords refusedSession.scene.disk "ws" "tidb" ["--info"] =
        .ok ("ws/gradlew" :: buildArguments odd "tidb" ["--info"]) ∧
      wrapCommand .sample { oddOptions with venue := .host }
          ("ws/gradlew" :: buildArguments odd "tidb" ["--info"]) =
        .ok {
          program := "ws/gradlew"
          arguments := [":hibernate-core:test", "-Pdb=tidb", "--stacktrace", "--tests",
            "org.example.LockTest.lock[it's $HOME]", "--info"]
          directory := some "ws"
          bindings := [("RDBMS", "tidb 8")] } ∧
      ∃ script, wrapCommand .sample { oddOptions with venue := .docker }
          ("ws/gradlew" :: buildArguments odd "tidb" ["--info"]) = .ok {
            program := docker
            arguments := ["run", "--rm", "--network", "container:tidb", "-v", "ws:/workspace", "-w",
              "/workspace", "eclipse-temurin:21-jdk", "bash", "-lc", script] } ∧
        Shell.Spells script ["env", "RDBMS=tidb 8", "/workspace/gradlew", ":hibernate-core:test",
          "-Pdb=tidb", "--stacktrace", "--tests", "org.example.LockTest.lock[it's $HOME]",
          "--info"] := by
  have built : odd.gradleWords refusedSession.scene.disk "ws" "tidb" ["--info"] =
      .ok ("ws/gradlew" :: buildArguments odd "tidb" ["--info"]) := by decide +kernel
  exact ⟨built, same_build_in_both_venues .sample oddOptions built (by decide)⟩

end Rerun

end DialectBench
