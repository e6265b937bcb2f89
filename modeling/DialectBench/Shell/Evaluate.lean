import DialectBench.Shell.Arithmetic
import DialectBench.Shell.Builtin
import DialectBench.Shell.Field

/-! What scripts do. Every step takes fuel, so that a script that would never end is left some
time. -/

namespace DialectBench.Shell

/-- The sink that the number of a stream stands for. -/
def Route.sink? (route : Route) (word : String) : Option Sink :=
  match word with
  | "1" => some route.out
  | "2" => some route.err
  | "-" => some .nowhere
  | _ => none

/-- A route in which a stream goes elsewhere. -/
def Route.set (route : Route) (stream : Nat) (sink : Sink) : Route :=
  match stream with
  | 1 => { route with out := sink }
  | 2 => { route with err := sink }
  | _ => route

/-- The file that swallows everything. -/
def nullFile : String := "/dev/null"

/-- The sink that a file is, when it is opened to be written; the old content may be kept. -/
def State.openSink (s : State) (name : String) (keep : Bool) :
    Except OsError (Sink × State) :=
  if name = nullFile then .ok (.nowhere, s)
  else
    match s.disk.filePlace ⟨name⟩ with
    | .error refusal => .error refusal
    | .ok place =>
      if keep && (s.disk.find? place).isSome then .ok (.file place, s)
      else .ok (.file place, s.change (.writeFile place []))

/-- Why a file cannot be written. -/
def writeRefusal (name : String) (refusal : OsError) : String :=
  let reason := if refusal = .notFound then "Directory nonexistent" else Tool.reason refusal
  "cannot create " ++ name ++ ": " ++ reason

/-- A state in which a stream goes elsewhere. -/
def State.reroute (s : State) (stream : Nat) (sink : Sink) : State :=
  { s with route := s.route.set stream sink }

/-- A state after a redirection to or from what a text names. -/
def redirect (operator : String) (stream : Nat) (target : String) (s : State) :
    Except String State :=
  match operator with
  | "<" =>
    if target = nullFile then .ok { s with input := [] }
    else
      match s.disk.read ⟨target⟩ with
      | .ok content => .ok { s with input := content }
      | .error refusal =>
        let reason := if refusal = .notFound then "No such file" else Tool.reason refusal
        .error ("cannot open " ++ target ++ ": " ++ reason)
  | ">&" => .ok (((s.route.sink? target).map (s.reroute stream)).getD s)
  | "<&" => .ok s
  | _ =>
    match s.openSink target (operator == ">>") with
    | .ok (sink, s) => .ok (s.reroute stream sink)
    | .error refusal => .error (writeRefusal target refusal)

/-- The output of a script without the line feeds at its end. -/
def outputText (captured : List Bytes) : List Char :=
  ((Text.textLossy captured.reverse.flatten).toList.reverse.dropWhile (· == '\n')).reverse

/-- The expression between the brackets of an arithmetic expansion. -/
def arithmeticSource? (source : String) : Option (List Char) :=
  match source.toList with
  | '(' :: rest =>
    match rest.reverse with
    | ')' :: inner => some (inner.reverse.filter (· != '$'))
    | _ => none
  | _ => none

/-- The variables that a program is given besides those that are handed to all. -/
def State.withVariables (s : State) (given : List (String × String)) : State :=
  given.foldl (fun s (name, value) => (s.assign name value).exportOne name) s

/-- The state of a shell that is started by another one. -/
def State.child (s : State) (name : String) (arguments : List String) : State :=
  let environment := s.environment
  { s with
    name, arguments, process := s.process + 1, bindings := environment,
    exported := environment.map Prod.fst, functions := [], status := 0, jump := none }

/-- The variables that the arguments begin with, and the arguments after them. -/
def leadingVariables : List String → List (String × String) × List String
  | [] => ([], [])
  | word :: words =>
    match Text.splitOnce '=' word with
    | some found => (found :: (leadingVariables words).1, (leadingVariables words).2)
    | none => ([], word :: words)

/-- A state in which what is written from now on by a script goes on when the command is stopped. -/
def State.afterBackground (s inner : State) : State :=
  -- The newest emissions come first, so those of the script are in front.
  let count := inner.emissions.length - s.emissions.length
  let added := (inner.emissions.take count).map fun emission => { emission with detached := true }
  { s with
    emissions := added ++ s.emissions
    disk := { inner.disk with current := s.disk.current }
    changes := inner.changes
    holds := ⟨s.clock, inner.clock⟩ :: inner.holds
    jobsEnd := max s.jobsEnd inner.clock
    status := 0 }

/-- A state after a round of a loop: whether there is another round. -/
def State.afterRound (s : State) : Bool × State :=
  match s.jump with
  | none => (true, s)
  -- A jump out of several loops goes on in the next outer one.
  | some (.leave (loops + 2)) => (false, { s with jump := some (.leave (loops + 1)) })
  | some (.leave _) => (false, { s with jump := none })
  | some (.proceed (loops + 2)) => (false, { s with jump := some (.proceed (loops + 1)) })
  | some (.proceed _) => (true, { s with jump := none })
  | some _ => (false, s)

/-- A state after the body of a function that was called in another state. -/
def State.afterFunction (s inner : State) : State :=
  { inner with
    arguments := s.arguments
    jump := if inner.jump = some .back then none else inner.jump }

/-- Where the shell has a command: in itself, or at a path. -/
def State.whereIs? (s : State) (name : String) : Option String :=
  if (s.builtin? 0 name []).isSome || (Tool.builtins.lookup name).isSome then some name
  else
    match locate s.disk (s.variableValue? "PATH") name with
    | .ok (path, _) => some path.text
    | .error _ => none

/-- The output of a script is a part of a word. -/
def Word.hasScript (word : Word) : Bool :=
  word.any fun fragment =>
    match fragment with
    | .script source _ => (arithmeticSource? source).isNone
    | _ => false

/-- A state whose standard output is read by the script itself. -/
def State.capturing (s : State) : State :=
  { s with captured := [], route := { s.route with out := .captured } }

mutual

/-- What the fragments of a word become. -/
def expand : Nat → Word → State → List (Fragment × List Piece) × State
  | 0, _, s => ([], s)
  | _, [], s => ([], s)
  | fuel + 1, fragment :: word, s =>
    let (pieces, s) := expandFragment fuel fragment s
    let (others, s) := expand fuel word s
    ((fragment, pieces) :: others, s)

/-- What a fragment becomes. -/
def expandFragment : Nat → Fragment → State → List Piece × State
  | 0, _, s => ([], s)
  | fuel + 1, fragment, s =>
    let piece (quoted : Bool) (text : List Char) : Piece :=
      if quoted then .fixed text else .loose text
    match fragment with
    | .plain c => ([.fixed [c]], s)
    | .literal c => ([.fixed [c]], s)
    | .parameter "@" true => ([.fields s.arguments], s)
    | .parameter name quoted => ([piece quoted ((s.parameter? name).getD "").toList], s)
    | .braces source quoted =>
      let (text, s) := expandBraces fuel source.toList s
      ([piece quoted text], s)
    | .script source quoted =>
      match arithmeticSource? source with
      | some expression =>
        let value := arithmetic? (fun name => (s.parameter? name).getD "") expression
        ([piece quoted (toString (value.getD 0)).toList], s)
      | none =>
        let (text, s) := capture fuel source s
        ([piece quoted text], s)

/-- What stands between braces becomes. -/
def expandBraces : Nat → List Char → State → List Char × State
  | 0, _, s => ([], s)
  | fuel + 1, source, s =>
    if isLengthUse source then
      let value := (s.parameter? (String.ofList (source.drop 1))).getD ""
      ((toString value.length).toList, s)
    else
      let use := readBraces source
      let value := s.parameter? use.name
      let full := value.filter fun text => !text.isEmpty
      let (parts, after) := expand fuel (braceWord use.word) s
      let word := (joined (parts.flatMap Prod.snd)).toList
      let pattern := parts.flatMap fun (fragment, pieces) =>
        match fragment with
        | .literal c => [PatternPart.ofPlain c]
        | _ => patternOf fragment pieces
      match use.operator with
      | ":-" => (full.elim (word, after) fun text => (text.toList, s))
      | "-" => (value.elim (word, after) fun text => (text.toList, s))
      | ":=" =>
        full.elim (word, after.assign use.name (String.ofList word)) fun text => (text.toList, s)
      | "=" =>
        value.elim (word, after.assign use.name (String.ofList word)) fun text => (text.toList, s)
      | ":+" => if full.isSome then (word, after) else ([], s)
      | "+" => if value.isSome then (word, after) else ([], s)
      | "%" => (withoutBack pattern false (value.getD "").toList, after)
      | "%%" => (withoutBack pattern true (value.getD "").toList, after)
      | "#" => (withoutFront pattern false (value.getD "").toList, after)
      | "##" => (withoutFront pattern true (value.getD "").toList, after)
      | _ => ((value.getD "").toList, s)

/-- What a script writes to standard output. -/
def capture : Nat → String → State → List Char × State
  | 0, _, s => ([], s)
  | fuel + 1, source, s =>
    match Script.read? source.toList with
    | none => ([], s.complain 1 "Syntax error" 2)
    | some script =>
      let inner := execute fuel script s.capturing
      (outputText inner.captured, { s.afterSubshell inner with captured := s.captured })

/-- The fields that words become. -/
def expandFields : Nat → List Word → State → List String × State
  | 0, _, s => ([], s)
  | _, [], s => ([], s)
  | fuel + 1, word :: words, s =>
    let (parts, s) := expand fuel word s
    let (others, s) := expandFields fuel words s
    (fieldsOf word (parts.flatMap Prod.snd) ++ others, s)

/-- The text that a word becomes. -/
def expandText : Nat → Word → State → String × State
  | 0, _, s => ("", s)
  | fuel + 1, word, s =>
    let (parts, s) := expand fuel word s
    (joined (parts.flatMap Prod.snd), s)

/-- The values of assignments. -/
def expandAssignments : Nat → List (String × Word) → State → List (String × String) × State
  | 0, _, s => ([], s)
  | _, [], s => ([], s)
  | fuel + 1, (name, word) :: rest, s =>
    let (value, s) := expandText fuel word s
    let (others, s) := expandAssignments fuel rest s
    ((name, value) :: others, s)

/-- A state after redirections, or why there is none and the state then. -/
def redirectAll : Nat → List Redirection → State → Except (String × State) State
  | 0, _, s => .ok s
  | _, [], s => .ok s
  | fuel + 1, redirection :: rest, s =>
    let (target, s) := expandText fuel redirection.target s
    match redirect redirection.operator redirection.stream target s with
    | .error words => .error (words, s)
    | .ok s => redirectAll fuel rest s

/-- A program with its arguments. -/
def launch : Nat → Path → Executable → String → List String → State → State
  | 0, _, _, _, _, s => s
  | fuel + 1, path, program, name, arguments, s =>
    match program with
    | .tool tool => s.runTool name name arguments tool
    | .environment =>
      let (given, rest) := leadingVariables arguments
      let inner := s.withVariables given
      match rest with
      | [] =>
        let lines := inner.environment.map fun (name, value) => name ++ "=" ++ value
        (s.write s.route.out (Tool.ofLines lines)).withStatus 0
      | name :: arguments =>
        match locate inner.disk (inner.variableValue? "PATH") name with
        | .ok (path, program) => s.afterSubshell (launch fuel path program name arguments inner)
        | .error _ =>
          let words := "env: '" ++ name ++ "': No such file or directory\n"
          (s.write s.route.err (Text.encode words)).withStatus 127
    | .shell =>
      match arguments with
      | "-c" :: source :: rest =>
        runText fuel source (s.child (rest.head?.getD name) (rest.drop 1)) s
      | "-lc" :: source :: rest =>
        runText fuel source (s.child (rest.head?.getD name) (rest.drop 1)) s
      | file :: rest =>
        match s.disk.readText ⟨file⟩ with
        | .ok source => runText fuel source (s.child file rest) s
        | .error _ => (s.child name []).complain 0 ("cannot open " ++ file ++ ": No such file") 2
      | [] => runText fuel (Text.textLossy s.input) (s.child name []) s
    | .script text => runText fuel text (s.child path.text arguments) s

/-- The text of a script in a shell of its own. -/
def runText : Nat → String → State → State → State
  | 0, _, _, s => s
  | fuel + 1, source, inner, s =>
    match Script.read? source.toList with
    | none => s.afterSubshell (inner.complain 1 "Syntax error" 2)
    | some script => s.afterSubshell (execute fuel script inner)

/-- A program that the shell finds by a name; it holds the streams open unless it takes the place
of the shell. -/
def runProgram : Nat → Bool → Nat → String → List String → State → State
  | 0, _, _, _, _, s => s
  | fuel + 1, replaces, line, name, arguments, s =>
    let title := if replaces then "exec: " ++ name else name
    match locate s.disk (s.variableValue? "PATH") name with
    | .ok (path, program) =>
      let after := launch fuel path program name arguments (s.elapse State.programTime)
      if replaces then after else after.hold s.clock
    | .error .permissionDenied => s.complain line (title ++ ": Permission denied") 126
    | .error .notAProgram =>
      match s.disk.readText ⟨name⟩ with
      | .ok source => runText fuel source (s.child name arguments) s
      | .error _ => s.complain line (title ++ ": Exec format error") 126
    | .error _ => s.complain line (title ++ ": not found") 127

/-- A command by its fields. -/
def runFields : Nat → Nat → List (String × String) → List String → State → State
  | 0, _, _, _, s => s
  | _, _, assigned, [], s => assigned.foldl (fun s (name, value) => s.assign name value) s
  | fuel + 1, line, assigned, name :: arguments, s =>
    let busy := s.elapse State.builtinTime
    -- A function comes before what the shell does itself, and both before programs.
    match busy.functions.lookup name, busy.builtin? line name arguments,
      Tool.builtins.lookup name with
    | some body, _, _ => s.afterFunction (execute fuel body { busy with arguments })
    | none, some after, _ => after
    | none, none, some tool => busy.runTool (s.title line ++ name) name arguments tool
    | none, none, none =>
      let inner := s.withVariables assigned
      match name, arguments with
      | "exec", [] => s.withStatus 0
      | "exec", program :: arguments =>
        let after := s.afterSubshell (runProgram fuel true line program arguments inner)
        -- The program takes the place of the shell, so nothing comes after it.
        { after with jump := some (.exit after.status) }
      | "eval", words =>
        match Script.read? (" ".intercalate words).toList with
        | some script => execute fuel script s
        | none => s.complain line "Syntax error" 2
      | ".", file :: _ =>
        match (s.disk.readText ⟨file⟩).toOption.bind fun text => Script.read? text.toList with
        | some script => execute fuel script s
        | none => s.complain line (".: cannot open " ++ file) 2
      | "command", ["-v", program] =>
        match s.whereIs? program with
        | some place => (s.write s.route.out (Tool.ofLines [place])).withStatus 0
        | none => s.withStatus 127
      | "command", program :: arguments => runFields fuel line assigned (program :: arguments) s
      | _, _ => s.afterSubshell (runProgram fuel false line name arguments inner)

/-- A command of words and redirections. -/
def runSimple : Nat → Nat → List Word → List Redirection → State → State
  | 0, _, _, _, s => s
  | fuel + 1, line, words, redirections, s =>
    let (assignments, rest) := splitAssignments words
    let (fields, expanded) := expandFields fuel rest s
    let (assigned, expanded) := expandAssignments fuel assignments expanded
    -- Assignments alone succeed, unless a script in them has set the status.
    let ready := if fields.isEmpty && !words.any Word.hasScript then expanded.withStatus 0
      else expanded
    match redirectAll fuel redirections ready with
    | .error (words, s) => { s.complain line words 2 with route := ready.route }
    | .ok inner =>
      let after := runFields fuel line assigned fields inner
      -- Redirections last for the command, except those of a bare exec.
      if redirections.isEmpty || fields = ["exec"] then after
      else { after with input := s.input, route := s.route }

/-- A script. -/
def execute : Nat → Script → State → State
  | 0, _, s => s
  | fuel + 1, script, s =>
    if s.jump.isSome then s
    else
      match script with
      | .nothing => s
      | .simple line words redirections => runSimple fuel line words redirections s
      | .define name body => { s with functions := (name, body) :: s.functions, status := 0 }
      | .negation body =>
        let after := execute fuel body s
        if after.jump.isSome then after
        else after.withStatus (if after.status = 0 then 1 else 0)
      | .pipe left right =>
        let first := execute fuel left s.capturing
        let middle := { s.afterSubshell first with captured := s.captured, status := s.status }
        -- The left side ends before the right one starts, which reads all of its output.
        let second := execute fuel right { middle with input := first.captured.reverse.flatten }
        middle.afterSubshell second
      | .both left right =>
        let after := execute fuel left s
        if after.status = 0 then execute fuel right after else after
      | .either left right =>
        let after := execute fuel left s
        if after.status = 0 then after else execute fuel right after
      | .sequence first second => execute fuel second (execute fuel first s)
      | .background body => s.afterBackground (execute fuel body { s with input := [] })
      | .choice condition consequence alternative =>
        let after := execute fuel condition s
        if after.status = 0 then execute fuel consequence after
        else
          match alternative with
          | .nothing => after.withStatus 0
          | alternative => execute fuel alternative after
      | .loop expected condition body => repeatBody fuel expected condition body 0 s
      | .each name words body =>
        let (texts, s) := match words with
          | some words => expandFields fuel words s
          | none => (s.arguments, s)
        if texts.isEmpty then s.withStatus 0 else forTexts fuel name body texts s
      | .select subject arms =>
        let (text, s) := expandText fuel subject s
        selectArm fuel text.toList arms s
      | .subshell body => s.afterSubshell (execute fuel body s)
      | .redirected body redirections =>
        match redirectAll fuel redirections s with
        | .error (words, after) => { after.complain 1 words 2 with route := s.route }
        | .ok inner => { execute fuel body inner with input := s.input, route := s.route }

/-- The rounds of a loop; the status of the last round is kept. -/
def repeatBody : Nat → Bool → Script → Script → Nat → State → State
  | 0, _, _, _, _, s => s
  | fuel + 1, expected, condition, body, status, s =>
    let tested := execute fuel condition s
    if tested.jump.isSome then tested.afterRound.2
    else if (tested.status = 0) = expected then
      let (again, after) := (execute fuel body tested).afterRound
      if again then repeatBody fuel expected condition body after.status after else after
    else tested.withStatus status

/-- A script for each of several texts. -/
def forTexts : Nat → String → Script → List String → State → State
  | 0, _, _, _, s => s
  | _, _, _, [], s => s
  | fuel + 1, name, body, text :: texts, s =>
    let (again, after) := (execute fuel body (s.assign name text)).afterRound
    if again then forTexts fuel name body texts after else after

/-- The first script with a pattern for a text. -/
def selectArm : Nat → List Char → List (List Word × Script) → State → State
  | 0, _, _, s => s
  | _, _, [], s => s.withStatus 0
  | fuel + 1, text, (patterns, body) :: arms, s =>
    let (found, s) := anyFits fuel text patterns s
    if found then execute fuel body s else selectArm fuel text arms s

/-- One of several patterns describes a text. -/
def anyFits : Nat → List Char → List Word → State → Bool × State
  | 0, _, _, s => (false, s)
  | _, _, [], s => (false, s)
  | fuel + 1, text, pattern :: patterns, s =>
    let (parts, s) := expand fuel pattern s
    let pattern := parts.flatMap fun (fragment, pieces) => patternOf fragment pieces
    if fits pattern text then (true, s) else anyFits fuel text patterns s

end

end DialectBench.Shell
