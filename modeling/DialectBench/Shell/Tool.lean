import DialectBench.Disk.Change
import DialectBench.Number.Decimal
import DialectBench.Shell.Format
import DialectBench.Text.Blank
import DialectBench.Text.Expression
import DialectBench.Watching.Timing

/-! The small programs that scripts call, as functions of their arguments, their input and the file
tree. -/

namespace DialectBench.Shell

/-- What a tool is called with. -/
structure ToolCall where
  /-- The name that it is called by. -/
  name : String
  /-- What its complaints begin with. -/
  title : String
  /-- The arguments. -/
  arguments : List String
  /-- What it reads from standard input. -/
  input : Bytes
  /-- The file tree, with the directory that the tool works in. -/
  disk : Disk

/-- What a tool leaves. -/
structure ToolResult where
  /-- What it writes to standard output. -/
  out : Bytes := []
  /-- What it writes to standard error. -/
  err : Bytes := []
  /-- The exit status. -/
  status : Nat := 0
  /-- How long it sleeps, in nanoseconds. -/
  sleeps : Nat := 0
  /-- How it changes the file tree. -/
  changes : List Change := []

/-- What a tool does. -/
abbrev Tool := ToolCall → ToolResult

namespace Tool

/-- The words of the system without the number of the refusal. -/
def reason (refusal : OsError) : String :=
  match Text.cutOnce '(' refusal.message.toList with
  | some (front, _) => Text.trimmed (String.ofList front)
  | none => refusal.message

/-- A complaint of a tool. -/
def complaint (call : ToolCall) (words : String) : Bytes :=
  Text.encode (call.title ++ ": " ++ words ++ "\n")

/-- A place in a file tree by its names. -/
def pathOf (place : Location) : String :=
  "/" ++ "/".intercalate place

/-- The content of files put end to end, and complaints about those that cannot be read. -/
def readAll (call : ToolCall) : List String → Bytes × Bytes
  | [] => ([], [])
  | name :: names =>
    let (out, err) := readAll call names
    if name = "-" then (call.input ++ out, err)
    else
      match call.disk.read ⟨name⟩ with
      | .ok content => (content ++ out, err)
      | .error refusal => (out, complaint call (name ++ ": " ++ reason refusal) ++ err)

/-- The content of the files that are named, or the input if none is. -/
def contentOf (call : ToolCall) (names : List String) : Bytes × Bytes :=
  if names.isEmpty then (call.input, []) else readAll call names

/-- One for a complaint and zero for none. -/
def statusOf (err : Bytes) : Nat :=
  if err.isEmpty then 0 else 1

/-- Lines of text as bytes. -/
def ofLines (lines : List String) : Bytes :=
  Text.encode (String.join (lines.map fun line => line ++ "\n"))

/-- The lines of some bytes. -/
def linesOf (content : Bytes) : List String :=
  Text.lines (Text.textLossy content)

/-- The arguments that are options, and the others. -/
def splitOptions (arguments : List String) : List String × List String :=
  (arguments.takeWhile (fun word => word.startsWith "-" && word != "-"),
    arguments.dropWhile (fun word => word.startsWith "-" && word != "-"))

/-- Does nothing and succeeds. -/
def succeed : Tool := fun _ => {}

/-- Does nothing and fails. -/
def fail : Tool := fun _ => { status := 1 }

/-- Writes its arguments. -/
def echo : Tool := fun call => { out := Shell.echo call.arguments }

/-- Writes its arguments by a format. -/
def printf : Tool := fun call => { out := Shell.printf call.arguments }

/-- Writes files one after another. -/
def cat : Tool := fun call =>
  let (out, err) := contentOf call (splitOptions call.arguments).2
  { out, err, status := statusOf err }

/-- Writes the directory that it works in. -/
def pwd : Tool := fun call => { out := ofLines [pathOf call.disk.current] }

/-- A number of seconds in nanoseconds, by a numeral and perhaps a unit. -/
def nanoseconds? (text : String) : Option Nat :=
  let cs := text.toList
  let (body, unit) := match cs.reverse with
    | 's' :: rest => (rest.reverse, 1)
    | 'm' :: rest => (rest.reverse, 60)
    | 'h' :: rest => (rest.reverse, 3600)
    | _ => (cs, 1)
  let (whole, rest) := Number.spanDigits body
  let (part, rest) := match rest with
    | '.' :: rest => Number.spanDigits rest
    | _ => ([], rest)
  if !rest.isEmpty || (whole.isEmpty && part.isEmpty) then none
  else
    some (Number.digitsValue (whole ++ part) * unit * Watching.second / Nat.pow 10 part.length)

/-- Sleeps for the sum of some times. -/
def sleep : Tool := fun call =>
  match call.arguments.mapM nanoseconds? with
  | some times =>
    if times.isEmpty then { err := complaint call "missing operand", status := 1 }
    else { sleeps := times.foldl (· + ·) 0 }
  | none => { err := complaint call "invalid time interval", status := 1 }

/-- Writes the lines in which an expression is found, or tells how many there are, or only whether
there are any. -/
def grep : Tool := fun call =>
  let (options, rest) := splitOptions call.arguments
  let flags := options.flatMap fun word => word.toList.drop 1
  match rest with
  | [] => { err := complaint call "no pattern", status := 2 }
  | pattern :: names =>
    let (content, err) := contentOf call names
    let lowered (text : String) : String :=
      if flags.contains 'i' then String.ofList (text.toList.map Char.toLower) else text
    let expression := Text.Expression.read (lowered pattern)
    let isFound (line : String) : Bool :=
      if flags.contains 'F' then Text.contains (lowered line) (lowered pattern)
      else (expression.search (lowered line).toList).isSome
    let found := (linesOf content).filter fun line => isFound line != flags.contains 'v'
    let out := if flags.contains 'q' then []
      else if flags.contains 'c' then ofLines [toString found.length]
      else ofLines found
    { out, err, status := if !err.isEmpty then 2 else if found.isEmpty then 1 else 0 }

/-- What a match is replaced by: an ampersand stands for the match. -/
def substitute (found : List Char) : List Char → List Char
  | [] => []
  | '\\' :: 'n' :: rest => '\n' :: substitute found rest
  | '\\' :: c :: rest => c :: substitute found rest
  | c :: rest => if c = '&' then found ++ substitute found rest else c :: substitute found rest

/-- The three parts of a command of substitution, cut at its mark. -/
def cutParts (mark : Char) (text : List Char) :
    Option (List Char × List Char × List Char) :=
  (Text.cutOnce mark text).bind fun (pattern, rest) =>
    (Text.cutOnce mark rest).map fun (replacement, flags) => (pattern, replacement, flags)

/-- What a command of substitution does to a line. -/
def substitution? (command : String) : Option (String → String) :=
  match command.toList with
  | 's' :: mark :: rest =>
    (cutParts mark rest).map fun (pattern, replacement, flags) line =>
      let expression := Text.Expression.read (String.ofList pattern)
      let change (found : List Char) : List Char := substitute found replacement
      String.ofList (if flags.contains 'g' then
          expression.replaceAll change (line.length + 1) line.toList
        else expression.replaceFirst change line.toList)
  | _ => none

/-- Substitutes in every line. -/
def sed : Tool := fun call =>
  match call.arguments.filter (· != "-e") with
  | [] => { err := complaint call "no script", status := 1 }
  | command :: names =>
    match substitution? command with
    | none => { err := complaint call "unknown command", status := 1 }
    | some change =>
      let (content, err) := contentOf call names
      { out := ofLines ((linesOf content).map change), err, status := statusOf err }

/-- Makes directories. -/
def mkdir : Tool := fun call =>
  let (options, names) := splitOptions call.arguments
  let make (result : ToolResult × Disk) (name : String) : ToolResult × Disk :=
    let (result, disk) := result
    let making := if options.contains "-p" then disk.makingAll (Path.mk name).ancestors
      else
        match disk.makingDirectory ⟨name⟩ with
        | .ok change => { changes := [change] }
        | .error refusal => { changes := [], refusal := some refusal }
    let result := { result with changes := result.changes ++ making.changes }
    let disk := disk.applyAll making.changes
    match making.refusal with
    | none => (result, disk)
    | some refusal =>
      let words := "cannot create directory '" ++ name ++ "': " ++ reason refusal
      ({ result with err := result.err ++ complaint call words, status := 1 }, disk)
  (names.foldl make ({}, call.disk)).1

/-- Makes empty files, or gives files the present time. -/
def touch : Tool := fun call =>
  let make (result : ToolResult × Disk) (name : String) : ToolResult × Disk :=
    let (result, disk) := result
    match disk.filePlace ⟨name⟩ with
    | .ok place =>
      let change := if (disk.find? place).isSome then Change.extendFile place []
        else .writeFile place []
      ({ result with changes := result.changes ++ [change] }, disk.apply change)
    | .error refusal =>
      let words := "cannot touch '" ++ name ++ "': " ++ reason refusal
      ({ result with err := result.err ++ complaint call words, status := 1 }, disk)
  (call.arguments.foldl make ({}, call.disk)).1

/-- Removes files, and directories if it is told so. -/
def rm : Tool := fun call =>
  let (options, names) := splitOptions call.arguments
  let flags := options.flatMap fun word => word.toList.drop 1
  let remove (result : ToolResult × Disk) (name : String) : ToolResult × Disk :=
    let (result, disk) := result
    let wanted : Except OsError (List Change) := match disk.removingFile ⟨name⟩ with
      | .ok change => .ok [change]
      | .error refusal =>
        if flags.contains 'r' || flags.contains 'R' then disk.removingTree ⟨name⟩
        else .error refusal
    match wanted with
    | .ok changes =>
      ({ result with changes := result.changes ++ changes }, disk.applyAll changes)
    | .error refusal =>
      if flags.contains 'f' && refusal = .notFound then (result, disk)
      else
        let words := "cannot remove '" ++ name ++ "': " ++ reason refusal
        ({ result with err := result.err ++ complaint call words, status := 1 }, disk)
  (names.foldl remove ({}, call.disk)).1

/-- The number of lines that an option asks for. -/
def countOf (arguments : List String) : Nat × List String :=
  match arguments with
  | "-n" :: count :: names => ((Number.digits? count.toList).getD 10, names)
  | option :: names =>
    match option.toList with
    | '-' :: digits =>
      match Number.digits? (digits.dropWhile (· == 'n')) with
      | some count => (count, names)
      | none => (10, option :: names)
    | _ => (10, option :: names)
  | [] => (10, [])

/-- Writes the first lines, or the first bytes. -/
def head : Tool := fun call =>
  match call.arguments with
  | "-c" :: count :: names =>
    let (content, err) := contentOf call names
    { out := content.take (argumentNumber count).toNat, err, status := statusOf err }
  | arguments =>
    let (count, names) := countOf arguments
    let (content, err) := contentOf call names
    { out := ((Text.cutAfter 10 content).take count).flatten, err, status := statusOf err }

/-- Writes the last lines. -/
def tail : Tool := fun call =>
  let (count, names) := countOf call.arguments
  let (content, err) := contentOf call names
  let lines := Text.cutAfter 10 content
  { out := (lines.drop (lines.length - count)).flatten, err, status := statusOf err }

/-- Counts the lines or the bytes of its input or of a file. -/
def wc : Tool := fun call =>
  let (options, names) := splitOptions call.arguments
  let (content, err) := contentOf call names
  let count := if options.contains "-c" then content.length else content.count 10
  { out := ofLines [" ".intercalate (toString count :: names)], err, status := statusOf err }

/-- Counts from one number to another by a third one. -/
def seq : Tool := fun call =>
  let (first, step, last) := match call.arguments.map fun word => argumentNumber word with
    | [last] => (1, 1, last)
    | [first, last] => (first, 1, last)
    | first :: difference :: last :: _ => (first, difference, last)
    | [] => (1, 1, 0)
  let count := if step = 0 then 0 else ((last - first) / step + 1).toNat
  { out := ofLines ((List.range count).map fun (i : Nat) => toString (first + (i : Int) * step)) }

/-- Writes lines in the order of their characters, or the other way round, perhaps each but once. -/
def sort : Tool := fun call =>
  let (options, names) := splitOptions call.arguments
  let flags := options.flatMap fun word => word.toList.drop 1
  let (content, err) := contentOf call names
  let sorted := (linesOf content).mergeSort fun a b => a ≤ b
  let single := if flags.contains 'u' then sorted.eraseDups else sorted
  let ordered := if flags.contains 'r' then single.reverse else single
  { out := ofLines ordered, err, status := statusOf err }

/-- The characters of a set, in which a hyphen between two characters stands for those between
them. -/
def charactersOf : List Char → List Char
  | a :: '-' :: b :: rest =>
    (List.range (b.toNat + 1 - a.toNat)).map (fun i => Char.ofNat (a.toNat + i))
      ++ charactersOf rest
  | '\\' :: 'n' :: rest => '\n' :: charactersOf rest
  | '\\' :: '0' :: rest => Char.ofNat 0 :: charactersOf rest
  | c :: rest => c :: charactersOf rest
  | [] => []

/-- Puts the characters of one set in place of those of another, or drops them. -/
def tr : Tool := fun call =>
  let text := (Text.textLossy call.input).toList
  let written (text : List Char) : ToolResult := { out := Text.encode (String.ofList text) }
  match call.arguments with
  | ["-d", set] => written (text.filter fun c => !(charactersOf set.toList).contains c)
  | [set, others] =>
    let others := charactersOf others.toList
    let pairs := (charactersOf set.toList).zipIdx.map fun (c, i) =>
      (c, (others[i]?.or others.getLast?).getD c)
    written (text.map fun c => (pairs.lookup c).getD c)
  | _ => { err := complaint call "missing operand", status := 1 }

/-- Writes the names in directories in their order, and the files that are named. -/
def ls : Tool := fun call =>
  let (_, names) := splitOptions call.arguments
  let list (name : String) : Bytes × Bytes :=
    match call.disk.entry ⟨name⟩ with
    | .ok (place, .directory _) =>
      let inside := (call.disk.below place).filterMap fun (way, _) =>
        match way with
        | [single] => if single.startsWith "." then none else some single
        | _ => none
      (ofLines (inside.mergeSort fun a b => a ≤ b), [])
    | .ok _ => (ofLines [name], [])
    | .error refusal => ([], complaint call ("cannot access '" ++ name ++ "': " ++ reason refusal))
  let results := (if names.isEmpty then ["."] else names).map list
  let err := results.flatMap Prod.snd
  { out := results.flatMap Prod.fst, err, status := if err.isEmpty then 0 else 2 }

/-- Writes its input and puts it into files. -/
def tee : Tool := fun call =>
  let (options, names) := splitOptions call.arguments
  let put (result : ToolResult × Disk) (name : String) : ToolResult × Disk :=
    let (result, disk) := result
    match disk.filePlace ⟨name⟩ with
    | .ok place =>
      let change := if options.contains "-a" && (disk.find? place).isSome
        then Change.extendFile place call.input else .writeFile place call.input
      ({ result with changes := result.changes ++ [change] }, disk.apply change)
    | .error refusal =>
      let words := name ++ ": " ++ reason refusal
      ({ result with err := result.err ++ complaint call words, status := 1 }, disk)
  (names.foldl put ({ out := call.input }, call.disk)).1

/-- Copies a file to a path or into a directory. -/
def cp : Tool := fun call =>
  match (splitOptions call.arguments).2 with
  | [source, target] =>
    let inside := if call.disk.isDirectory ⟨target⟩ then
        (Path.mk target).join ⟨((Path.mk source).fileName?).getD ""⟩
      else ⟨target⟩
    match call.disk.copying ⟨source⟩ inside with
    | .ok change => { changes := [change] }
    | .error refusal =>
      { err := complaint call ("cannot stat '" ++ source ++ "': " ++ reason refusal), status := 1 }
  | _ => { err := complaint call "missing file operand", status := 1 }

/-- Writes the last component of a path, without an ending that is given. -/
def basename : Tool := fun call =>
  match call.arguments with
  | [] => { err := complaint call "missing operand", status := 1 }
  | path :: rest =>
    let name := ((Path.mk path).fileName?).getD path
    let ending := rest.head?.getD ""
    let short := if name.endsWith ending && name != ending
      then String.ofList (name.toList.take (name.length - ending.length)) else name
    { out := ofLines [short] }

/-- Writes a path without its last component. -/
def dirname : Tool := fun call =>
  { out := ofLines (call.arguments.map fun path =>
      match (Path.mk path).parent? with
      | some ⟨parent⟩ => if parent.isEmpty then "." else parent
      | none => "/") }

/-- A value without what does not count in comparisons of numbers. -/
def numberOf? (text : String) : Option Int :=
  Number.signedWithin? 64 (Text.trim text.toList)

/-- The outcome of comparing two numbers, or the text that is none. -/
def compareNumbers (a b : String) (relation : Int → Int → Bool) : Except String Bool :=
  match numberOf? a, numberOf? b with
  | some a, some b => .ok (relation a b)
  | none, _ => .error ("Illegal number: " ++ a)
  | _, none => .error ("Illegal number: " ++ b)

/-- The outcome of a condition without connectives, or why it is none. -/
def plainCondition (d : Disk) : List String → Except String Bool
  | [] => .ok false
  | [word] => .ok (!word.isEmpty)
  | ["!", word] => .ok word.isEmpty
  | ["-n", word] => .ok (!word.isEmpty)
  | ["-z", word] => .ok word.isEmpty
  | ["-e", name] => .ok (d.exists? ⟨name⟩)
  | ["-f", name] => .ok (d.isFile ⟨name⟩)
  | ["-d", name] => .ok (d.isDirectory ⟨name⟩)
  | ["-r", name] => .ok (d.exists? ⟨name⟩)
  | ["-w", name] => .ok (d.exists? ⟨name⟩)
  | ["-s", name] => .ok (((d.read ⟨name⟩).toOption.map fun content => !content.isEmpty).getD false)
  | ["-x", name] =>
    match d.entry ⟨name⟩ with
    | .ok (_, .file _ executable _) => .ok executable
    | .ok (_, node) => .ok node.isDirectory
    | .error _ => .ok false
  | [a, "=", b] => .ok (a = b)
  | [a, "==", b] => .ok (a = b)
  | [a, "!=", b] => .ok (a ≠ b)
  | [a, "-eq", b] => compareNumbers a b (· = ·)
  | [a, "-ne", b] => compareNumbers a b (· ≠ ·)
  | [a, "-lt", b] => compareNumbers a b (· < ·)
  | [a, "-le", b] => compareNumbers a b (· ≤ ·)
  | [a, "-gt", b] => compareNumbers a b (· > ·)
  | [a, "-ge", b] => compareNumbers a b (· ≥ ·)
  | "!" :: words => (plainCondition d words).map not
  | word :: _ => .error (word ++ ": unexpected operator")

/-- Words cut at a word, but not at the first or the last one. -/
def cutWords (mark : String) (words : List String) : List (List String) :=
  if words.length ≤ 3 then [words] else words.splitOn mark

/-- The outcome of conditions of which all must hold, or why one is none. -/
def allHold (d : Disk) : List (List String) → Except String Bool
  | [] => .ok true
  | words :: others => do
    let first ← plainCondition d words
    let rest ← allHold d others
    return first && rest

/-- The outcome of conditions of which one must hold, or why one is none. -/
def oneHolds (d : Disk) : List (List String) → Except String Bool
  | [] => .ok false
  | words :: others => do
    let first ← allHold d (cutWords "-a" words)
    let rest ← oneHolds d others
    return first || rest

/-- Tells by its status whether a condition holds. -/
def test : Tool := fun call =>
  let words := if call.name = "[" then call.arguments.dropLast else call.arguments
  match oneHolds call.disk (cutWords "-o" words) with
  | .ok true => {}
  | .ok false => { status := 1 }
  | .error reason => { err := complaint call reason, status := 2 }

/-- The tools that a shell has in itself. -/
def builtins : List (String × Tool) :=
  [(":", succeed), ("true", succeed), ("false", fail), ("echo", echo), ("printf", printf),
    ("pwd", pwd), ("test", test), ("[", test)]

/-- The tools that are programs. -/
def programs : List (String × Tool) :=
  [("true", succeed), ("false", fail), ("echo", echo), ("printf", printf), ("pwd", pwd),
    ("test", test), ("[", test), ("cat", cat), ("sleep", sleep), ("grep", grep), ("sed", sed),
    ("mkdir", mkdir), ("touch", touch), ("rm", rm), ("head", head), ("tail", tail), ("wc", wc),
    ("seq", seq), ("sort", sort), ("tr", tr), ("ls", ls), ("tee", tee), ("cp", cp),
    ("basename", basename), ("dirname", dirname)]

end Tool

end DialectBench.Shell
