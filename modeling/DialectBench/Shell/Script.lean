import DialectBench.Shell.Token

/-! Scripts: commands and how they are put together. -/

namespace DialectBench.Shell

/-- Where a stream of a command leads to or comes from. -/
structure Redirection where
  /-- The number of the stream. -/
  stream : Nat
  /-- The operator. -/
  operator : String
  /-- The word after the operator. -/
  target : Word
  deriving DecidableEq, Repr

/-- A script. -/
inductive Script where
  /-- Nothing to do. -/
  | nothing
  /-- A command on a line: assignments first, then the words of the command. -/
  | simple (line : Nat) (words : List Word) (redirections : List Redirection)
  /-- A name gets a script for a meaning. -/
  | define (name : String) (body : Script)
  /-- A script whose status is turned round. -/
  | negation (body : Script)
  /-- Scripts of which the second reads what the first one writes. -/
  | pipe (left right : Script)
  /-- The second script runs if the first one succeeds. -/
  | both (left right : Script)
  /-- The second script runs if the first one fails. -/
  | either (left right : Script)
  /-- One script after another. -/
  | sequence (first second : Script)
  /-- A script that nobody waits for. -/
  | background (body : Script)
  /-- One of two scripts by the status of a condition. -/
  | choice (condition consequence alternative : Script)
  /-- A script again and again as long as a condition succeeds, or fails. -/
  | loop (expected : Bool) (condition body : Script)
  /-- A script for each of several words; without them for each argument. -/
  | each (name : String) (words : Option (List Word)) (body : Script)
  /-- The first script that has a pattern for a word. -/
  | select (subject : Word) (arms : List (List Word × Script))
  /-- A script whose settings are lost at its end. -/
  | subshell (body : Script)
  /-- A script with redirections. -/
  | redirected (body : Script) (redirections : List Redirection)
  deriving Repr, Inhabited

/-- Where a script is being read. -/
structure Cursor where
  /-- The number of the line. -/
  line : Nat
  /-- The tokens that come next. -/
  tokens : List Token

namespace Cursor

/-- The cursor after the next token. -/
def skip (cursor : Cursor) : Cursor :=
  match cursor.tokens with
  | [] => cursor
  | .newline :: rest => ⟨cursor.line + 1, rest⟩
  | _ :: rest => ⟨cursor.line, rest⟩

/-- The number of ends of lines at the front of some tokens, and the tokens after them. -/
def afterNewlines : List Token → Nat × List Token
  | .newline :: rest => ((afterNewlines rest).1 + 1, (afterNewlines rest).2)
  | tokens => (0, tokens)

/-- The cursor after the ends of lines that come next. -/
def skipNewlines (cursor : Cursor) : Cursor :=
  let (count, rest) := afterNewlines cursor.tokens
  ⟨cursor.line + count, rest⟩

/-- The next word as it is written, if nothing in it is quoted or expanded. -/
def keyword? (cursor : Cursor) : Option String :=
  match cursor.tokens with
  | .word parts :: _ =>
    (parts.mapM fun part =>
      match part with
      | Fragment.plain c => some c
      | _ => none).map String.ofList
  | _ => none

/-- The cursor after a word that must come next. -/
def expect (cursor : Cursor) (word : String) : Option Cursor :=
  if cursor.keyword? = some word then some cursor.skip else none

/-- An operator comes next. -/
def isAt (cursor : Cursor) (operator : String) : Bool :=
  cursor.tokens.head? == some (.operator operator)

/-- The words that end a list of commands. -/
def closers : List String := ["then", "elif", "else", "fi", "do", "done", "esac", "\x7d"]

/-- No command comes next. -/
def isAtClose (cursor : Cursor) : Bool :=
  cursor.tokens.isEmpty || cursor.isAt ")" || cursor.isAt ";;"
    || (cursor.keyword?.map closers.contains).getD false

end Cursor

/-- The operators of redirections. -/
def redirectors : List String := [">", ">>", ">|", "<", ">&", "<&"]

/-- The stream that a redirection is about unless a number tells it. -/
def usualStream (operator : String) : Nat :=
  if operator.startsWith "<" then 0 else 1

/-- The words and redirections at the front of some tokens, and the tokens after them. -/
def readParts : List Token → List Word × List Redirection × List Token
  | .word parts :: rest =>
    let (words, redirections, after) := readParts rest
    (parts :: words, redirections, after)
  | .stream number :: .operator operator :: .word target :: rest =>
    if redirectors.contains operator then
      let (words, redirections, after) := readParts rest
      (words, ⟨number, operator, target⟩ :: redirections, after)
    else ([], [], .stream number :: .operator operator :: .word target :: rest)
  | .operator operator :: .word target :: rest =>
    if redirectors.contains operator then
      let (words, redirections, after) := readParts rest
      (words, ⟨usualStream operator, operator, target⟩ :: redirections, after)
    else ([], [], .operator operator :: .word target :: rest)
  | tokens => ([], [], tokens)

/-- The words at the front of some tokens, and the tokens after them. -/
def readWords : List Token → List Word × List Token
  | .word parts :: rest => (parts :: (readWords rest).1, (readWords rest).2)
  | tokens => ([], tokens)

/-- The patterns of an arm up to the bracket after them, and the tokens after that. -/
def readPatterns : List Token → Option (List Word × List Token)
  | .word parts :: .operator ")" :: rest => some ([parts], rest)
  | .word parts :: .operator "|" :: rest =>
    (readPatterns rest).map fun (patterns, after) => (parts :: patterns, after)
  | _ => none

/-- A script with the redirections that come next, if there are any. -/
def withRedirections (body : Script) (cursor : Cursor) : Script × Cursor :=
  match readParts cursor.tokens with
  | ([], [], _) => (body, cursor)
  | ([], redirections, rest) => (.redirected body redirections, ⟨cursor.line, rest⟩)
  | _ => (body, cursor)

/-- A command of words and redirections. -/
def readSimple (cursor : Cursor) : Option (Script × Cursor) :=
  match readParts cursor.tokens with
  | ([], [], _) => none
  | (words, redirections, rest) =>
    some (.simple cursor.line words redirections, ⟨cursor.line, rest⟩)

mutual

/-- Commands up to where no command comes next. -/
def readList : Nat → Cursor → Option (Script × Cursor)
  | 0, _ => none
  | fuel + 1, cursor =>
    let cursor := cursor.skipNewlines
    if cursor.isAtClose then some (.nothing, cursor)
    else do
      let (item, cursor) ← readAndOr fuel cursor
      if cursor.isAt "&" then
        let (others, cursor) ← readList fuel cursor.skip
        return (.sequence (.background item) others, cursor)
      else if cursor.isAt ";" || cursor.tokens.head? == some .newline then
        let (others, cursor) ← readList fuel cursor.skip
        return (.sequence item others, cursor)
      else return (item, cursor)

/-- Pipelines that depend on each other. -/
def readAndOr : Nat → Cursor → Option (Script × Cursor)
  | 0, _ => none
  | fuel + 1, cursor => do
    let (left, cursor) ← readPipeline fuel cursor
    readAfter fuel left cursor

/-- What depends on a script. -/
def readAfter : Nat → Script → Cursor → Option (Script × Cursor)
  | 0, _, _ => none
  | fuel + 1, left, cursor =>
    if cursor.isAt "&&" then do
      let (right, cursor) ← readPipeline fuel cursor.skip.skipNewlines
      readAfter fuel (.both left right) cursor
    else if cursor.isAt "||" then do
      let (right, cursor) ← readPipeline fuel cursor.skip.skipNewlines
      readAfter fuel (.either left right) cursor
    else some (left, cursor)

/-- Commands of which each reads what the one before writes. -/
def readPipeline : Nat → Cursor → Option (Script × Cursor)
  | 0, _ => none
  | fuel + 1, cursor =>
    if cursor.keyword? = some "!" then do
      let (body, cursor) ← readPipeline fuel cursor.skip
      return (.negation body, cursor)
    else do
      let (left, cursor) ← readCommand fuel cursor
      if cursor.isAt "|" then
        let (right, cursor) ← readPipeline fuel cursor.skip.skipNewlines
        return (.pipe left right, cursor)
      else return (left, cursor)

/-- A command, simple or put together of others. -/
def readCommand : Nat → Cursor → Option (Script × Cursor)
  | 0, _ => none
  | fuel + 1, cursor =>
    if cursor.isAt "(" then do
      let (body, cursor) ← readList fuel cursor.skip
      if cursor.isAt ")" then return withRedirections (.subshell body) cursor.skip else none
    else
      match cursor.keyword? with
      | some "if" => do
        let (body, cursor) ← readChoice fuel cursor.skip
        return withRedirections body cursor
      | some "while" => do
        let (body, cursor) ← readLoop fuel true cursor.skip
        return withRedirections body cursor
      | some "until" => do
        let (body, cursor) ← readLoop fuel false cursor.skip
        return withRedirections body cursor
      | some "for" => do
        let (body, cursor) ← readEach fuel cursor.skip
        return withRedirections body cursor
      | some "case" => do
        let (body, cursor) ← readSelect fuel cursor.skip
        return withRedirections body cursor
      | some "\x7b" => do
        let (body, cursor) ← readList fuel cursor.skip
        return withRedirections body (← cursor.expect "\x7d")
      | keyword =>
        if cursor.isAtClose then none
        else
          match keyword, cursor.skip.tokens with
          | some name, .operator "(" :: .operator ")" :: rest => do
            let (body, cursor) ← readCommand fuel (Cursor.mk cursor.line rest).skipNewlines
            return (.define name body, cursor)
          | _, _ => readSimple cursor

/-- A condition, what is done if it succeeds, and what is done otherwise. -/
def readChoice : Nat → Cursor → Option (Script × Cursor)
  | 0, _ => none
  | fuel + 1, cursor => do
    let (condition, cursor) ← readList fuel cursor
    let (consequence, cursor) ← readList fuel (← cursor.expect "then")
    match cursor.keyword? with
    | some "elif" =>
      let (alternative, cursor) ← readChoice fuel cursor.skip
      return (.choice condition consequence alternative, cursor)
    | some "else" =>
      let (alternative, cursor) ← readList fuel cursor.skip
      return (.choice condition consequence alternative, ← cursor.expect "fi")
    | _ => return (.choice condition consequence .nothing, ← cursor.expect "fi")

/-- A condition, and what is done as long as its status is the expected one. -/
def readLoop : Nat → Bool → Cursor → Option (Script × Cursor)
  | 0, _, _ => none
  | fuel + 1, expected, cursor => do
    let (condition, cursor) ← readList fuel cursor
    let (body, cursor) ← readList fuel (← cursor.expect "do")
    return (.loop expected condition body, ← cursor.expect "done")

/-- A name, the words that it stands for in turn, and what is done with it. -/
def readEach : Nat → Cursor → Option (Script × Cursor)
  | 0, _ => none
  | fuel + 1, cursor => do
    let name ← cursor.keyword?
    let cursor := cursor.skip
    let (words, cursor) := if cursor.keyword? = some "in" then
        let (words, rest) := readWords cursor.skip.tokens
        (some words, (⟨cursor.line, rest⟩ : Cursor))
      else (none, cursor)
    let cursor := (if cursor.isAt ";" then cursor.skip else cursor).skipNewlines
    let (body, cursor) ← readList fuel (← cursor.expect "do")
    return (.each name words body, ← cursor.expect "done")

/-- A word and the scripts for its patterns. -/
def readSelect : Nat → Cursor → Option (Script × Cursor)
  | 0, _ => none
  | fuel + 1, cursor =>
    match cursor.tokens with
    | .word subject :: _ => do
      let (arms, cursor) ← readArms fuel (← cursor.skip.skipNewlines.expect "in")
      return (.select subject arms, cursor)
    | _ => none

/-- The scripts for patterns up to the end of them. -/
def readArms : Nat → Cursor → Option (List (List Word × Script) × Cursor)
  | 0, _ => none
  | fuel + 1, cursor =>
    let cursor := cursor.skipNewlines
    if cursor.keyword? = some "esac" then some ([], cursor.skip)
    else do
      let opened := if cursor.isAt "(" then cursor.skip else cursor
      let (patterns, rest) ← readPatterns opened.tokens
      let (body, cursor) ← readList fuel ⟨cursor.line, rest⟩
      let cursor := if cursor.isAt ";;" then cursor.skip else cursor
      let (arms, cursor) ← readArms fuel cursor
      return ((patterns, body) :: arms, cursor)

end

/-- The script that a text holds, if it can be read. -/
def Script.read? (text : List Char) : Option Script := do
  let tokens ← tokens? text
  -- Each token is reached through a bounded number of readings.
  let (script, cursor) ← readList (20 * tokens.length + 20) ⟨1, tokens⟩
  if cursor.tokens.isEmpty then some script else none

end DialectBench.Shell
