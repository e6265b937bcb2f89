import DialectBench.Xml.Reference
import DialectBench.Xml.Namespace

/-! XML documents without a document type: elements, texts, and what stands between them. -/

namespace DialectBench.Xml

/-- A part of a document. -/
inductive Node where
  /-- An element with its ordinary attributes. -/
  | element (name : Name) (attributes : List Attribute) (children : List Node)
  /-- A run of characters. -/
  | text (content : List Char)
  /-- A comment or a processing instruction, which separates texts. -/
  | aside
  deriving Repr, Inhabited

/-- The input up to a word and after it, if the word occurs. -/
def cutAtWord (word : List Char) : List Char → Option (List Char × List Char)
  | [] => if word.isEmpty then some ([], []) else none
  | c :: rest =>
    if word.isPrefixOf (c :: rest) then some ([], (c :: rest).drop word.length)
    else (cutAtWord word rest).map fun (front, back) => (c :: front, back)

/-- Two dashes stand next to each other. -/
def hasTwoDashes : List Char → Bool
  | '-' :: '-' :: _ => true
  | _ :: rest => hasTwoDashes rest
  | [] => false

/-- The input after a comment whose opening has been read. -/
def afterComment? (input : List Char) : Option (List Char) :=
  match cutAtWord "-->".toList input with
  | none => none
  | some (body, rest) =>
    if body.all isAllowed && !hasTwoDashes body && body.getLast? != some '-' then some rest
    else none

/-- The input after a processing instruction whose opening has been read. -/
def afterInstruction? (input : List Char) : Option (List Char) :=
  -- An instruction named like the declaration is refused once a space follows the name.
  if (skipWord? "xml " input).isSome then none
  else
    match input with
    | c :: _ =>
      if isNameStart c || c == ':' then
        let inName (d : Char) : Bool := isNamePart d || d == ':'
        match cutAtWord "?>".toList (skipSpace (input.dropWhile inName)) with
        | none => none
        | some (body, rest) => if body.all isAllowed then some rest else none
      else none
    | [] => none

/-- The content of a marked section whose opening has been read, and the input after it. -/
def marked? (input : List Char) : Option (List Char × List Char) :=
  match cutAtWord "]]>".toList input with
  | none => none
  | some (body, rest) =>
    if body.all isAllowed then some (evenText (body.map Written.plain), rest) else none

/-- An attribute at the front of the input, its value as written. -/
def scanAttribute? (input : List Char) : Option (Name × List Char × List Char) := do
  let (name, rest) ← scanName input
  let rest ← skipWord? "=" (skipSpace rest)
  match skipSpace rest with
  | quote :: rest =>
    if quote == '"' || quote == '\'' then
      let inside (c : Char) : Bool := c != quote && c != '<'
      let raw := rest.takeWhile inside
      match rest.dropWhile inside with
      -- A value that is cut by an opening bracket has no closing quotation mark.
      | closing :: rest =>
        if closing == quote && raw.all isAllowed then some (name, raw, rest) else none
      | [] => none
    else none
  | [] => none

/-- The attributes of a start tag, whether it is empty, and the input after it. -/
def scanAttributes : Nat → List Char → Option (List Attribute × Bool × List Char)
  | 0, _ => none
  | fuel + 1, input =>
    match skipSpace input with
    | [] => none
    | '/' :: rest =>
      match rest with
      | '>' :: rest => some ([], true, rest)
      | _ => none
    | '>' :: rest => some ([], false, rest)
    | rest =>
      -- An attribute stands apart from what is before it.
      if (input.head?.map isSpace).getD false then do
        let (name, raw, rest) ← scanAttribute? rest
        let value ← valueContent? raw
        let (attributes, empty, rest) ← scanAttributes fuel rest
        return (⟨name, value⟩ :: attributes, empty, rest)
      else none

/-- Texts next to each other are one. -/
def prependText (content : List Char) : List Node → List Node
  | .text next :: nodes => .text (content ++ next) :: nodes
  | nodes => .text content :: nodes

/-- The input after an end tag whose opening has been read, if it closes the element. -/
def afterEndTag? (name : Name) (input : List Char) : Option (List Char) := do
  let (closing, rest) ← scanName input
  if closing = name then skipWord? ">" (skipSpace rest) else none

/-- The end of a text must not look like the end of a marked section. -/
def closesSection (raw : List Char) : Bool :=
  (cutAtWord "]]>".toList raw).isSome

mutual

/-- An element whose opening bracket has been read. -/
def scanElement : Nat → Scope → List Char → Option (Node × List Char)
  | 0, _, _ => none
  | fuel + 1, scope, input =>
    match scanName input with
    | none => none
    | some (name, rest) =>
      match scanAttributes (rest.length + 1) rest with
      | none => none
      | some (attributes, empty, rest) =>
        match enter? scope name attributes with
        | none => none
        | some (inside, ordinary) =>
          if empty then some (.element name ordinary [], rest)
          else
            match scanContent fuel inside rest with
            | none => none
            | some (children, rest) =>
              (afterEndTag? name rest).map fun rest => (.element name ordinary children, rest)

/-- The content of an element up to the opening of an end tag. -/
def scanContent : Nat → Scope → List Char → Option (List Node × List Char)
  | 0, _, _ => none
  | fuel + 1, scope, input =>
    match input with
    | [] => none
    | '<' :: '/' :: rest => some ([], rest)
    | '<' :: '!' :: '-' :: '-' :: rest =>
      match afterComment? rest with
      | none => none
      | some rest =>
        (scanContent fuel scope rest).map fun (nodes, rest) => (.aside :: nodes, rest)
    | '<' :: '!' :: rest =>
      match (skipWord? "[CDATA[" rest).bind marked? with
      | none => none
      | some (content, rest) =>
        (scanContent fuel scope rest).map fun (nodes, rest) => (prependText content nodes, rest)
    | '<' :: '?' :: rest =>
      match afterInstruction? rest with
      | none => none
      | some rest =>
        (scanContent fuel scope rest).map fun (nodes, rest) => (.aside :: nodes, rest)
    | '<' :: rest =>
      match scanElement fuel scope rest with
      | none => none
      | some (node, rest) =>
        (scanContent fuel scope rest).map fun (nodes, rest) => (node :: nodes, rest)
    | _ =>
      let raw := input.takeWhile (· != '<')
      if closesSection raw then none
      else
        match textContent? raw with
        | none => none
        | some content =>
          (scanContent fuel scope (input.dropWhile (· != '<'))).map fun (nodes, rest) =>
            (prependText content nodes, rest)

end

/-- The input after comments, instructions and space. -/
def skipAsides : Nat → List Char → Option (List Char)
  | 0, _ => none
  | fuel + 1, input =>
    match skipSpace input with
    | '<' :: '!' :: '-' :: '-' :: rest => (afterComment? rest).bind (skipAsides fuel)
    | '<' :: '?' :: rest => (afterInstruction? rest).bind (skipAsides fuel)
    | rest => some rest

/-- The input after the space that must stand before it unless the declaration ends. -/
def separated? (input : List Char) : Option (List Char) :=
  match input with
  | [] => some []
  | c :: _ =>
    if isSpace c then some (skipSpace input)
    else if (skipWord? "?>" input).isSome then some input
    else none

/-- The input after an attribute of the declaration whose name begins with a word. -/
def afterSetting? (word : String) (input : List Char) : Option (List Char) := do
  let _ ← skipWord? word input
  let (_, _, rest) ← scanAttribute? input
  return rest

/-- The input after a declaration whose opening has been read: a version, then perhaps an encoding
and a note on being standalone. -/
def afterDeclaration? (input : List Char) : Option (List Char) := do
  let rest ← separated? input
  let rest ← separated? (← afterSetting? "version" rest)
  let rest ←
    if (skipWord? "encoding" rest).isSome then separated? (← afterSetting? "encoding" rest)
    else some rest
  let rest ←
    if (skipWord? "standalone" rest).isSome then afterSetting? "standalone" rest else some rest
  skipWord? "?>" (skipSpace rest)

/-- The root element of a document. -/
def root? (input : List Char) : Option Node := do
  let input := match input with
    | '\uFEFF' :: rest => rest
    | _ => input
  let fuel := input.length + 1
  let body ← match skipWord? "<?xml " input with
    | some rest => afterDeclaration? (' ' :: rest)
    | none => some input
  match ← skipAsides fuel body with
  | '<' :: rest =>
    let (root, rest) ← scanElement (2 * fuel) [] rest
    -- After the root element there may be comments and instructions only.
    if (← skipAsides fuel rest).isEmpty then some root else none
  | _ => none

/-- The value of an attribute that has no qualifier. -/
def valueOf? (base : String) (attributes : List Attribute) : Option String :=
  (attributes.find? fun given =>
    given.name.qualifier.isEmpty && given.name.base = base.toList).map
      fun given => String.ofList given.value

/-- The text that the children of an element begin with. -/
def leadingText? : List Node → Option String
  | .text content :: _ => some (String.ofList content)
  | _ => none

end DialectBench.Xml
