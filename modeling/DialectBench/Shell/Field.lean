import DialectBench.Shell.Pattern
import DialectBench.Shell.Script

/-! What the parts of a word become, and the fields that they make together. -/

namespace DialectBench.Shell

/-- What a part of a word has become. -/
inductive Piece where
  /-- Characters that stay together. -/
  | fixed (text : List Char)
  /-- Characters that are cut into fields at white space. -/
  | loose (text : List Char)
  /-- Fields of their own. -/
  | fields (texts : List String)
  deriving DecidableEq, Repr

/-- The characters of a piece in one field. -/
def Piece.text : Piece → List Char
  | fixed text => text
  | loose text => text
  | fields texts => (" ".intercalate texts).toList

/-- The text that pieces make in one field. -/
def joined (pieces : List Piece) : String :=
  String.ofList (pieces.flatMap Piece.text)

/-- Fields that are being made: those that are complete, the last one first, and the one that goes
on. -/
structure Assembly where
  /-- The complete fields. -/
  complete : List String := []
  /-- The field that goes on. -/
  open? : Option (List Char) := none

namespace Assembly

/-- An assembly whose field is complete. -/
def cut (a : Assembly) : Assembly :=
  match a.open? with
  | some text => ⟨String.ofList text :: a.complete, none⟩
  | none => a

/-- An assembly whose field goes on with some characters. -/
def extend (a : Assembly) (text : List Char) : Assembly :=
  { a with open? := some (a.open?.getD [] ++ text) }

/-- An assembly after a character at which white space cuts. -/
def addLoose (a : Assembly) (c : Char) : Assembly :=
  if c = ' ' || c = '\t' || c = '\n' then a.cut else a.extend [c]

/-- An assembly after several fields, of which the first joins the field that goes on. -/
def addFields (a : Assembly) : List String → Assembly
  | [] => a
  | [text] => a.extend text.toList
  | text :: texts => (a.extend text.toList).cut.addFields texts

/-- An assembly after a piece. -/
def add (a : Assembly) : Piece → Assembly
  | .fixed text => a.extend text
  | .loose text => text.foldl addLoose a
  | .fields texts => a.addFields texts

/-- The fields of an assembly. -/
def finish (a : Assembly) : List String :=
  a.cut.complete.reverse

end Assembly

/-- The fields that the pieces of a word make; a word of nothing but quotes is an empty field. -/
def fieldsOf (word : Word) (pieces : List Piece) : List String :=
  let start : Assembly := if word.isEmpty then { open? := some [] } else {}
  (pieces.foldl Assembly.add start).finish

/-- The name that a word assigns to, and the word after the equals sign. -/
def assignment? : Word → Option (List Char × Word)
  | .plain c :: rest =>
    if c = '=' then some ([], rest)
    else if isNameChar c then (assignment? rest).map fun (name, value) => (c :: name, value)
    else none
  | _ => none

/-- The assignment that a word is, if its name is one. -/
def Word.assignment? (word : Word) : Option (String × Word) :=
  match Shell.assignment? word with
  | some (c :: name, value) =>
    if isNameStart c then some (String.ofList (c :: name), value) else none
  | _ => none

/-- The assignments at the front of some words, and the words after them. -/
def splitAssignments : List Word → List (String × Word) × List Word
  | [] => ([], [])
  | word :: words =>
    match word.assignment? with
    | some found => (found :: (splitAssignments words).1, (splitAssignments words).2)
    | none => ([], word :: words)

/-- What stands between braces after a dollar sign: a name, an operator and a word. -/
structure BraceUse where
  /-- The name. -/
  name : String
  /-- The operator. -/
  operator : String
  /-- The word. -/
  word : List Char

/-- The operators between braces. -/
def braceOperators : List String :=
  [":-", ":=", ":+", ":?", "-", "=", "+", "?", "%%", "%", "##", "#"]

/-- The parts of what stands between braces. -/
def readBraces (source : List Char) : BraceUse :=
  let name := match source with
    | c :: _ => if isNameStart c then source.takeWhile isNameChar else [c]
    | [] => []
  let rest := source.drop name.length
  match braceOperators.find? fun operator => operator.toList.isPrefixOf rest with
  | some operator => ⟨String.ofList name, operator, rest.drop operator.length⟩
  | none => ⟨String.ofList name, "", rest⟩

/-- The length of a value is asked for. -/
def isLengthUse (source : List Char) : Bool :=
  match source with
  | '#' :: c :: _ => isNameChar c
  | _ => false

/-- The parts of a word inside braces. -/
def braceWord (text : List Char) : Word :=
  let scan := text.foldl Scan.read { mode := .double, word := some [] }
  let scan := match scan.mode with
    | .name name quoted => scan.closeName name quoted
    | _ => scan
  (scan.closeWord.tokens.reverse.filterMap fun token =>
    match token with
    | .word parts => some parts
    | _ => none).flatten

/-- The pattern that a fragment and what it has become are. -/
def patternOf (fragment : Fragment) (pieces : List Piece) : List PatternPart :=
  match fragment with
  | .plain c => [.ofPlain c]
  | .literal c => [.exactly c]
  | _ =>
    pieces.flatMap fun piece =>
      match piece with
      | .loose text => text.map .ofPlain
      | piece => piece.text.map .exactly

end DialectBench.Shell
