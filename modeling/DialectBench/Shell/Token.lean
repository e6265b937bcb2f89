import DialectBench.Text.Blank

/-! The words and operators that a shell finds in a script, read character by character. -/

namespace DialectBench.Shell

/-- A part of a word. -/
inductive Fragment where
  /-- A character outside quotes. -/
  | plain (c : Char)
  /-- A character that stands for itself because of quotes or a backslash. -/
  | literal (c : Char)
  /-- The value of a parameter. -/
  | parameter (name : String) (quoted : Bool)
  /-- What stands between braces after a dollar sign. -/
  | braces (source : String) (quoted : Bool)
  /-- What stands between brackets after a dollar sign, or between backquotes: a script whose output
  is meant, or an expression between brackets of its own. -/
  | script (source : String) (quoted : Bool)
  deriving DecidableEq, Repr

/-- A word by its parts. -/
abbrev Word := List Fragment

/-- What a script consists of. -/
inductive Token where
  /-- A word. -/
  | word (parts : Word)
  /-- The number of a stream right before a redirection. -/
  | stream (number : Nat)
  /-- An operator. -/
  | operator (text : String)
  /-- The end of a line. -/
  | newline
  deriving DecidableEq, Repr

/-- The character of a part, if it is one. -/
def Fragment.char? : Fragment → Option Char
  | plain c => some c
  | literal c => some c
  | _ => none

/-- The characters of a word, if nothing in it is to be expanded. -/
def Word.text? (word : Word) : Option String :=
  (word.mapM Fragment.char?).map String.ofList

/-- The text of a token that is a word without anything to be expanded. -/
def Token.text? : Token → Option String
  | word parts => Word.text? parts
  | _ => none

/-- What the next character is part of. -/
inductive Mode where
  /-- Nothing special. -/
  | normal
  /-- A comment. -/
  | comment
  /-- Single quotes. -/
  | single
  /-- Double quotes. -/
  | double
  /-- A backslash was read, in double quotes or outside. -/
  | escape (quoted : Bool)
  /-- A dollar sign was read, in double quotes or outside. -/
  | dollar (quoted : Bool)
  /-- The name of a parameter. -/
  | name (text : List Char) (quoted : Bool)
  /-- Braces after a dollar sign, with the number of open ones and what was read of them. -/
  | braces (depth : Nat) (source : List Char) (quoted : Bool)
  /-- Brackets after a dollar sign, with the number of open ones and what was read of them. -/
  | brackets (depth : Nat) (source : List Char) (quoted : Bool)
  /-- Backquotes with what was read of them. -/
  | backquotes (source : List Char) (quoted : Bool)
  /-- An operator of one character that may become one of two. -/
  | operator (c : Char)
  deriving DecidableEq, Repr

/-- What was read of a script; what comes last in it comes first here. -/
structure Scan where
  /-- What the next character is part of. -/
  mode : Mode := .normal
  /-- The word that is being read, if there is one. -/
  word : Option (List Fragment) := none
  /-- The tokens that were read. -/
  tokens : List Token := []
  deriving DecidableEq, Repr

/-- The characters that operators are made of. -/
def isOperatorChar (c : Char) : Bool :=
  ";&|<>()".toList.contains c

/-- The operators of two characters. -/
def doubleOperators : List String := ["&&", "||", ";;", ">>", "<<", ">&", "<&", ">|", "<>"]

/-- A character that a name may begin with. -/
def isNameStart (c : Char) : Bool :=
  c.isAlpha || c == '_'

/-- A character that a name may go on with. -/
def isNameChar (c : Char) : Bool :=
  c.isAlphanum || c == '_'

/-- The parameters of one character. -/
def isSpecial (c : Char) : Bool :=
  c.isDigit || "?$#*@!-".toList.contains c

namespace Scan

/-- The mode inside or outside double quotes. -/
def back (quoted : Bool) : Mode :=
  if quoted then .double else .normal

/-- A scan with a fragment more in its word. -/
def push (s : Scan) (fragment : Fragment) : Scan :=
  { s with word := some (fragment :: s.word.getD []) }

/-- A scan that goes on in a mode with a word, which may be empty so far. -/
def enter (s : Scan) (mode : Mode) : Scan :=
  { s with mode, word := some (s.word.getD []) }

/-- A scan whose word is complete. -/
def closeWord (s : Scan) : Scan :=
  match s.word with
  | some parts => { s with word := none, tokens := .word parts.reverse :: s.tokens }
  | none => s

/-- The number that a word of digits alone is. -/
def streamNumber? (parts : List Fragment) : Option Nat :=
  match parts.reverse with
  | [.plain c] => if c.isDigit then some (c.toNat - 48) else none
  | _ => none

/-- A scan whose word is complete before a redirection; a digit tells the stream. -/
def closeBeforeRedirection (s : Scan) : Scan :=
  match s.word.bind streamNumber? with
  | some number => { s with word := none, tokens := .stream number :: s.tokens }
  | none => s.closeWord

/-- A scan with an operator more. -/
def pushOperator (s : Scan) (text : String) : Scan :=
  { s with mode := .normal, tokens := .operator text :: s.tokens }

/-- A scan after a character outside quotes. -/
def readNormal (s : Scan) (c : Char) : Scan :=
  let s := { s with mode := .normal }
  if c = ' ' || c = '\t' then s.closeWord
  else if c = '\n' then { s.closeWord with tokens := .newline :: s.closeWord.tokens }
  else if c = '<' || c = '>' then { s.closeBeforeRedirection with mode := .operator c }
  else if isOperatorChar c then { s.closeWord with mode := .operator c }
  else if c = '#' && s.word.isNone then { s with mode := .comment }
  else if c = '\'' then s.enter .single
  else if c = '"' then s.enter .double
  else if c = '\\' then { s with mode := .escape false }
  else if c = '$' then s.enter (.dollar false)
  else if c.toNat = 96 then s.enter (.backquotes [] false)
  else s.push (.plain c)

/-- A scan after a character in double quotes. -/
def readDouble (s : Scan) (c : Char) : Scan :=
  let s := { s with mode := .double }
  if c = '"' then { s with mode := .normal }
  else if c = '\\' then { s with mode := .escape true }
  else if c = '$' then { s with mode := .dollar true }
  else if c.toNat = 96 then { s with mode := .backquotes [] true }
  else s.push (.literal c)

/-- A scan after a character inside or outside double quotes. -/
def readBack (s : Scan) (quoted : Bool) (c : Char) : Scan :=
  if quoted then s.readDouble c else s.readNormal c

/-- A scan after the character that follows a backslash. -/
def readEscaped (s : Scan) (quoted : Bool) (c : Char) : Scan :=
  let s := { s with mode := back quoted }
  if c = '\n' then s
  else if quoted && !("$\"\\".toList.contains c || c.toNat = 96) then
    (s.push (.literal '\\')).push (.literal c)
  else s.push (.literal c)

/-- A scan after the character that follows a dollar sign. -/
def readDollar (s : Scan) (quoted : Bool) (c : Char) : Scan :=
  if isNameStart c then { s with mode := .name [c] quoted }
  else if c = '\x7b' then { s with mode := .braces 0 [] quoted }
  else if c = '(' then { s with mode := .brackets 0 [] quoted }
  else if isSpecial c then { s.push (.parameter c.toString quoted) with mode := back quoted }
  else (s.push (.literal '$')).readBack quoted c

/-- A scan with the parameter whose name is complete. -/
def closeName (s : Scan) (text : List Char) (quoted : Bool) : Scan :=
  { s.push (.parameter (String.ofList text.reverse) quoted) with mode := back quoted }

/-- A scan after a character. -/
def read (s : Scan) (c : Char) : Scan :=
  match s.mode with
  | .normal => s.readNormal c
  | .comment => if c = '\n' then s.readNormal c else s
  | .single => if c = '\'' then { s with mode := .normal } else s.push (.literal c)
  | .double => s.readDouble c
  | .escape quoted => s.readEscaped quoted c
  | .dollar quoted => s.readDollar quoted c
  | .name text quoted =>
    if isNameChar c then { s with mode := .name (c :: text) quoted }
    else (s.closeName text quoted).readBack quoted c
  | .braces depth source quoted =>
    if c = '\x7d' then
      match depth with
      | 0 =>
        { s.push (.braces (String.ofList source.reverse) quoted) with mode := back quoted }
      | depth + 1 => { s with mode := .braces depth (c :: source) quoted }
    else
      { s with mode := .braces (if c = '\x7b' then depth + 1 else depth) (c :: source) quoted }
  | .brackets depth source quoted =>
    if c = ')' then
      match depth with
      | 0 =>
        { s.push (.script (String.ofList source.reverse) quoted) with mode := back quoted }
      | depth + 1 => { s with mode := .brackets depth (c :: source) quoted }
    else
      { s with mode := .brackets (if c = '(' then depth + 1 else depth) (c :: source) quoted }
  | .backquotes source quoted =>
    if c.toNat = 96 then
      { s.push (.script (String.ofList source.reverse) quoted) with mode := back quoted }
    else { s with mode := .backquotes (c :: source) quoted }
  | .operator first =>
    let text := String.ofList [first, c]
    if doubleOperators.contains text then s.pushOperator text
    else (s.pushOperator first.toString).readNormal c

/-- The tokens of a scan at the end of the script, if nothing is left open. -/
def finish (s : Scan) : Option (List Token) :=
  match s.mode with
  | .normal => some s.closeWord.tokens.reverse
  | .comment => some s.closeWord.tokens.reverse
  | .name text false => some (s.closeName text false).closeWord.tokens.reverse
  | .dollar false => some (s.push (.literal '$')).closeWord.tokens.reverse
  | .operator c => some (s.pushOperator c.toString).tokens.reverse
  | .escape false => some (s.push (.literal '\\')).closeWord.tokens.reverse
  | _ => none

end Scan

/-- The tokens of a script. -/
def tokens? (script : List Char) : Option (List Token) :=
  (script.foldl Scan.read {}).finish

end DialectBench.Shell
