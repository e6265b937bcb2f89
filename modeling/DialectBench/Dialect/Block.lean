import DialectBench.Text.Blank

/-! Blocks of a configuration of databases, and the settings in them. -/

namespace DialectBench.Dialect

/-- A quotation mark of either kind. -/
def isQuote (c : Char) : Bool :=
  c == '\'' || c == '"'

/-- The rests of a text without blanks at its front, the one without any blank first. -/
def blankSuffixes : List Char → List (List Char)
  | [] => [[]]
  -- A name may itself begin with a blank, so the shorter skips are kept for later.
  | c :: rest => if Text.isBlank c then blankSuffixes rest ++ [c :: rest] else [c :: rest]

/-- The rests of a text without and with a quotation mark at its front. -/
def quoteSuffixes : List Char → List (List Char)
  | [] => [[]]
  | c :: rest => if isQuote c then [rest, c :: rest] else [c :: rest]

/-- The text after a word that must stand at its front. -/
def afterWord? (word text : List Char) : Option (List Char) :=
  if word.isPrefixOf text then some (text.drop word.length) else none

/-- The text after a colon and the blanks around it. -/
def afterColon? (text : List Char) : Option (List Char) :=
  match text.dropWhile Text.isBlank with
  | ':' :: rest => some (rest.dropWhile Text.isBlank)
  | _ => none

/-- What follows a name, which may stand in quotation marks, and a colon. -/
def afterName? {α : Type} (name : List Char) (next : List Char → Option α) (text : List Char) :
    Option α :=
  (quoteSuffixes text).findSome? fun unquoted =>
    match afterWord? name unquoted with
    | none => none
    | some named => (quoteSuffixes named).findSome? fun rest => (afterColon? rest).bind next

/-- The text after an opening bracket. -/
def afterBracket? : List Char → Option (List Char)
  | '[' :: rest => some rest
  | _ => none

/-- The text after the opening of a block at the front, blanks before it skipped. -/
def openerAt? (name text : List Char) : Option (List Char) :=
  (blankSuffixes text).findSome? (afterName? name afterBracket?)

/-- The text after the first opening of a block that starts at the start of a line. -/
def opener? (name : List Char) : (atLineStart : Bool) → List Char → Option (List Char)
  | _, [] => none
  | atLineStart, c :: rest =>
    -- An opening in the middle of a line belongs to something else.
    match if atLineStart then openerAt? name (c :: rest) else none with
    | some after => some after
    | none => opener? name (c == '\n') rest

/-- The text up to the bracket that closes so many open brackets and one more. -/
def balanced? : (depth : Nat) → List Char → Option (List Char)
  | _, [] => none
  -- The bracket that closes the block is not part of it.
  | 0, ']' :: _ => some []
  | depth + 1, ']' :: rest => (balanced? depth rest).map (']' :: ·)
  | depth, '[' :: rest => (balanced? (depth + 1) rest).map ('[' :: ·)
  | depth, c :: rest => (balanced? depth rest).map (c :: ·)

/-- The text between the brackets of the first block of a name. -/
def block? (content name : String) : Option String :=
  ((opener? name.toList true content.toList).bind (balanced? 0)).map String.ofList

/-- The text between two quotation marks of one kind. -/
def quoted? : List Char → Option (List Char)
  | c :: rest =>
    if isQuote c && rest.contains c then some (rest.takeWhile (· != c)) else none
  | [] => none

/-- The first value that some place of a text gives a key. -/
def settingFrom? (key : List Char) : List Char → Option (List Char)
  | [] => afterName? key quoted? []
  | c :: rest =>
    match afterName? key quoted? (c :: rest) with
    | some value => some value
    | none => settingFrom? key rest

/-- The value of a key in a block. -/
def setting? (block key : String) : Option String :=
  (settingFrom? key.toList block.toList).map String.ofList

end DialectBench.Dialect
