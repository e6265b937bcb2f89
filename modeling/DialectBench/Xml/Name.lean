/-! Characters and qualified names of XML documents. -/

namespace DialectBench.Xml

/-- The characters that a document may hold. -/
def isAllowed (c : Char) : Bool :=
  if c.toNat < 32 then c == '\t' || c == '\n' || c == '\r'
  else c.toNat != 0xFFFE && c.toNat != 0xFFFF

/-- The white space of the markup. -/
def isSpace (c : Char) : Bool :=
  c == ' ' || c == '\t' || c == '\n' || c == '\r'

/-- The ranges of the characters beyond ASCII that begin a name. -/
def startRanges : List (Nat × Nat) :=
  [(0xC0, 0xD6), (0xD8, 0xF6), (0xF8, 0x2FF), (0x370, 0x37D), (0x37F, 0x1FFF), (0x200C, 0x200D),
    (0x2070, 0x218F), (0x2C00, 0x2FEF), (0x3001, 0xD7FF), (0xF900, 0xFDCF), (0xFDF0, 0xFFFD),
    (0x10000, 0xEFFFF)]

/-- The characters that begin a part of a name. -/
def isNameStart (c : Char) : Bool :=
  c.isAlpha || c == '_'
    || startRanges.any fun (low, high) => low ≤ c.toNat && c.toNat ≤ high

/-- The characters that go on in a part of a name. -/
def isNamePart (c : Char) : Bool :=
  isNameStart c || c.isDigit || c == '-' || c == '.' || c.toNat == 0xB7
    || (0x300 ≤ c.toNat && c.toNat ≤ 0x36F) || (0x203F ≤ c.toNat && c.toNat ≤ 0x2040)

/-- A name in two parts; a name without a colon has an empty qualifier. -/
structure Name where
  /-- The part before the colon. -/
  qualifier : List Char
  /-- The part after the colon. -/
  base : List Char
  deriving DecidableEq, Repr

/-- A part of a name begins as it must. -/
def beginsName (part : List Char) : Bool :=
  match part with
  | [] => false
  | c :: _ => isNameStart c

/-- The name at the front of the input: at most one colon, and a base that is not empty. -/
def scanName (input : List Char) : Option (Name × List Char) :=
  let inName (c : Char) : Bool := isNamePart c || c == ':'
  let written := input.takeWhile inName
  let rest := input.dropWhile inName
  let front := written.takeWhile (· != ':')
  match written.dropWhile (· != ':') with
  | [] => if beginsName front then some (⟨[], front⟩, rest) else none
  | _ :: base =>
    if base.contains ':' then none
    else if (front.isEmpty || beginsName front) && beginsName base then
      some (⟨front, base⟩, rest)
    else none

/-- The input after white space. -/
def skipSpace (input : List Char) : List Char :=
  input.dropWhile isSpace

/-- The input after a word that must stand at its front. -/
def skipWord? (word : String) (input : List Char) : Option (List Char) :=
  if word.toList.isPrefixOf input then some (input.drop word.toList.length) else none

end DialectBench.Xml
