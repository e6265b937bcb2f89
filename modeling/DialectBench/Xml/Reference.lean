import DialectBench.Number.Decimal
import DialectBench.Xml.Name

/-! Character references, and how the white space of texts and attribute values is evened out. -/

namespace DialectBench.Xml

/-- The characters that have a name of their own. -/
def named : List (String × Char) :=
  [("quot", '"'), ("amp", '&'), ("apos", '\''), ("lt", '<'), ("gt", '>')]

/-- The value of a digit of base sixteen. -/
def hexValue? (c : Char) : Option Nat :=
  if c.isDigit then some (c.toNat - 48)
  else if 'a' ≤ c && c ≤ 'f' then some (c.toNat - 87)
  else if 'A' ≤ c && c ≤ 'F' then some (c.toNat - 55)
  else none

/-- The character of a number, if the number fits into 32 bits and the character is allowed. -/
def ofCode? (code : Nat) : Option Char :=
  if code < Number.capacity 32 then
    let c := if code.isValidChar then Char.ofNat code else '\uFFFD'
    if isAllowed c then some c else none
  else none

/-- The character that a reference stands for, written without the ampersand and the semicolon. -/
def referred? (body : List Char) : Option Char :=
  match body with
  | '#' :: 'x' :: digits =>
    match digits.mapM hexValue? with
    | some (value :: values) => ofCode? ((value :: values).foldl (· * 16 + ·) 0)
    | _ => none
  | '#' :: digits => (Number.digits? digits).bind ofCode?
  | name => named.lookup (String.ofList name)

/-- A character of a text: one that is written, or one that is referred to. -/
inductive Written where
  /-- The character itself. -/
  | plain (c : Char)
  /-- A reference to the character. -/
  | referred (c : Char)
  deriving DecidableEq, Repr

/-- The characters of a text with its references resolved; the fuel is the length of the text. -/
def resolve : Nat → List Char → Option (List Written)
  | _, [] => some []
  | 0, _ => none
  | fuel + 1, '&' :: rest =>
    match rest.dropWhile (· != ';') with
    | [] => none
    | _ :: after =>
      match referred? (rest.takeWhile (· != ';')) with
      | some c => (resolve fuel after).map (.referred c :: ·)
      | none => none
  | fuel + 1, c :: rest => (resolve fuel rest).map (.plain c :: ·)

/-- A text being evened out, its last character first. -/
structure Evened where
  /-- What is written so far. -/
  reversed : List Char
  /-- A reference came last, so the next character is taken as it is. -/
  afterReference : Bool

/-- A carriage return at the end becomes a line feed. -/
def Evened.settled (out : Evened) : List Char :=
  match out.reversed with
  | '\r' :: rest => '\n' :: rest
  | reversed => reversed

/-- One character more; the last one of a text is known as such. -/
def Evened.push (out : Evened) (isLast : Bool) : Written → Evened
  | .referred c => ⟨c :: out.reversed, true⟩
  | .plain c =>
    -- A character that was referred to is no part of a line break.
    if out.afterReference then ⟨c :: out.reversed, false⟩
    else
      let settled := out.settled
      let returned := out.reversed.head? == some '\r'
      if isLast && c == '\r' then ⟨'\n' :: settled, false⟩
      else if returned && c == '\n' then ⟨settled, false⟩
      else ⟨c :: settled, false⟩

/-- The characters of a text after those of the front part are evened out. -/
def evenFrom (out : Evened) : List Written → List Char
  | [] => out.reversed.reverse
  | c :: rest => evenFrom (out.push rest.isEmpty c) rest

/-- The characters of a text: a line break of any form becomes a line feed. A carriage return is
decided by the next written character, so one right before a reference stays. -/
def evenText (written : List Written) : List Char :=
  evenFrom ⟨[], false⟩ written

/-- The characters of an attribute value: a line break or a tab becomes a space, and characters
that are referred to stay. -/
def evenValue : List Written → List Char
  | [] => []
  | .referred c :: rest => c :: evenValue rest
  | .plain '\r' :: .plain '\n' :: rest => ' ' :: evenValue rest
  | .plain c :: rest =>
    (if c == '\r' || c == '\n' || c == '\t' then ' ' else c) :: evenValue rest

/-- The content of a text, if all its characters and references are right. -/
def textContent? (raw : List Char) : Option (List Char) :=
  if raw.all isAllowed then (resolve raw.length raw).map evenText else none

/-- The content of an attribute value, if all its characters and references are right. -/
def valueContent? (raw : List Char) : Option (List Char) :=
  if raw.all isAllowed then (resolve raw.length raw).map evenValue else none

end DialectBench.Xml
