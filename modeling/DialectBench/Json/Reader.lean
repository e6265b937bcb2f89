import DialectBench.Json.Value
import DialectBench.Text.Utf8

/-! Strict reading of JSON; what is not Unicode is refused only where its content is asked for. -/

namespace DialectBench.JsonValue

/-- A character of the input, or a gap where the bytes are broken. -/
abbrev Glyph := Option Char

/-- The input after blanks. -/
def skipSpace : List Glyph → List Glyph
  | some c :: rest =>
    if c == ' ' || c == '\n' || c == '\t' || c == '\r' then skipSpace rest else some c :: rest
  | input => input

/-- The value of a digit of base sixteen. -/
def hexValue? : Glyph → Option Nat
  | some c =>
    if c.isDigit then some (c.toNat - 48)
    else if 'a' ≤ c && c ≤ 'f' then some (c.toNat - 87)
    else if 'A' ≤ c && c ≤ 'F' then some (c.toNat - 55)
    else none
  | none => none

/-- The value of four digits of base sixteen. -/
def hexUnit? (a b c d : Glyph) : Option Nat := do
  return (((← hexValue? a) * 16 + (← hexValue? b)) * 16 + (← hexValue? c)) * 16 + (← hexValue? d)

/-- The character that a short escape stands for. -/
def shortEscape? : Char → Option Char
  | '"' => some '"'
  | '\\' => some '\\'
  | '/' => some '/'
  | 'b' => some '\x08'
  | 'f' => some '\x0c'
  | 'n' => some '\n'
  | 'r' => some '\r'
  | 't' => some '\t'
  | _ => none

/-- A string being read: its content, if it is Unicode so far, and the input after it. -/
abbrev Scanned := Option (List Char) × List Glyph

/-- A character before what was read. -/
def Scanned.cons (c : Char) (scanned : Scanned) : Scanned :=
  (scanned.1.map (c :: ·), scanned.2)

/-- Something before what was read that is no character. -/
def Scanned.broken (scanned : Scanned) : Scanned :=
  (none, scanned.2)

/-- The rest of a string after the first half of a pair of units, if one is waiting. -/
def scanString : Option Nat → List Glyph → Option Scanned
  | _, [] => none
  | waiting, some '"' :: rest => some (if waiting.isSome then none else some [], rest)
  | waiting, some '\\' :: some 'u' :: a :: b :: c :: d :: rest =>
    match hexUnit? a b c d with
    | none => none
    | some unit =>
      -- The first half of a pair waits for the second one, which must follow at once.
      if 0xD800 ≤ unit && unit < 0xDC00 then
        let scanned := scanString (some unit) rest
        if waiting.isSome then scanned.map Scanned.broken else scanned
      else if 0xDC00 ≤ unit && unit < 0xE000 then
        match waiting with
        | some high =>
          (scanString none rest).map
            (Scanned.cons (Char.ofNat (0x10000 + (high - 0xD800) * 0x400 + (unit - 0xDC00))))
        | none => (scanString none rest).map Scanned.broken
      else
        let scanned := (scanString none rest).map (Scanned.cons (Char.ofNat unit))
        if waiting.isSome then scanned.map Scanned.broken else scanned
  | waiting, some '\\' :: some e :: rest =>
    match shortEscape? e with
    | none => none
    | some c =>
      let scanned := (scanString none rest).map (Scanned.cons c)
      if waiting.isSome then scanned.map Scanned.broken else scanned
  | waiting, some c :: rest =>
    if c == '\\' || c.toNat < 32 then none
    else
      let scanned := (scanString none rest).map (Scanned.cons c)
      if waiting.isSome then scanned.map Scanned.broken else scanned
  | _, none :: rest => (scanString none rest).map Scanned.broken

/-- The digits at the front of the input, and the rest. -/
def scanDigits : List Glyph → List Char × List Glyph
  | some c :: rest =>
    if c.isDigit then
      let (digits, after) := scanDigits rest
      (c :: digits, after)
    else ([], some c :: rest)
  | input => ([], input)

/-- The digits that must stand at the front of the input. -/
def scanSomeDigits (input : List Glyph) : Option (List Char × List Glyph) :=
  match scanDigits input with
  | ([], _) => none
  | scanned => some scanned

/-- The digits of a whole part, which has no zero before other digits. -/
def scanWhole (input : List Glyph) : Option (List Char × List Glyph) :=
  match scanDigits input with
  | ([], _) => none
  | ('0' :: _ :: _, _) => none
  | scanned => some scanned

/-- The part of a numeral after the point, if there is one. -/
def scanFraction : List Glyph → Option (List Char × List Glyph)
  | some '.' :: rest => (scanSomeDigits rest).map fun (digits, after) => ('.' :: digits, after)
  | input => some ([], input)

/-- The exponent of a numeral, if there is one. -/
def scanExponent : List Glyph → Option (List Char × List Glyph)
  | some mark :: rest =>
    if mark == 'e' || mark == 'E' then
      match rest with
      | some '+' :: rest => (scanSomeDigits rest).map fun (ds, after) => ('e' :: ds, after)
      | some '-' :: rest => (scanSomeDigits rest).map fun (ds, after) => ('e' :: '-' :: ds, after)
      | rest => (scanSomeDigits rest).map fun (ds, after) => ('e' :: ds, after)
    else some ([], some mark :: rest)
  | input => some ([], input)

/-- A numeral without its sign. -/
def scanMagnitude (input : List Glyph) : Option (List Char × List Glyph) := do
  let (whole, rest) ← scanWhole input
  let (part, rest) ← scanFraction rest
  let (power, rest) ← scanExponent rest
  return (whole ++ part ++ power, rest)

/-- A numeral. -/
def scanNumber : List Glyph → Option (List Char × List Glyph)
  | some '-' :: rest => (scanMagnitude rest).map fun (body, after) => ('-' :: body, after)
  | input => scanMagnitude input

/-- The input after a word that must stand at its front. -/
def skipWord : List Char → List Glyph → Option (List Glyph)
  | [], input => some input
  | c :: word, some d :: rest => if c = d then skipWord word rest else none
  | _ :: _, _ => none

mutual

/-- A value at the front of the input, blanks before it skipped. -/
def scanValue : Nat → List Glyph → Option (JsonValue × List Glyph)
  | 0, _ => none
  | fuel + 1, input =>
    match skipSpace input with
    | some '{' :: rest =>
      match skipSpace rest with
      | some '}' :: rest => some (.object [], rest)
      | rest => (scanMembers fuel rest).map fun (members, after) => (.object members, after)
    | some '[' :: rest =>
      match skipSpace rest with
      | some ']' :: rest => some (.array [], rest)
      | rest => (scanItems fuel rest).map fun (items, after) => (.array items, after)
    | some '"' :: rest =>
      (scanString none rest).map fun (content, after) =>
        (.string (content.map String.ofList), after)
    | some 't' :: rest => (skipWord "rue".toList rest).map fun after => (.boolean true, after)
    | some 'f' :: rest => (skipWord "alse".toList rest).map fun after => (.boolean false, after)
    | some 'n' :: rest => (skipWord "ull".toList rest).map fun after => (.null, after)
    | rest =>
      (scanNumber rest).map fun (numeral, after) => (.number (String.ofList numeral), after)

/-- The items of a list up to its closing bracket. -/
def scanItems : Nat → List Glyph → Option (List JsonValue × List Glyph)
  | 0, _ => none
  | fuel + 1, input =>
    match scanValue fuel input with
    | none => none
    | some (item, rest) =>
      match skipSpace rest with
      | some ',' :: rest =>
        (scanItems fuel rest).map fun (items, after) => (item :: items, after)
      | some ']' :: rest => some ([item], rest)
      | _ => none

/-- The members of an object up to its closing brace. -/
def scanMembers : Nat → List Glyph → Option (List (Option String × JsonValue) × List Glyph)
  | 0, _ => none
  | fuel + 1, input =>
    match skipSpace input with
    | some '"' :: rest =>
      match scanString none rest with
      | none => none
      | some (content, rest) =>
        match skipSpace rest with
        | some ':' :: rest =>
          match scanValue fuel rest with
          | none => none
          | some (value, rest) =>
            let name := content.map String.ofList
            match skipSpace rest with
            | some ',' :: rest =>
              (scanMembers fuel rest).map fun (members, after) => ((name, value) :: members, after)
            | some '}' :: rest => some ([(name, value)], rest)
            | _ => none
        | _ => none
    | _ => none

end

/-- The value that some bytes hold, with nothing but blanks around it. -/
def read? (bytes : Bytes) : Option JsonValue :=
  let input := Text.glyphs bytes
  match scanValue (2 * input.length + 2) input with
  | some (value, rest) => if (skipSpace rest).isEmpty then some value else none
  | none => none

end DialectBench.JsonValue
