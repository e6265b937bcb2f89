import DialectBench.Json.Value

/-! JSON values written over several lines, two spaces deeper at each level. -/

namespace DialectBench.JsonValue

/-- A digit of base sixteen in lower case. -/
def hexDigit (n : Nat) : Char :=
  if n < 10 then Char.ofNat (48 + n) else Char.ofNat (87 + n)

/-- A character inside a string. -/
def escaped (c : Char) : List Char :=
  match c with
  | '"' => ['\\', '"']
  | '\\' => ['\\', '\\']
  | '\n' => ['\\', 'n']
  | '\r' => ['\\', 'r']
  | '\t' => ['\\', 't']
  | _ =>
    if c.toNat = 8 then ['\\', 'b']
    else if c.toNat = 12 then ['\\', 'f']
    else if c.toNat < 32 then
      ['\\', 'u', '0', '0', hexDigit (c.toNat / 16), hexDigit (c.toNat % 16)]
    else [c]

/-- A string in quotes. -/
def quoted (content : List Char) : List Char :=
  '"' :: content.flatMap escaped ++ ['"']

/-- A line feed and the spaces of a level. -/
def newline (level : Nat) : List Char :=
  '\n' :: List.replicate (2 * level) ' '

mutual

/-- A value that starts on a line of the given level. -/
def pretty (level : Nat) : JsonValue → List Char
  | .null => "null".toList
  | .boolean true => "true".toList
  | .boolean false => "false".toList
  | .number numeral => numeral.toList
  | .string content => quoted ((content.getD "").toList)
  | .array [] => "[]".toList
  | .array (item :: items) =>
    '[' :: newline (level + 1) ++ pretty (level + 1) item ++ prettyItems (level + 1) items
      ++ newline level ++ [']']
  | .object [] => "{}".toList
  | .object ((name, value) :: members) =>
    '{' :: newline (level + 1) ++ quoted ((name.getD "").toList) ++ [':', ' ']
      ++ pretty (level + 1) value ++ prettyMembers (level + 1) members ++ newline level ++ ['}']

/-- The items of a list after the first. -/
def prettyItems (level : Nat) : List JsonValue → List Char
  | [] => []
  | item :: items => ',' :: newline level ++ pretty level item ++ prettyItems level items

/-- The members of an object after the first. -/
def prettyMembers (level : Nat) : List (Option String × JsonValue) → List Char
  | [] => []
  | (name, value) :: members =>
    ',' :: newline level ++ quoted ((name.getD "").toList) ++ [':', ' '] ++ pretty level value
      ++ prettyMembers level members

end

/-- The text of a value. -/
def text (value : JsonValue) : String :=
  String.ofList (pretty 0 value)

end DialectBench.JsonValue
