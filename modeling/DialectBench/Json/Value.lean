/-! JSON values as they are written. -/

namespace DialectBench

/-- A JSON value; a number keeps its numeral, and a string that is not Unicode has no content. -/
inductive JsonValue where
  /-- The literal for nothing. -/
  | null
  /-- A truth value. -/
  | boolean (value : Bool)
  /-- A number by its numeral. -/
  | number (numeral : String)
  /-- A string, without content when it is not Unicode. -/
  | string (content : Option String)
  /-- A list of values. -/
  | array (items : List JsonValue)
  /-- Members in the order in which they are written. -/
  | object (members : List (Option String × JsonValue))
  deriving Repr, Inhabited

namespace JsonValue

/-- A string with a content. -/
def ofString (content : String) : JsonValue := .string (some content)

/-- A number that is whole and not negative. -/
def ofNat (value : Nat) : JsonValue := .number (toString value)

/-- A string or nothing. -/
def ofOption (content : Option String) : JsonValue :=
  match content with
  | some content => ofString content
  | none => .null

/-- An object with the given members. -/
def ofMembers (members : List (String × JsonValue)) : JsonValue :=
  .object (members.map fun (name, value) => (some name, value))

end JsonValue

end DialectBench
