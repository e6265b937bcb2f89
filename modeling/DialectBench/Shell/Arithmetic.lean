import DialectBench.Number.Whole

/-! The values of arithmetic expressions in scripts. -/

namespace DialectBench.Shell

/-- The operators between two values, from those that bind least to those that bind most. -/
def operatorLevels : List (List String) :=
  [["||"], ["&&"], ["==", "!="], ["<=", ">=", "<", ">"], ["+", "-"], ["*", "/", "%"]]

/-- One for what holds and zero for what does not. -/
def truthValue (holds : Bool) : Int := if holds then 1 else 0

/-- The value of an operator between two values; nothing is divided by zero. -/
def operate (operator : String) (a b : Int) : Option Int :=
  match operator with
  | "||" => some (truthValue (a ≠ 0 || b ≠ 0))
  | "&&" => some (truthValue (a ≠ 0 && b ≠ 0))
  | "==" => some (truthValue (a = b))
  | "!=" => some (truthValue (a ≠ b))
  | "<=" => some (truthValue (a ≤ b))
  | ">=" => some (truthValue (a ≥ b))
  | "<" => some (truthValue (a < b))
  | ">" => some (truthValue (a > b))
  | "+" => some (a + b)
  | "-" => some (a - b)
  | "*" => some (a * b)
  | "/" => if b = 0 then none else some (a.tdiv b)
  | "%" => if b = 0 then none else some (a.tmod b)
  | _ => none

/-- A text without the white space at its front. -/
def skipBlanks (text : List Char) : List Char :=
  text.dropWhile Char.isWhitespace

/-- The operator of a level that a text begins with, and the text after it. -/
def operatorAt? (level : List String) (text : List Char) : Option (String × List Char) :=
  (level.find? fun operator => operator.toList.isPrefixOf text).map fun operator =>
    (operator, text.drop operator.length)

/-- The value of a numeral or of nothing. -/
def numeralValue (text : String) : Int :=
  (Number.signedWithin? 64 text.toList).getD 0

mutual

/-- The value of the expression that a text begins with, by operators from a level on, and the text
after it. -/
def levelValue? (bindings : String → String) :
    Nat → List (List String) → List Char → Option (Int × List Char)
  | 0, _, _ => none
  | fuel + 1, [], text => atomValue? bindings fuel (skipBlanks text)
  | fuel + 1, level :: levels, text => do
    let (value, rest) ← levelValue? bindings fuel levels text
    chainValue? bindings fuel level levels value rest

/-- The value of a value and what operators of a level add to it, and the text after them. -/
def chainValue? (bindings : String → String) :
    Nat → List String → List (List String) → Int → List Char → Option (Int × List Char)
  | 0, _, _, _, _ => none
  | fuel + 1, level, levels, value, text =>
    match operatorAt? level (skipBlanks text) with
    | none => some (value, skipBlanks text)
    | some (operator, rest) => do
      let (other, rest) ← levelValue? bindings fuel levels rest
      chainValue? bindings fuel level levels (← operate operator value other) rest

/-- The value of what stands at the front without an operator around it, and the text after it. -/
def atomValue? (bindings : String → String) : Nat → List Char → Option (Int × List Char)
  | 0, _ => none
  | _, [] => none
  | fuel + 1, c :: text =>
    if c = '(' then do
      let (value, rest) ← levelValue? bindings fuel operatorLevels text
      match skipBlanks rest with
      | ')' :: rest => return (value, rest)
      | _ => none
    else if c = '-' then do
      let (value, rest) ← atomValue? bindings fuel (skipBlanks text)
      return (-value, rest)
    else if c = '+' then atomValue? bindings fuel (skipBlanks text)
    else if c = '!' then do
      let (value, rest) ← atomValue? bindings fuel (skipBlanks text)
      return (truthValue (value = 0), rest)
    else if c.isDigit then
      let digits := (c :: text).takeWhile Char.isDigit
      some (numeralValue (String.ofList digits), (c :: text).dropWhile Char.isDigit)
    else if c.isAlpha || c = '_' then
      let isName (d : Char) : Bool := d.isAlphanum || d == '_'
      let name := String.ofList ((c :: text).takeWhile isName)
      some (numeralValue (bindings name), (c :: text).dropWhile isName)
    else none

end

/-- The value of an expression; an empty one is zero. -/
def arithmetic? (bindings : String → String) (text : List Char) : Option Int :=
  if (skipBlanks text).isEmpty then some 0
  else
    match levelValue? bindings (10 * text.length + 20) operatorLevels text with
    | some (value, []) => some value
    | _ => none

end DialectBench.Shell
