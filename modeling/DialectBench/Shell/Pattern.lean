/-! Patterns that a shell compares texts with. -/

namespace DialectBench.Shell

/-- A part of a pattern. -/
inductive PatternPart where
  /-- A character. -/
  | exactly (c : Char)
  /-- Any one character. -/
  | one
  /-- Any number of characters. -/
  | many
  deriving DecidableEq, Repr

/-- A text is what a pattern describes. -/
def fits : List PatternPart → List Char → Bool
  | [], [] => true
  | [], _ :: _ => false
  | .exactly c :: parts, d :: text => c = d && fits parts text
  | .one :: parts, _ :: text => fits parts text
  | .exactly _ :: _, [] => false
  | .one :: _, [] => false
  | .many :: parts, [] => fits parts []
  | .many :: parts, c :: text => fits parts (c :: text) || fits (.many :: parts) text
  termination_by parts text => (parts.length, text.length)

/-- The part that a character outside quotes is. -/
def PatternPart.ofPlain (c : Char) : PatternPart :=
  if c = '*' then many else if c = '?' then one else exactly c

/-- What is left of a text when the shortest or the longest part at its front that a pattern
describes is taken away; without one nothing is. -/
def withoutFront (parts : List PatternPart) (longest : Bool) (text : List Char) : List Char :=
  let lengths := List.range (text.length + 1)
  let ordered := if longest then lengths.reverse else lengths
  match ordered.find? fun length => fits parts (text.take length) with
  | some length => text.drop length
  | none => text

/-- What is left of a text when the shortest or the longest part at its end that a pattern
describes is taken away; without one nothing is. -/
def withoutBack (parts : List PatternPart) (longest : Bool) (text : List Char) : List Char :=
  (withoutFront parts.reverse longest text.reverse).reverse

end DialectBench.Shell
