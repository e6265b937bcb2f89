import DialectBench.Text.Line

/-! Basic regular expressions: characters, any character, sets, repetition and anchors. -/

namespace DialectBench.Text

/-- What one character is compared with. -/
inductive Matcher where
  /-- A character. -/
  | exactly (c : Char)
  /-- Any character. -/
  | any
  /-- The characters of some ranges, or all others. -/
  | among (ranges : List (Char × Char)) (excluded : Bool)
  deriving DecidableEq, Repr

/-- A character is what a matcher describes. -/
def Matcher.accepts (matcher : Matcher) (c : Char) : Bool :=
  match matcher with
  | exactly d => c = d
  | any => true
  | among ranges excluded => (ranges.any fun (low, high) => low ≤ c && c ≤ high) != excluded

/-- A matcher that is used once or any number of times. -/
structure Repeated where
  /-- What is compared. -/
  matcher : Matcher
  /-- Any number of times. -/
  starred : Bool
  deriving DecidableEq, Repr

/-- A regular expression. -/
structure Expression where
  /-- It matches only at the start of a line. -/
  atStart : Bool
  /-- It matches only at the end of a line. -/
  atEnd : Bool
  /-- What is compared in turn. -/
  items : List Repeated
  deriving DecidableEq, Repr

/-- The ranges of a set up to its closing bracket, and the text after it. -/
def readRanges : List Char → List (Char × Char) × List Char
  | [] => ([], [])
  | ']' :: rest => ([], rest)
  | low :: '-' :: high :: rest =>
    if high = ']' then ([(low, low), ('-', '-')], rest)
    else ((low, high) :: (readRanges rest).1, (readRanges rest).2)
  | c :: rest => ((c, c) :: (readRanges rest).1, (readRanges rest).2)

/-- The set whose opening bracket was read, and the text after it. -/
def readSet (text : List Char) : Matcher × List Char :=
  let (excluded, text) := match text with
    | '^' :: rest => (true, rest)
    | _ => (false, text)
  let (first, text) := match text with
    | ']' :: rest => ([(']', ']')], rest)
    | _ => ([], text)
  let (ranges, rest) := readRanges text
  (.among (first ++ ranges) excluded, rest)

/-- The matcher that a text begins with, and the text after it. -/
def readMatcher : List Char → Option (Matcher × List Char)
  | [] => none
  | '.' :: rest => some (.any, rest)
  | '[' :: rest => some (readSet rest)
  | '\\' :: c :: rest => some (.exactly c, rest)
  | c :: rest => some (.exactly c, rest)

/-- The items of an expression, and whether it ends in an anchor. -/
def readItems : Nat → List Char → List Repeated × Bool
  | 0, _ => ([], false)
  | _, ['$'] => ([], true)
  | fuel + 1, text =>
    match readMatcher text with
    | none => ([], false)
    | some (matcher, '*' :: rest) =>
      let (items, anchored) := readItems fuel rest
      (⟨matcher, true⟩ :: items, anchored)
    | some (matcher, rest) =>
      let (items, anchored) := readItems fuel rest
      (⟨matcher, false⟩ :: items, anchored)

/-- The expression that a text writes. -/
def Expression.read (text : String) : Expression :=
  let (anchored, body) := match text.toList with
    | '^' :: rest => (true, rest)
    | all => (false, all)
  let (items, atEnd) := readItems body.length body
  ⟨anchored, atEnd, items⟩

/-- What follows the longest match at the front of a text. -/
def afterItems (atEnd : Bool) : List Repeated → List Char → Option (List Char)
  | [], text => if atEnd && !text.isEmpty then none else some text
  | item :: items, [] => if item.starred then afterItems atEnd items [] else none
  | item :: items, c :: text =>
    if item.matcher.accepts c then
      if item.starred then
        (afterItems atEnd (item :: items) text).or (afterItems atEnd items (c :: text))
      else afterItems atEnd items text
    else if item.starred then afterItems atEnd items (c :: text)
    else none
  termination_by items text => (items.length + text.length, items.length)

/-- The match at the front of a text, and the text after it. -/
def Expression.front (expression : Expression) (text : List Char) :
    Option (List Char × List Char) :=
  (afterItems expression.atEnd expression.items text).map fun rest =>
    (text.take (text.length - rest.length), rest)

/-- The text before the first match, the match, and the text after it. -/
def Expression.search (expression : Expression) :
    List Char → Option (List Char × List Char × List Char)
  | [] => (expression.front []).map fun (found, rest) => ([], found, rest)
  | c :: text =>
    match expression.front (c :: text) with
    | some (found, rest) => some ([], found, rest)
    | none =>
      if expression.atStart then none
      else (expression.search text).map fun (before, found, rest) => (c :: before, found, rest)

/-- A text with its first match replaced. -/
def Expression.replaceFirst (expression : Expression) (change : List Char → List Char)
    (text : List Char) : List Char :=
  match expression.search text with
  | some (before, found, rest) => before ++ change found ++ rest
  | none => text

/-- A text with its first matches replaced, so many at most. -/
def Expression.replaceAll (expression : Expression) (change : List Char → List Char) :
    Nat → List Char → List Char
  | 0, text => text
  | fuel + 1, text =>
    match expression.search text with
    | none => text
    | some (before, found, rest) =>
      match found, rest with
      | [], [] => before ++ change []
      | [], c :: rest => before ++ change [] ++ c :: expression.replaceAll change fuel rest
      | found, rest =>
        if rest.isEmpty then before ++ change found
        else before ++ change found ++ expression.replaceAll change fuel rest

end DialectBench.Text
