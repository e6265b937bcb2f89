import DialectBench.Number.Whole

/-! Decimal numerals read as the nearest double. -/

namespace DialectBench.Number

/-- The double nearest to a whole number times a power of ten. -/
def nearest (value : Nat) (exponent : Int) : Float :=
  -- Beyond these exponents the result is infinite or zero, whatever the digits are.
  let size : Int := (Nat.toDigits 10 value).length
  if value = 0 then 0
  else if size + exponent > 400 then 1.0 / 0.0
  else if size + exponent < -400 then 0
  else Float.ofScientific value (exponent < 0) exponent.natAbs

/-- The digits at the front of a list, and the rest. -/
def spanDigits (cs : List Char) : List Char × List Char :=
  (cs.takeWhile Char.isDigit, cs.dropWhile Char.isDigit)

/-- The value of a list of digits, zero for none. -/
def digitsValue (ds : List Char) : Nat :=
  ds.foldl (fun value d => value * 10 + (d.toNat - 48)) 0

/-- The exponent that a numeral ends with; nothing at all counts as zero. -/
def exponent? : List Char → Option Int
  | [] => some 0
  | mark :: rest =>
    if mark == 'e' || mark == 'E' then
      match rest with
      | '-' :: ds => (digits? ds).map fun value => -(value : Int)
      | '+' :: ds => (digits? ds).map fun value => (value : Int)
      | ds => (digits? ds).map fun value => (value : Int)
    else none

/-- An unsigned numeral: digits around an optional point, at least one of them, and an exponent. -/
def unsigned? (cs : List Char) : Option Float :=
  let (whole, rest) := spanDigits cs
  let (part, rest) := match rest with
    | '.' :: rest => spanDigits rest
    | _ => ([], rest)
  if whole.isEmpty && part.isEmpty then none
  else (exponent? rest).map fun exponent =>
    nearest (digitsValue (whole ++ part)) (exponent - part.length)

/-- The names of what is not finite, in any case. -/
def special? (cs : List Char) : Option Float :=
  let name := String.ofList (cs.map Char.toLower)
  if name == "inf" || name == "infinity" then some (1.0 / 0.0)
  else if name == "nan" then some (0.0 / 0.0)
  else none

/-- The double that a numeral with an optional sign names. -/
def double? (cs : List Char) : Option Float :=
  let magnitude (body : List Char) := (unsigned? body).or (special? body)
  match cs with
  | '-' :: body => (magnitude body).map fun value => -value
  | '+' :: body => magnitude body
  | body => magnitude body

end DialectBench.Number
