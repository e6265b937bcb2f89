import DialectBench.Json.Value
import DialectBench.Number.Decimal

/-! Typed readings of JSON values: counts, doubles, texts, lists and records. -/

namespace DialectBench.JsonValue

/-- A count below the bound of 64 bits, written without sign, point and exponent. -/
def count? : JsonValue → Option Nat
  | .number numeral =>
    match Number.digits? numeral.toList with
    | some value => if value < Number.wordSize then some value else none
    | none => none
  | _ => none

/-- Digits taken up as long as the value fits into 64 bits, and the number of those left over. -/
def significand (start : Nat) : List Char → Nat × Nat
  | [] => (start, 0)
  | d :: ds =>
    let next := start * 10 + (d.toNat - 48)
    -- From the first digit that does not fit on, digits count only for the power of ten.
    if next < Number.wordSize then significand next ds else (start, ds.length + 1)

/-- A significand scaled by a power of ten in steps that a double can hold. -/
def scale : Nat → Float → Int → Option Float
  | 0, value, _ => some value
  | fuel + 1, value, exponent =>
    if exponent.natAbs ≤ 308 then
      let power := Number.nearest 1 exponent.natAbs
      if exponent ≥ 0 then
        let scaled := value * power
        if scaled.isInf then none else some scaled
      else some (value / power)
    -- Zero stays zero whatever the power.
    else if value == 0 then some value
    else if exponent ≥ 0 then none
    -- A power beyond the range of doubles is divided by in steps.
    else scale fuel (value / Number.nearest 1 308) (exponent + 308)

/-- The exponent of a numeral, if a 32-bit number holds it, or its sign alone. -/
def power (ds : List Char) : Int × Bool :=
  let (negative, ds) := match ds with
    | '-' :: ds => (true, ds)
    | ds => (false, ds)
  let value := Number.digitsValue ds
  (if negative then -(value : Int) else (value : Int), value < Number.capacity 31)

/-- The double that an unsigned numeral is read as, if it is in range. -/
def magnitude? (body : List Char) : Option Float :=
  let (whole, rest) := Number.spanDigits body
  let (part, rest) := match rest with
    | '.' :: rest => Number.spanDigits rest
    | _ => ([], rest)
  let (value, dropped) := significand 0 whole
  let (value, ignored) := significand value part
  let place : Int := (dropped : Int) - (part.length - ignored : Nat)
  match rest with
  | _ :: ds =>
    let (shift, fits) := power ds
    if fits then scale 6 (Float.ofNat value) (place + shift)
    else if value ≠ 0 && shift > 0 then none
    else some 0
  | [] => scale 6 (Float.ofNat value) place

/-- A double, from any numeral in range. -/
def double? : JsonValue → Option Float
  | .number numeral =>
    match numeral.toList with
    | '-' :: body => (magnitude? body).map fun value => -value
    | body => magnitude? body
  | _ => none

/-- A text. -/
def text? : JsonValue → Option String
  | .string content => content
  | _ => none

/-- A text or nothing. -/
def textOrNull? : JsonValue → Option (Option String)
  | .null => some none
  | value => value.text?.map some

/-- A list of texts. -/
def texts? : JsonValue → Option (List String)
  | .array items => items.mapM text?
  | _ => none

/-- The members of a record in the order of their names, and whether they came as a list. -/
structure Fields where
  /-- What each name stands for, if it is there. -/
  values : List (Option JsonValue)
  /-- The members came as a list. -/
  positional : Bool

/-- The values that some members give a name. -/
def valuesOf (name : String) (members : List (Option String × JsonValue)) : List JsonValue :=
  members.filterMap fun (key, value) => if key = some name then some value else none

/-- A record with the given names: an object, in which other names are ignored and a name given
twice is an error, or a list in their order. -/
def fields? (names : List String) : JsonValue → Option Fields
  | .object members =>
    if members.any fun (key, _) => key.isNone then none
    else
      let found := names.map fun name => valuesOf name members
      if found.any fun values => values.length > 1 then none
      else some ⟨found.map List.head?, false⟩
  | .array items =>
    -- A list gives the members by position, and missing ones at its end are not there.
    if items.length > names.length then none
    else some ⟨items.map some ++ List.replicate (names.length - items.length) none, true⟩
  | _ => none

end DialectBench.JsonValue
