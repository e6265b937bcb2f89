/-! Whole numbers below a bound, read as decimal digits after an optional plus sign. -/

namespace DialectBench.Number

/-- The value of a run of decimal digits, if it is one and not empty. -/
def digits? : List Char → Option Nat
  | [] => none
  | c :: cs => (c :: cs).foldl (fun value d =>
      if d.isDigit then value.map (· * 10 + (d.toNat - 48)) else none) (some 0)

/-- The value of a run of digits after an optional plus sign, if it is below the bound. -/
def wholeBelow? (bound : Nat) (cs : List Char) : Option Nat :=
  let body := match cs with
    | '+' :: rest => rest
    | _ => cs
  match digits? body with
  | some value => if value < bound then some value else none
  | none => none

/-- The number of values that so many bits tell apart. -/
def capacity (bits : Nat) : Nat := Nat.pow 2 bits

/-- The value of a signed run of digits, if it fits into so many bits as two's complement. -/
def signedWithin? (bits : Nat) (cs : List Char) : Option Int :=
  let magnitude (body : List Char) (limit : Nat) := match digits? body with
    | some value => if value ≤ limit then some value else none
    | none => none
  match cs with
  | '-' :: rest => (magnitude rest (capacity (bits - 1))).map fun value => -(value : Int)
  | '+' :: rest => (magnitude rest (capacity (bits - 1) - 1)).map fun value => (value : Int)
  | _ => (magnitude cs (capacity (bits - 1) - 1)).map fun value => (value : Int)

/-- One more than the largest 64-bit count. -/
def wordSize : Nat := capacity 64

/-- A 64-bit word read as two's complement. -/
def asSigned (value : Nat) : Int :=
  if value < capacity 63 then (value : Int) else (value : Int) - wordSize

end DialectBench.Number
