import DialectBench.Number.Whole

/-! The shortest decimal that reads back as a given double. -/

namespace DialectBench.Number

/-- A positive double as a whole number times a power of two. -/
structure Dyadic where
  /-- The whole number. -/
  mantissa : Nat
  /-- The power of two. -/
  exponent : Int
  /-- The next smaller double is only half as far away as the next greater one. -/
  narrow : Bool

/-- A finite double without its sign. -/
def Dyadic.ofBits (bits : UInt64) : Dyadic :=
  let fraction : Nat := bits.toNat % capacity 52
  let scale : Nat := bits.toNat / capacity 52 % capacity 11
  -- Doubles near zero have no leading digit of their own.
  if scale = 0 then ⟨fraction, -1074, false⟩
  else ⟨capacity 52 + fraction, (scale : Int) - 1075, fraction = 0 && scale > 1⟩

/-- A fraction of two whole numbers: a whole number times powers of two and of ten. -/
def fraction (value : Nat) (two ten : Int) : Nat × Nat :=
  (value * Nat.pow 2 two.toNat * Nat.pow 10 ten.toNat,
    Nat.pow 2 (-two).toNat * Nat.pow 10 (-ten).toNat)

/-- A decimal: a whole number times a power of ten. -/
structure Decimal where
  /-- The digits as a whole number. -/
  digits : Nat
  /-- The power of ten. -/
  exponent : Int
  deriving DecidableEq, Repr

/-- A decimal of the grid of a power of ten lies in the interval of what reads as the double. -/
def Dyadic.admits (d : Dyadic) (candidate : Nat) (grid : Int) : Bool :=
  -- All bounds are counted in quarters of the last place of the double.
  let (n, den) := fraction candidate (2 - d.exponent) grid
  let low := 4 * d.mantissa - (if d.narrow then 1 else 2)
  let high := 4 * d.mantissa + 2
  if d.mantissa % 2 = 0 then low * den ≤ n && n ≤ high * den
  else low * den < n && n < high * den

/-- The decimal of a grid next to the double, if one of its two neighbours reads as it. -/
def Dyadic.onGrid (d : Dyadic) (grid : Int) : Option Decimal :=
  let (n, den) := fraction d.mantissa d.exponent (-grid)
  let below := n / den
  let rest := 2 * (n % den)
  let nearer := if rest < den || (rest = den && below % 2 = 0) then below else below + 1
  let farther := if nearer = below then below + 1 else below
  if d.admits nearer grid then some ⟨nearer, grid⟩
  else if d.admits farther grid then some ⟨farther, grid⟩
  else none

/-- The place of the leading digit of a positive double. -/
def Dyadic.leading (d : Dyadic) : Int :=
  -- The estimate from below is at most one too small.
  let bits : Int := d.mantissa.log2 + d.exponent
  let guess : Int := (bits * 30103).fdiv 100000 - 1
  let reaches (place : Int) : Bool :=
    let (n, den) := fraction d.mantissa d.exponent (-place)
    n ≥ den
  if reaches (guess + 2) then guess + 2
  else if reaches (guess + 1) then guess + 1
  else if reaches guess then guess
  else guess - 1

/-- A decimal without zeros at its end. -/
def Decimal.reduced : Nat → Decimal → Decimal
  | 0, value => value
  | fuel + 1, value =>
    if value.digits % 10 = 0 && value.digits ≠ 0 then
      Decimal.reduced fuel ⟨value.digits / 10, value.exponent + 1⟩
    else value

/-- The shortest decimal that reads as a positive double, the nearest of them. -/
def Dyadic.shortest (d : Dyadic) : Decimal :=
  let leading := d.leading
  let found := (List.range 17).findSome? fun (count : Nat) => d.onGrid (leading - (count : Int))
  Decimal.reduced 20 (found.getD ⟨d.mantissa, 0⟩)

/-- The shortest decimal that reads as the magnitude of a finite double. -/
def shortest (x : Float) : Decimal :=
  let bits := x.toBits &&& 0x7FFFFFFFFFFFFFFF
  if bits = 0 then ⟨0, 0⟩ else (Dyadic.ofBits bits).shortest

/-- The sign bit of a double is set. -/
def isNegative (x : Float) : Bool :=
  x.toBits >>> 63 == 1

/-- How a decimal is written: positional from one power of ten up to below another, otherwise with
an exponent. -/
structure Layout where
  /-- The least power of ten written positionally. -/
  least : Int
  /-- The power of ten from which on an exponent is written. -/
  bound : Int
  /-- The sign before a positive exponent. -/
  plus : String

/-- The text of a decimal that is not zero. -/
def Layout.magnitude (layout : Layout) (value : Decimal) : String :=
  let ds := Nat.toDigits 10 value.digits
  let point : Int := ds.length + value.exponent
  if layout.least < point && point ≤ layout.bound then
    if value.exponent ≥ 0 then
      String.ofList (ds ++ List.replicate value.exponent.toNat '0') ++ ".0"
    else if point > 0 then
      String.ofList (ds.take point.toNat) ++ "." ++ String.ofList (ds.drop point.toNat)
    else "0." ++ String.ofList (List.replicate (-point).toNat '0' ++ ds)
  else
    let head := String.ofList (ds.take 1)
    let tail := if ds.length > 1 then "." ++ String.ofList (ds.drop 1) else ""
    let power := point - 1
    head ++ tail ++ "e" ++ (if power ≥ 0 then layout.plus else "-") ++ toString power.natAbs

/-- The text of a finite double. -/
def Layout.text (layout : Layout) (x : Float) : String :=
  let value := shortest x
  let body := if value.digits = 0 then "0.0" else layout.magnitude value
  if isNegative x then "-" ++ body else body

end DialectBench.Number
