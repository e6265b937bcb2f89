import DialectBench.Number.Decimal
import DialectBench.Proofs.Number.Decimals

/-! The product of what a decimal's digits and its power of ten are rounded to: it is a double again
if the decimal is one that a double is written as. -/

namespace DialectBench.Number

open Float.Model

/-- The largest number of at most 17 digits that is small enough before a power of ten. -/
def room (ten : Nat) : Nat :=
  min (10 ^ 17) ((2 ^ 54 - 3) * 2 ^ 970 / 10 ^ ten)

/-- A power of ten as a double has all its bits, and whatever that number is rounded to, for each
number of bits that are lost, the product stays below the limit. -/
def holds (ten : Nat) : Bool :=
  match (nearest 1 ten).toModel.unpack with
  | .finite _ mantissa exponent _ =>
    2 ^ 52 ≤ mantissa && mantissa < 2 ^ 53 && -52 ≤ exponent &&
      (List.range 5).all fun (k : Nat) =>
        (0 < k && room ten < 2 ^ (52 + k)) ||
          (2 * room ten + 2 ^ k) / (2 * 2 ^ k) * 2 ^ k * mantissa * 2 ^ (exponent + 52).toNat <
            (2 ^ 54 - 1) * 2 ^ 1022
  | _ => false

theorem holds_of_lt : ∀ ten < 309, holds ten = true := by
  decide +kernel

/-- The largest double is read from its decimal, and all doubles are below the power of ten behind it. -/
theorem isInf_largest :
    (Float.ofNat 17976931348623157 * nearest 1 292).isInf = false ∧
      (2 ^ 54 - 3) * 2 ^ 970 < 10 ^ 309 := by
  decide +kernel

variable {value ten : Nat}

/-- A whole number of places below a power of two, as a fraction. -/
theorem cast_mul_two_pow (less n : Nat) (few : less ≤ 2 ^ 54) :
    (((2 ^ 54 - less) * 2 ^ n : Nat) : Rat) = (2 ^ 54 - less) * 2 ^ (n : Int) := by
  rw [zpow_natCast, Nat.cast_mul, Nat.cast_sub few, Nat.cast_pow, Nat.cast_pow]
  norm_num

/-- A number that is small enough before a power of ten finds room there. -/
theorem le_room (digits : value ≤ 10 ^ 17) (near : (value : Rat) * 10 ^ ten ≤ edge) :
    value ≤ room ten := by
  have whole : edge = (((2 ^ 54 - 3) * 2 ^ 970 : Nat) : Rat) :=
    (cast_mul_two_pow 3 970 (by norm_num)).symm
  refine Nat.le_min.mpr ⟨digits, ?_⟩
  rw [Nat.le_div_iff_mul_le (by positivity)]
  rw [whole] at near
  exact_mod_cast near

/-- A product that is counted in last places is below the limit. -/
theorem lt_limit {n other : Nat} {shift : Int} (least : -52 ≤ shift)
    (bound : n * other * 2 ^ (shift + 52).toNat < (2 ^ 54 - 1) * 2 ^ 1022) :
    (n : Rat) * (other * 2 ^ shift) < limit := by
  have bound' : (((n * other * 2 ^ (shift + 52).toNat : Nat)) : Rat) <
      (((2 ^ 54 - 1) * 2 ^ 1022 : Nat) : Rat) := Nat.cast_lt.mpr bound
  have power : (2 : Rat) ^ (shift + 52).toNat = 2 ^ shift * 2 ^ 52 := by
    rw [← zpow_natCast, Int.toNat_of_nonneg (by omega), zpow_add₀ two_ne_zero]
    rfl
  have top : (2 : Rat) ^ ((1022 : Nat) : Int) = 2 ^ (970 : Int) * 2 ^ 52 :=
    zpow_add₀ two_ne_zero 970 52
  rw [cast_mul_two_pow 1 1022 (by norm_num), top, Nat.cast_mul, Nat.cast_mul, Nat.cast_pow,
    Nat.cast_ofNat, power] at bound'
  rw [limit]
  generalize (2 : Rat) ^ (970 : Int) = last at bound' ⊢
  refine lt_of_mul_lt_mul_right ?_ (show (0 : Rat) ≤ 2 ^ 52 by positivity)
  push_cast at bound'
  linarith

/-- The product of a number and a power of ten that are both rounded is not infinite, if the number
is small enough. -/
theorem isInf_mul_nearest (some : value ≠ 0) (digits : value ≤ 10 ^ 17)
    (near : (value : Rat) * 10 ^ ten ≤ edge) (small : ten < 309) :
    (Float.ofNat value * nearest 1 ten).isInf = false := by
  have fits := le_room digits near
  have table := holds_of_lt ten small
  obtain ⟨mantissa, exponent, rounded, k, first, low, same, up, bits, few⟩ :=
    reads_ofNat some (show value < 2 ^ 57 by omega)
  unfold holds at table
  split at table
  next sign other shift pos unpacked =>
    simp only [Bool.and_eq_true, decide_eq_true_eq, List.all_eq_true, Bool.or_eq_true] at table
    obtain ⟨⟨⟨least, most⟩, least'⟩, all⟩ := table
    have second : Reads (nearest 1 ten) other shift := ⟨⟨sign, pos, unpacked⟩, least, most⟩
    -- Where bits are lost, the number has so many that there is room for them.
    have bound := (all k (List.mem_range.mpr few)).resolve_left fun ⟨pos, less⟩ => by
      rcases bits with rfl | long <;> omega
    have whole : rounded ≤ (2 * room ten + 2 ^ k) / (2 * 2 ^ k) := by
      rw [Nat.le_div_iff_mul_le (by positivity)]
      calc rounded * (2 * 2 ^ k) = 2 * rounded * 2 ^ k := by ring
        _ ≤ 2 * value + 2 ^ k := up
        _ ≤ 2 * room ten + 2 ^ k := by omega
    refine first.isInf_mul second (by omega) ?_
    rw [same]
    have less : rounded * 2 ^ k * other * 2 ^ (shift + 52).toNat < (2 ^ 54 - 1) * 2 ^ 1022 :=
      lt_of_le_of_lt (by gcongr) bound
    have product := lt_limit least' less
    push_cast at product
    exact product
  next => cases table

/-- A decimal far enough below the limit has no more than 309 digits. -/
theorem exponent_lt_of_le_edge {exponent : Int} (some : value ≠ 0)
    (near : (value : Rat) * 10 ^ exponent ≤ edge) : exponent < 309 := by
  by_contra large
  have least : (1 : Rat) ≤ value := by exact_mod_cast Nat.pos_of_ne_zero some
  have power : (10 : Rat) ^ (309 : Int) ≤ 10 ^ exponent :=
    zpow_le_zpow_right₀ (by norm_num) (by omega)
  have table' : (((2 ^ 54 - 3) * 2 ^ 970 : Nat) : Rat) < ((10 ^ 309 : Nat) : Rat) :=
    Nat.cast_lt.mpr isInf_largest.2
  have top : ((10 ^ 309 : Nat) : Rat) = 10 ^ (309 : Int) := by
    rw [Nat.cast_pow]
    exact (zpow_natCast 10 309).symm
  rw [cast_mul_two_pow 3 970 (by norm_num), top] at table'
  have above : (10 : Rat) ^ exponent ≤ value * 10 ^ exponent :=
    le_mul_of_one_le_left (by positivity) least
  exact absurd (table'.trans_le (power.trans (above.trans near))) (lt_irrefl _)

variable {v : Decimal}

/-- Such a decimal has no more than 309 digits in front of the point. -/
theorem Decimal.Bounded.exponent_lt (bounded : v.Bounded) (some : v.digits ≠ 0) :
    v.exponent < 309 := by
  rcases bounded.near with near | rfl
  · exact exponent_lt_of_le_edge some near
  · decide

/-- The product of what the digits and the power of ten are rounded to is not infinite. -/
theorem Decimal.Bounded.isInf_mul (bounded : v.Bounded) (some : v.digits ≠ 0)
    (whole : 0 ≤ v.exponent) :
    (Float.ofNat v.digits * nearest 1 v.exponent.natAbs).isInf = false := by
  have small := bounded.exponent_lt some
  have own : ((v.exponent.natAbs : Nat) : Int) = v.exponent := Int.natAbs_of_nonneg whole
  rcases bounded.near with near | rfl
  · refine isInf_mul_nearest some bounded.digits ?_ (by omega)
    rw [← zpow_natCast, own]
    exact near
  · exact isInf_largest.1

end DialectBench.Number
