import DialectBench.Number.Shortest
import DialectBench.Proofs.Number.Rounding

/-! The decimal that a double is written as: how many digits it has and how large it is. -/

namespace DialectBench.Number

open Float.Model

variable {d : Dyadic} {grid : Int} {found : Decimal}

/-- The number that a double stands for. -/
def Dyadic.value (d : Dyadic) : Rat :=
  d.mantissa * 2 ^ d.exponent

/-- The number that a decimal stands for. -/
def Decimal.value (v : Decimal) : Rat :=
  v.digits * 10 ^ v.exponent

/-- A power with a negative exponent is one that is divided by. -/
theorem zpow_mul_pow {base : Rat} (some : base ≠ 0) (n : Int) :
    base ^ n * base ^ (-n).toNat = base ^ n.toNat := by
  rw [← zpow_natCast, ← zpow_natCast, ← zpow_add₀ some]
  congr 1
  omega

/-- A fraction is a whole number times powers of two and of ten. -/
theorem fraction_eq (value : Nat) (two ten : Int) :
    0 < (fraction value two ten).2 ∧
      ((fraction value two ten).1 : Rat) = value * 2 ^ two * 10 ^ ten * (fraction value two ten).2 := by
  refine ⟨Nat.mul_pos (Nat.pow_pos (by decide)) (Nat.pow_pos (by decide)), ?_⟩
  have twos := zpow_mul_pow (show (2 : Rat) ≠ 0 by norm_num) two
  have tens := zpow_mul_pow (show (10 : Rat) ≠ 0 by norm_num) ten
  simp only [fraction, Nat.pow_eq]
  push_cast
  rw [← twos, ← tens]
  ring

/-- A decimal that reads as a double is at most half of the last place above it. -/
theorem value_le_of_admits {candidate : Nat} (admits : d.admits candidate grid = true) :
    (candidate : Rat) * 10 ^ grid ≤ (d.mantissa + 1 / 2) * 2 ^ d.exponent := by
  -- What admits a candidate compares whole numbers: both sides are multiplied by four and by the
  -- denominator.
  obtain ⟨pos, written⟩ := fraction_eq candidate (2 - d.exponent) grid
  have below : (fraction candidate (2 - d.exponent) grid).1 ≤
      (4 * d.mantissa + 2) * (fraction candidate (2 - d.exponent) grid).2 := by
    unfold Dyadic.admits at admits
    dsimp only at admits
    split at admits <;> simp only [Bool.and_eq_true, decide_eq_true_eq] at admits <;> omega
  have below' : ((fraction candidate (2 - d.exponent) grid).1 : Rat) ≤
      (4 * d.mantissa + 2) * (fraction candidate (2 - d.exponent) grid).2 := by
    exact_mod_cast below
  rw [written] at below'
  have bound := le_of_mul_le_mul_right below' (by exact_mod_cast pos)
  have place : (0 : Rat) < 2 ^ d.exponent := by positivity
  -- The place of the double, in quarters, is what the fraction was scaled by.
  have quarter : (2 : Rat) ^ (2 - d.exponent) * 2 ^ d.exponent = 4 := by
    rw [← zpow_add₀ two_ne_zero]
    norm_num
  calc (candidate : Rat) * 10 ^ grid
      = candidate * (2 ^ (2 - d.exponent) * 2 ^ d.exponent) * 10 ^ grid / 4 := by
        rw [quarter]
        ring
    _ = (candidate * 2 ^ (2 - d.exponent) * 10 ^ grid) * 2 ^ d.exponent / 4 := by ring
    _ ≤ (4 * d.mantissa + 2) * 2 ^ d.exponent / 4 := by gcongr
    _ = (d.mantissa + 1 / 2) * 2 ^ d.exponent := by ring

/-- The number on a grid below a double. -/
theorem floor_mul_le_value (d : Dyadic) (grid : Int) :
    (((fraction d.mantissa d.exponent (-grid)).1 /
      (fraction d.mantissa d.exponent (-grid)).2 : Nat) : Rat) * 10 ^ grid ≤ d.value := by
  obtain ⟨pos, written⟩ := fraction_eq d.mantissa d.exponent (-grid)
  generalize fraction d.mantissa d.exponent (-grid) = parts at pos written
  -- Division of whole numbers rounds down, which is all that is used of it.
  have whole : ((parts.1 / parts.2 : Nat) : Rat) * parts.2 ≤ parts.1 := by
    exact_mod_cast Nat.div_mul_le_self _ _
  rw [written] at whole
  have bound := le_of_mul_le_mul_right whole (by exact_mod_cast pos)
  have cancel : (10 : Rat) ^ (-grid) * 10 ^ grid = 1 := by
    rw [← zpow_add₀ (by norm_num)]
    simp
  calc ((parts.1 / parts.2 : Nat) : Rat) * 10 ^ grid
      ≤ (d.mantissa * 2 ^ d.exponent * 10 ^ (-grid)) * 10 ^ grid := by gcongr
    _ = d.value := by rw [Dyadic.value, mul_assoc, cancel, mul_one]

/-- A decimal of a grid that is found for a double is at most one more than the number below it, and
at most half of the last place above the double. -/
theorem onGrid_eq_some (listed : d.onGrid grid = some found) :
    found.exponent = grid ∧ ((found.digits : Rat) - 1) * 10 ^ grid ≤ d.value ∧
      found.value ≤ (d.mantissa + 1 / 2) * 2 ^ d.exponent := by
  have floor := floor_mul_le_value d grid
  unfold Dyadic.onGrid at listed
  dsimp only at listed
  generalize (fraction d.mantissa d.exponent (-grid)).1 /
    (fraction d.mantissa d.exponent (-grid)).2 = below at floor listed
  -- Both candidates are among the number below and the next one.
  have near (candidate : Nat) (least : candidate ≤ below + 1)
      (admits : d.admits candidate grid = true) :
      ((candidate : Rat) - 1) * 10 ^ grid ≤ d.value ∧
        (candidate : Rat) * 10 ^ grid ≤ (d.mantissa + 1 / 2) * 2 ^ d.exponent := by
    refine ⟨le_trans ?_ floor, value_le_of_admits admits⟩
    have least' : (candidate : Rat) ≤ below + 1 := by exact_mod_cast least
    gcongr
    linarith
  -- Whichever of the two is asked first, the other one is asked only if the first is not admitted.
  have choose (nearer : Nat) (least : nearer ≤ below + 1)
      (listed : (if d.admits nearer grid then some (⟨nearer, grid⟩ : Decimal)
        else if d.admits (if nearer = below then below + 1 else below) grid then
          some ⟨if nearer = below then below + 1 else below, grid⟩
        else none) = some found) :
      found.exponent = grid ∧ ((found.digits : Rat) - 1) * 10 ^ grid ≤ d.value ∧
        found.value ≤ (d.mantissa + 1 / 2) * 2 ^ d.exponent := by
    generalize other : (if nearer = below then below + 1 else below) = farther at listed
    have next : farther ≤ below + 1 := by
      rw [← other]
      split <;> omega
    split at listed
    next admits =>
      cases listed
      exact ⟨rfl, near nearer least admits⟩
    split at listed
    next admits =>
      cases listed
      exact ⟨rfl, near farther next admits⟩
    next => cases listed
  exact choose _ (by split <;> omega) listed

/-- How a power of two compares with the power of ten that its digits are estimated by. -/
theorem pow_le_of_estimate : ∀ n : Nat, n < 2098 →
    2 ^ ((n : Int) - 1073).toNat * 10 ^ (-((((n : Int) - 1074) * 30103).fdiv 100000 + 2)).toNat ≤
      10 ^ ((((n : Int) - 1074) * 30103).fdiv 100000 + 2).toNat * 2 ^ (-((n : Int) - 1073)).toNat := by
  decide +kernel

/-- A power of two is at most the power of ten that its digits are estimated by. -/
theorem two_zpow_le {bits : Int} (low : -1074 ≤ bits) (high : bits < 1024) :
    (2 : Rat) ^ (bits + 1) ≤ 10 ^ ((bits * 30103).fdiv 100000 + 2) := by
  -- The table holds for all exponents of doubles; they are shifted there to be counted from zero.
  have table := pow_le_of_estimate (bits + 1074).toNat (by omega)
  have index : (((bits + 1074).toNat : Nat) : Int) = bits + 1074 := Int.toNat_of_nonneg (by omega)
  have one : bits + 1074 - 1073 = bits + 1 := by omega
  have other : bits + 1074 - 1074 = bits := by omega
  rw [index, one, other] at table
  -- The powers with negative exponents stand on the other side of the inequality, as whole numbers.
  have table' : ((2 : Rat) ^ (bits + 1).toNat *
      10 ^ (-((bits * 30103).fdiv 100000 + 2)).toNat) ≤
        10 ^ ((bits * 30103).fdiv 100000 + 2).toNat * 2 ^ (-(bits + 1)).toNat := by
    exact_mod_cast table
  generalize (bits * 30103).fdiv 100000 + 2 = place at table' ⊢
  rw [← zpow_mul_pow two_ne_zero (bits + 1), ← zpow_mul_pow (by norm_num) place] at table'
  have twos : (0 : Rat) < 2 ^ (-(bits + 1)).toNat := by positivity
  have tens : (0 : Rat) < 10 ^ (-place).toNat := by positivity
  refine le_of_mul_le_mul_right ?_ (mul_pos twos tens)
  linarith

/-- A double is below the power of two behind its first bit. -/
theorem value_lt_two_zpow (d : Dyadic) : d.value < 2 ^ ((d.mantissa.log2 : Int) + d.exponent + 1) := by
  have most : (d.mantissa : Rat) < 2 ^ (d.mantissa.log2 + 1) := by
    exact_mod_cast Nat.lt_log2_self
  calc d.value < 2 ^ (d.mantissa.log2 + 1) * 2 ^ d.exponent := by
        unfold Dyadic.value
        gcongr
    _ = 2 ^ ((d.mantissa.log2 : Int) + d.exponent + 1) := by
        rw [← zpow_natCast, ← zpow_add₀ two_ne_zero]
        congr 1
        push_cast
        ring

/-- A double without digits from a place on is below the power of ten there. -/
theorem value_lt_of_not_reaches {place : Int}
    (less : (fraction d.mantissa d.exponent (-place)).1 <
      (fraction d.mantissa d.exponent (-place)).2) : d.value < 10 ^ place := by
  obtain ⟨pos, written⟩ := fraction_eq d.mantissa d.exponent (-place)
  generalize fraction d.mantissa d.exponent (-place) = parts at pos written less
  have less' : (parts.1 : Rat) < parts.2 := by exact_mod_cast less
  have den : (0 : Rat) < parts.2 := by exact_mod_cast pos
  rw [written] at less'
  -- Less than one whole remains in front of the place.
  have small : (d.mantissa : Rat) * 2 ^ d.exponent * 10 ^ (-place) < 1 :=
    (mul_lt_iff_lt_one_left den).mp less'
  have cancel : (10 : Rat) ^ (-place) * 10 ^ place = 1 := by
    rw [← zpow_add₀ (by norm_num)]
    simp
  calc d.value = (d.mantissa * 2 ^ d.exponent * 10 ^ (-place)) * 10 ^ place := by
        rw [Dyadic.value, mul_assoc, cancel, mul_one]
    _ < 1 * 10 ^ place := by gcongr
    _ = 10 ^ place := one_mul _

/-- A double is below the power of ten behind its leading digit. -/
theorem value_lt_leading (low : -1074 ≤ (d.mantissa.log2 : Int) + d.exponent)
    (high : (d.mantissa.log2 : Int) + d.exponent < 1024) : d.value < 10 ^ (d.leading + 1) := by
  have estimate := (value_lt_two_zpow d).trans_le (two_zpow_le low high)
  unfold Dyadic.leading
  dsimp only
  generalize (((d.mantissa.log2 : Int) + d.exponent) * 30103).fdiv 100000 = guess at estimate ⊢
  -- The guess may be too high by up to two places, which are given up as long as there is no digit
  -- there.
  split_ifs with third second first
  · have place : guess - 1 + 2 + 1 = guess + 2 := by ring
    rwa [place]
  · have place : guess - 1 + 1 + 1 = guess - 1 + 2 := by ring
    rw [place]
    exact value_lt_of_not_reaches (by simpa using third)
  · exact value_lt_of_not_reaches (by simpa using second)
  · rw [sub_add_cancel]
    exact value_lt_of_not_reaches (by simpa using first)

/-- Zeros that are taken away change neither the number nor whether it is zero, and leave no more
digits. -/
theorem reduced_spec (fuel : Nat) (v : Decimal) :
    (v.reduced fuel).value = v.value ∧ (v.reduced fuel).digits ≤ v.digits := by
  -- Only the number with one zero less is taken to the next round.
  induction fuel generalizing v with
  | zero => exact ⟨rfl, le_rfl⟩
  | succ fuel ih =>
    rw [Decimal.reduced]
    split
    next zero =>
      simp only [Bool.and_eq_true, decide_eq_true_eq] at zero
      obtain ⟨same, fewer⟩ := ih ⟨v.digits / 10, v.exponent + 1⟩
      refine ⟨same.trans ?_, fewer.trans (Nat.div_le_self _ _)⟩
      have whole : ((v.digits / 10 : Nat) : Rat) * 10 = v.digits := by
        exact_mod_cast Nat.div_mul_cancel (Nat.dvd_of_mod_eq_zero zero.1)
      rw [Decimal.value, Decimal.value, zpow_add_one₀ (by norm_num), ← whole]
      ring
    next => exact ⟨rfl, le_rfl⟩

/-- A dyadic number is a finite double that is not zero. -/
structure Dyadic.Finite (d : Dyadic) : Prop where
  /-- It is not zero. -/
  some : d.mantissa ≠ 0
  /-- It has no more bits than a double. -/
  most : d.mantissa < 2 ^ 53
  /-- Its last place is one of a double. -/
  low : -1074 ≤ d.exponent
  /-- Its first bit is one of a double. -/
  high : d.exponent ≤ 971

/-- The number half of a last place above the largest double but one. -/
def edge : Rat := (2 ^ 54 - 3) * 2 ^ (970 : Int)

/-- A double other than the largest one is at most that large, half of its last place included. -/
theorem Dyadic.Finite.le_edge (finite : d.Finite) (other : ¬(d.mantissa = 2 ^ 53 - 1 ∧ d.exponent = 971)) :
    (d.mantissa + 1 / 2 : Rat) * 2 ^ d.exponent ≤ edge := by
  have most := finite.most
  have positive : (0 : Rat) < 2 ^ (970 : Int) := by positivity
  have double : (2 : Rat) ^ (971 : Int) = 2 ^ (970 : Int) * 2 := zpow_add_one₀ two_ne_zero 970
  rw [edge]
  -- Below the last exponent there is room for a whole mantissa; with it only the largest mantissa is
  -- too much.
  rcases (show d.exponent ≤ 970 ∨ d.exponent = 971 by have := finite.high; omega) with less | last
  · have place : (2 : Rat) ^ d.exponent ≤ 2 ^ (970 : Int) := zpow_le_zpow_right₀ one_le_two less
    have bits : (d.mantissa : Rat) ≤ 2 ^ 53 - 1 := by
      have whole : d.mantissa + 1 ≤ 2 ^ 53 := most
      have whole' : (d.mantissa : Rat) + 1 ≤ 2 ^ 53 := by exact_mod_cast whole
      linarith
    generalize (2 : Rat) ^ (970 : Int) = last at positive place
    calc (d.mantissa + 1 / 2 : Rat) * 2 ^ d.exponent
        ≤ (2 ^ 53 - 1 + 1 / 2) * last := by gcongr
      _ ≤ (2 ^ 54 - 3) * last := by
        gcongr
        norm_num
  · have bits : (d.mantissa : Rat) ≤ 2 ^ 53 - 2 := by
      have whole : d.mantissa + 2 ≤ 2 ^ 53 := by omega
      have whole' : (d.mantissa : Rat) + 2 ≤ 2 ^ 53 := by exact_mod_cast whole
      linarith
    rw [last, double]
    calc (d.mantissa + 1 / 2 : Rat) * (2 ^ (970 : Int) * 2)
        ≤ (2 ^ 53 - 2 + 1 / 2) * (2 ^ (970 : Int) * 2) := by gcongr
      _ = (2 ^ 54 - 3) * 2 ^ (970 : Int) := by ring

/-- The decimal that is found for a double has at most 17 digits, or is as large as a number of one
digit more. -/
theorem digits_le_of_onGrid (finite : d.Finite) {count : Nat} (few : count ≤ 16)
    (listed : d.onGrid (d.leading - count) = some found) : found.digits ≤ 10 ^ 17 := by
  obtain ⟨-, below, -⟩ := onGrid_eq_some listed
  have bits : d.mantissa.log2 ≤ 52 :=
    Nat.lt_succ_iff.mp ((Nat.log2_lt finite.some).mpr finite.most)
  -- One less than the decimal is at most the double, which is below the power behind its first digit.
  have low := finite.low
  have high := finite.high
  have less := below.trans_lt (value_lt_leading (by omega) (by omega))
  have split : (10 : Rat) ^ (d.leading + 1) = 10 ^ (count + 1) * 10 ^ (d.leading - count) := by
    rw [← zpow_natCast, ← zpow_add₀ (by norm_num)]
    congr 1
    push_cast
    ring
  rw [split] at less
  -- The scale of the grid is the same on both sides and is taken away.
  have digits : (found.digits : Rat) - 1 < 10 ^ (count + 1) :=
    lt_of_mul_lt_mul_right less (by positivity)
  have power : (10 : Rat) ^ (count + 1) ≤ 10 ^ 17 := pow_le_pow_right₀ (by norm_num) (by omega)
  have whole : (found.digits : Rat) < 10 ^ 17 + 1 := by linarith
  exact Nat.lt_succ_iff.mp (by exact_mod_cast whole)

/-- The decimal that a finite double is written as has at most 17 digits or is a power of ten, and is
far enough below the limit unless the double is the largest one. -/
theorem shortest_spec (finite : d.Finite) :
    d.shortest.digits ≤ 10 ^ 17 ∧ (d.shortest.value ≤ edge ∨
      d.mantissa = 2 ^ 53 - 1 ∧ d.exponent = 971) := by
  -- Without a decimal of up to 17 digits the mantissa itself would be written, which is small enough.
  have least : (2 : Rat) ^ 53 ≤ edge := by
    have place : (1 : Rat) ≤ 2 ^ (970 : Int) := one_le_zpow₀ one_le_two (by norm_num)
    rw [edge]
    generalize (2 : Rat) ^ (970 : Int) = last at place
    linarith
  unfold Dyadic.shortest
  dsimp only
  obtain ⟨same, fewer⟩ := reduced_spec 20
    (((List.range 17).findSome? fun (count : Nat) => d.onGrid (d.leading - (count : Int))).getD
      ⟨d.mantissa, 0⟩)
  rw [same]
  -- The decimal is the first one that is found on a grid, from the coarsest grid on.
  cases chosen : (List.range 17).findSome? fun (count : Nat) => d.onGrid (d.leading - (count : Int)) with
  | none =>
    rw [chosen, Option.getD_none] at fewer
    have most := finite.most
    refine ⟨fewer.trans (by dsimp only; omega), .inl (le_trans ?_ least)⟩
    rw [Option.getD_none, Decimal.value, zpow_zero, mul_one]
    exact_mod_cast most.le
  | some found =>
    rw [chosen, Option.getD_some] at fewer
    obtain ⟨count, inside, listed⟩ := List.exists_of_findSome?_eq_some chosen
    have few : count ≤ 16 := Nat.lt_succ_iff.mp (List.mem_range.mp inside)
    refine ⟨fewer.trans (digits_le_of_onGrid finite few listed), ?_⟩
    rw [Option.getD_some]
    by_cases largest : d.mantissa = 2 ^ 53 - 1 ∧ d.exponent = 971
    · exact .inr largest
    · exact .inl ((onGrid_eq_some listed).2.2.trans (finite.le_edge largest))

/-- The bits of a double without its sign are those of a finite one. -/
theorem finite_ofBits {bits : UInt64} (some : bits ≠ 0)
    (exponent : bits.toNat / 2 ^ 52 % 2 ^ 11 ≠ 2047) (unsigned : bits.toNat < 2 ^ 63) :
    (Dyadic.ofBits bits).Finite := by
  have nonzero : bits.toNat ≠ 0 := fun zero => some (UInt64.toNat_inj.mp zero)
  have wide : capacity 52 = 2 ^ 52 := rfl
  have narrow : capacity 11 = 2 ^ 11 := rfl
  unfold Dyadic.ofBits
  rw [wide, narrow]
  dsimp only
  -- Without an exponent the number is subnormal, and otherwise it has a leading bit of its own.
  split
  · constructor <;> dsimp only <;> omega
  · constructor <;> dsimp only <;> omega

/-- Only a double with no more than its first bit is nearer to the next smaller one. -/
theorem narrow_ofBits {bits : UInt64} (more : (Dyadic.ofBits bits).mantissa ≠ 2 ^ 52) :
    (Dyadic.ofBits bits).narrow = false := by
  have wide : capacity 52 = 2 ^ 52 := rfl
  unfold Dyadic.ofBits at more ⊢
  rw [wide] at more ⊢
  dsimp only at more ⊢
  split at more
  next zero => rw [if_pos zero]
  next some =>
    rw [if_neg some]
    simp only [Bool.and_eq_false_iff, decide_eq_false_iff_not]
    left
    dsimp only at more
    omega

/-- The exponent of a finite double is not the one of what is no number. -/
theorem exponent_ne_of_isFinite {x : Float} (finite : x.isFinite = true) :
    x.toBits.toNat / 2 ^ 52 % 2 ^ 11 ≠ 2047 := by
  intro code
  have own : @UnpackedFloat.unpackExponent Format.binary64 x.toBits.toBitVec = -1#11 := by
    apply BitVec.eq_of_toNat_eq
    rw [UnpackedFloat.unpackExponent, BitVec.toNat_cast, BitVec.extractLsb_toNat,
      Nat.shiftRight_eq_div_pow]
    exact code
  -- What has this exponent is infinite or no number.
  change (UnpackedFloat.unpack Format.binary64 x.toBits.toBitVec).isFinite = true at finite
  unfold UnpackedFloat.unpack at finite
  dsimp only at finite
  rw [if_pos own] at finite
  split at finite <;> cases finite

/-- A decimal has at most 17 digits or is a power of ten, and it is far enough below the limit unless
it is the one of the largest double. -/
structure Decimal.Bounded (v : Decimal) : Prop where
  /-- The digits are few. -/
  digits : v.digits ≤ 10 ^ 17
  /-- The number is not large. -/
  near : v.value ≤ edge ∨ v = ⟨17976931348623157, 292⟩

/-- The magnitude of a finite double is written as such a decimal. -/
theorem bounded_shortest {x : Float} (finite : x.isFinite = true) : (shortest x).Bounded := by
  unfold shortest
  dsimp only
  -- The sign is masked out, so the bits are those of the magnitude.
  have unsigned : (x.toBits &&& 0x7FFFFFFFFFFFFFFF).toNat = x.toBits.toNat % 2 ^ 63 := by
    rw [UInt64.toNat_and]
    exact Nat.and_two_pow_sub_one_eq_mod _ 63
  split
  next =>
    refine ⟨Nat.zero_le _, .inl ?_⟩
    rw [edge, Decimal.value]
    simp only [Nat.cast_zero, zero_mul]
    positivity
  next some =>
    have exponent := exponent_ne_of_isFinite finite
    generalize x.toBits &&& 0x7FFFFFFFFFFFFFFF = bits at some unsigned ⊢
    -- The only number above the edge is the largest double, and its decimal is known.
    obtain ⟨digits, near | ⟨full, last⟩⟩ := shortest_spec
      (finite_ofBits some (by rw [unsigned]; omega) (by omega))
    · exact ⟨digits, .inl near⟩
    · refine ⟨digits, .inr ?_⟩
      have largest : Dyadic.ofBits bits = ⟨2 ^ 53 - 1, 971, false⟩ := by
        have narrow := @narrow_ofBits bits (by omega)
        generalize Dyadic.ofBits bits = d at full last narrow ⊢
        obtain ⟨mantissa, exponent, narrow⟩ := d
        simp_all
      rw [largest]
      decide +kernel

end DialectBench.Number
