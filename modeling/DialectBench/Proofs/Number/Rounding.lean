import Mathlib.Algebra.Order.Field.Power
import Mathlib.Tactic.Linarith
import Mathlib.Tactic.Positivity
import Mathlib.Tactic.Ring

/-! How doubles are rounded: by at most half of the last place, and to infinity only from a limit on. -/

namespace DialectBench.Number

open Float.Model UnpackedFloat

variable {m k : Nat} {e : Int} {x y : Float}

/-! Bits that are shifted out. -/

theorem mantissa_shiftRight (extended : ExtendedMantissa) (k : Nat) :
    (extended >>> k).mantissa = extended.mantissa / 2 ^ k := by
  induction k with
  | zero => simp [HShiftRight.hShiftRight, Nat.repeat]
  | succ k ih =>
    change (extended >>> k).mantissa / 2 = _
    rw [ih, Nat.div_div_eq_div_mul, Nat.pow_succ]

/-- The bit that was shifted out last decides whether a mantissa is rounded up. -/
theorem roundedMantissa_le (extended : ExtendedMantissa) :
    extended.mantissa ≤ extended.roundedMantissa ∧
      extended.roundedMantissa ≤ extended.mantissa + extended.roundBit.toNat := by
  obtain ⟨mantissa, round, sticky⟩ := extended
  cases round <;> cases sticky <;>
    simp [ExtendedMantissa.roundedMantissa, ExtendedMantissa.accuracy, Accuracy.roundToNearestEven]
  omega

/-- A mantissa is rounded by at most half of its last place. -/
theorem two_mul_roundedMantissa_le (m k : Nat) :
    2 * ((ExtendedMantissa.ofMantissaAndAccuracy m .exact) >>> k).roundedMantissa * 2 ^ k ≤
      2 * m + 2 ^ k := by
  -- Without a bit that is cut off the mantissa stays as it is.
  cases k with
  | zero =>
    show 2 * m * 1 ≤ _
    omega
  | succ k =>
    have above := (roundedMantissa_le
      ((ExtendedMantissa.ofMantissaAndAccuracy m .exact) >>> (k + 1))).2
    have mantissa := mantissa_shiftRight (ExtendedMantissa.ofMantissaAndAccuracy m .exact)
    have bit : ((ExtendedMantissa.ofMantissaAndAccuracy m .exact) >>> (k + 1)).roundBit.toNat =
        m / 2 ^ k % 2 := by
      change ((((ExtendedMantissa.ofMantissaAndAccuracy m .exact) >>> k).mantissa % 2 != 0).toNat) = _
      rw [mantissa]
      change (m / 2 ^ k % 2 != 0).toNat = _
      rcases Nat.mod_two_eq_zero_or_one (m / 2 ^ k) with even | odd
      · simp [even]
      · simp [odd]
    rw [mantissa, bit] at above
    change _ ≤ m / 2 ^ (k + 1) + _ at above
    -- The quotient and the bit behind it are at most what is divided.
    have halves : 2 * (m / 2 ^ (k + 1)) + m / 2 ^ k % 2 = m / 2 ^ k := by
      rw [Nat.pow_succ, ← Nat.div_div_eq_div_mul]
      omega
    have whole : m / 2 ^ k * 2 ^ k ≤ m := Nat.div_mul_le_self m (2 ^ k)
    rw [← halves] at whole
    generalize ((ExtendedMantissa.ofMantissaAndAccuracy m .exact) >>> (k + 1)).roundedMantissa =
      rounded at above ⊢
    calc 2 * rounded * 2 ^ (k + 1)
        ≤ 2 * (m / 2 ^ (k + 1) + m / 2 ^ k % 2) * 2 ^ (k + 1) := by gcongr
      _ = 2 * ((2 * (m / 2 ^ (k + 1)) + m / 2 ^ k % 2) * 2 ^ k) + m / 2 ^ k % 2 * 2 ^ (k + 1) := by
        ring
      _ ≤ 2 * m + 1 * 2 ^ (k + 1) := by
        have bit : m / 2 ^ k % 2 ≤ 1 := by omega
        gcongr
      _ = 2 * m + 2 ^ (k + 1) := by rw [Nat.one_mul]

/-! Doubles with all their bits. -/

/-- The exponent that a mantissa gets when it is cut to the bits of a double. -/
theorem targetExponent_eq (wide : 52 ≤ m.log2) (low : -1074 ≤ e + (m.log2 - 52 : Nat)) :
    Format.binary64.targetExponent (totalExponent m e) = e + (m.log2 - 52 : Nat) := by
  change max ((m.log2 : Int) + 1 + e - (53 : Nat)) (-1074) = _
  omega

/-- A mantissa that is cut to the bits of a double. -/
theorem shiftToTargetExponent_eq (wide : 52 ≤ m.log2) (low : -1074 ≤ e + (m.log2 - 52 : Nat)) :
    shiftToTargetExponent Format.binary64 m e .exact =
      ((ExtendedMantissa.ofMantissaAndAccuracy m .exact) >>> (m.log2 - 52),
        e + (m.log2 - 52 : Nat)) := by
  unfold shiftToTargetExponent shiftToExponent
  rw [targetExponent_eq wide low]
  have amount : (e + (m.log2 - 52 : Nat) - e).toNat = m.log2 - 52 := by omega
  simp only [amount]

/-- How a number is rounded that is large enough for all bits of a double: to a whole number of last
places, and with one bit less where that has one bit too many. -/
structure Rounding (m : Nat) (e : Int) (rounded mantissa : Nat) (exponent : Int) : Prop where
  /-- The number has all bits of a double. -/
  wide : 52 ≤ m.log2
  /-- Rounding adds at most one bit. -/
  bound : rounded ≤ 2 ^ 53
  /-- A whole number of last places stays. -/
  below : m / 2 ^ (m.log2 - 52) ≤ rounded
  /-- Rounding adds at most half of the last place. -/
  near : 2 * rounded * 2 ^ (m.log2 - 52) ≤ 2 * m + 2 ^ (m.log2 - 52)
  /-- The first bit is there. -/
  least : 2 ^ 52 ≤ mantissa
  /-- There is no bit before it. -/
  most : mantissa < 2 ^ 53
  /-- One bit too many is taken away. -/
  carried : rounded = mantissa ∧ exponent = e + (m.log2 - 52 : Nat) ∨
    rounded = 2 ^ 53 ∧ mantissa = 2 ^ 52 ∧ exponent = e + (m.log2 - 52 : Nat) + 1

/-- A number that is large enough for all bits of a double is rounded to these. -/
theorem roundWithAccuracy_eq (sign : Sign) (wide : 52 ≤ m.log2)
    (low : -1074 ≤ e + (m.log2 - 52 : Nat)) :
    ∃ rounded mantissa exponent, ∃ pos : 0 < mantissa, Rounding m e rounded mantissa exponent ∧
      roundWithAccuracy Format.binary64 sign m e .exact = .finite sign mantissa exponent pos := by
  have some : m ≠ 0 := by
    rintro rfl
    simp at wide
  have near := two_mul_roundedMantissa_le m (m.log2 - 52)
  obtain ⟨above, below⟩ := roundedMantissa_le
    ((ExtendedMantissa.ofMantissaAndAccuracy m .exact) >>> (m.log2 - 52))
  rw [mantissa_shiftRight] at above below
  change m / 2 ^ (m.log2 - 52) ≤ _ at above
  change _ ≤ m / 2 ^ (m.log2 - 52) + _ at below
  -- What is left of the number has all bits of a double, and rounding adds at most one bit.
  have least : 2 ^ 52 ≤ m / 2 ^ (m.log2 - 52) := by
    rw [Nat.le_div_iff_mul_le (by positivity), ← Nat.pow_add, Nat.add_sub_cancel' wide]
    exact Nat.log2_self_le some
  have most : m / 2 ^ (m.log2 - 52) < 2 ^ 53 := by
    rw [Nat.div_lt_iff_lt_mul (by positivity), ← Nat.pow_add]
    refine lt_of_lt_of_eq Nat.lt_log2_self (congrArg (2 ^ ·) ?_)
    omega
  have bit := Bool.toNat_le
    ((ExtendedMantissa.ofMantissaAndAccuracy m .exact) >>> (m.log2 - 52)).roundBit
  have round : roundWithAccuracy Format.binary64 sign m e .exact =
      let second := shiftToTargetExponent Format.binary64
        ((ExtendedMantissa.ofMantissaAndAccuracy m .exact) >>> (m.log2 - 52)).roundedMantissa
        (e + (m.log2 - 52 : Nat)) .exact
      if h : second.1.mantissa = 0 then .zero sign
      else .finite sign second.1.mantissa second.2 (Nat.pos_of_ne_zero h) := by
    unfold roundWithAccuracy
    rw [shiftToTargetExponent_eq wide low]
  generalize ((ExtendedMantissa.ofMantissaAndAccuracy m .exact) >>> (m.log2 - 52)).roundedMantissa =
    rounded at near above below round
  -- The rounded mantissa fits, or it is the next power of two and one place is carried.
  rcases Nat.lt_or_ge rounded (2 ^ 53) with fits | full
  · have log : rounded.log2 = 52 := (Nat.log2_eq_iff (by omega)).mpr ⟨by omega, by omega⟩
    have again := shiftToTargetExponent_eq (m := rounded) (e := e + (m.log2 - 52 : Nat)) log.ge
      (by omega)
    rw [again, log] at round
    refine ⟨rounded, rounded, _, by omega,
      ⟨wide, by omega, above, near, by omega, fits, .inl ⟨rfl, rfl⟩⟩, round.trans ?_⟩
    have same : ((ExtendedMantissa.ofMantissaAndAccuracy rounded .exact) >>>
        (52 - 52)).mantissa = rounded := rfl
    dsimp only
    rw [dif_neg (by rw [same]; omega)]
    congr 1
    omega
  · obtain rfl : rounded = 2 ^ 53 := by omega
    have log : (2 ^ 53 : Nat).log2 = 53 := Nat.log2_two_pow
    have again := shiftToTargetExponent_eq (m := 2 ^ 53) (e := e + (m.log2 - 52 : Nat))
      (by omega) (by omega)
    rw [again, log] at round
    exact ⟨2 ^ 53, 2 ^ 52, _, by omega,
      ⟨wide, by omega, above, near, by omega, by omega, .inr ⟨rfl, rfl, rfl⟩⟩, round⟩

/-- A finite number is decided by its sign, its mantissa and its exponent. -/
theorem finite_congr {n : Nat} {f : Int} {sign : Sign} {pos : 0 < m} {more : 0 < n}
    (mantissa : m = n) (exponent : e = f) :
    UnpackedFloat.finite sign m e pos = .finite sign n f more := by
  subst mantissa exponent
  rfl

/-- A double with all its bits is packed and unpacked without loss, but for its sign. -/
theorem unpack_pack (sign : Sign) (pos : 0 < m) (least : 2 ^ 52 ≤ m) (most : m < 2 ^ 53)
    (low : -1074 ≤ e) (high : e ≤ 971) :
    ∃ other, (Float.Model.pack (.finite sign m e pos)).unpack = .finite other m e pos := by
  have log : m.log2 + 1 = Format.binary64.mantissaBits := by
    rw [(Nat.log2_eq_iff (by omega)).mpr ⟨least, most⟩]
    rfl
  have bias : (Format.binary64.exponentBias : Int) + (52 : Nat) = 1075 := by
    simp [Format.exponentBias]
  -- The exponent is stored with its bias, as a number that is neither of the two special codes.
  obtain ⟨biased, exponent⟩ : ∃ biased : Nat, (biased : Int) = e + 1075 :=
    ⟨(e + 1075).toNat, Int.toNat_of_nonneg (by omega)⟩
  have packed : UnpackedFloat.pack Format.binary64 (.finite sign m e pos) =
      packComponents Format.binary64 sign (BitVec.ofNat 11 biased) (BitVec.ofNat 52 m) := by
    have own : (e + Format.binary64.exponentBias + (52 : Nat)).toNat = biased := by omega
    unfold UnpackedFloat.pack
    simp only [log, if_true, own]
    rw [if_neg (by norm_num; omega)]
  have code : (BitVec.ofNat 11 biased).toNat = biased := Nat.mod_eq_of_lt (by norm_num; omega)
  have finite : BitVec.ofNat 11 biased ≠ -1#11 := fun same => by
    have value := congrArg BitVec.toNat same
    rw [code] at value
    norm_num at value
    omega
  have normal : BitVec.ofNat 11 biased ≠ 0#11 := fun same => by
    have value := congrArg BitVec.toNat same
    rw [code] at value
    norm_num at value
    omega
  refine ⟨Sign.ofBitVec (unpackSign (packComponents Format.binary64 sign (BitVec.ofNat 11 biased)
    (BitVec.ofNat 52 m))), ?_⟩
  change UnpackedFloat.unpack Format.binary64 (UnpackedFloat.pack Format.binary64 _) = _
  rw [packed]
  unfold UnpackedFloat.unpack
  dsimp only
  rw [if_neg (by rwa [unpackExponent_packComponents]),
    if_neg (by rwa [unpackExponent_packComponents])]
  -- The leading bit is not stored, and it is put back in front of the others.
  have mantissa : (1#1 ++ BitVec.ofNat 52 m).toNat = m := by
    have own : (BitVec.ofNat 52 m).toNat = m % 2 ^ 52 := BitVec.toNat_ofNat _ _
    rw [BitVec.toNat_append, ← Nat.shiftLeft_add_eq_or_of_lt (BitVec.isLt _), own, Nat.shiftLeft_eq]
    norm_num
    omega
  refine finite_congr (by rw [unpackMantissa_packComponents, mantissa]) ?_
  rw [unpackExponent_packComponents, code]
  omega

/-- The least number that is rounded to infinity: it lies half of the last place above the largest
double. -/
def limit : Rat := (2 ^ 54 - 1) * 2 ^ (970 : Int)

namespace Rounding

variable {rounded mantissa : Nat} {exponent : Int}

/-- The rounded number is a whole number of last places. -/
theorem value (rounding : Rounding m e rounded mantissa exponent) :
    (mantissa : Rat) * 2 ^ exponent = rounded * 2 ^ (e + (m.log2 - 52 : Nat)) := by
  rcases rounding.carried with ⟨rfl, rfl⟩ | ⟨rfl, rfl, rfl⟩
  · rfl
  · rw [zpow_add₀ two_ne_zero _ 1]
    push_cast
    ring

/-- A number below the limit is rounded to a double. -/
theorem exponent_le (rounding : Rounding m e rounded mantissa exponent)
    (small : (m : Rat) * 2 ^ e < limit) : exponent ≤ 971 := by
  by_contra large
  refine absurd small (not_lt.mpr ?_)
  have split : (2 : Rat) ^ (e + (m.log2 - 52 : Nat)) = 2 ^ e * 2 ^ (m.log2 - 52) := by
    rw [zpow_add₀ two_ne_zero, zpow_natCast]
  have last : (0 : Rat) < 2 ^ e := by positivity
  have positive : (0 : Rat) < 2 ^ (970 : Int) := by positivity
  rcases rounding.carried with ⟨-, rfl⟩ | ⟨full, -, rfl⟩
  · -- The first bit of the number alone is worth more than the largest double.
    have first : 2 ^ 52 * 2 ^ (m.log2 - 52) ≤ m := by
      rw [← Nat.pow_add, Nat.add_sub_cancel' rounding.wide]
      exact Nat.log2_self_le (by rintro rfl; simpa using rounding.wide)
    have above : (2 : Rat) ^ (970 : Int) * 2 ^ 2 ≤ 2 ^ (e + (m.log2 - 52 : Nat)) :=
      (zpow_add₀ two_ne_zero 970 2).symm.trans_le (zpow_le_zpow_right₀ one_le_two (by omega))
    rw [limit]
    generalize (2 : Rat) ^ (970 : Int) = place at *
    calc (2 ^ 54 - 1) * place ≤ 2 ^ 52 * (place * 2 ^ 2) := by linarith
      _ ≤ 2 ^ 52 * 2 ^ (e + (m.log2 - 52 : Nat)) := by gcongr
      _ = ((2 ^ 52 * 2 ^ (m.log2 - 52) : Nat) : Rat) * 2 ^ e := by
        rw [split]
        push_cast
        ring
      _ ≤ m * 2 ^ e := by gcongr
  · -- A number that is rounded up to one bit more is less than half of the last place below that.
    have near : (2 * 2 ^ 53 * 2 ^ (m.log2 - 52) : Rat) ≤ 2 * m + 2 ^ (m.log2 - 52) := by
      exact_mod_cast full ▸ rounding.near
    have above : (2 : Rat) ^ (970 : Int) * 2 ≤ 2 ^ (e + (m.log2 - 52 : Nat)) :=
      (zpow_add_one₀ two_ne_zero 970).symm.trans_le
        (zpow_le_zpow_right₀ one_le_two (by omega))
    rw [limit]
    generalize (2 : Rat) ^ (970 : Int) = place at *
    calc (2 ^ 54 - 1) * place = (2 ^ 53 - 1 / 2) * (place * 2) := by ring
      _ ≤ (2 ^ 53 - 1 / 2) * 2 ^ (e + (m.log2 - 52 : Nat)) := by gcongr
      _ = ((2 ^ 53 - 1 / 2) * 2 ^ (m.log2 - 52)) * 2 ^ e := by
        rw [split]
        ring
      _ ≤ m * 2 ^ e := by
        gcongr
        linarith

end Rounding

/-- A double is the product of a number with all bits of a double and a power of two. -/
structure Reads (x : Float) (m : Nat) (e : Int) : Prop where
  /-- It has these parts. -/
  unpacked : ∃ sign pos, x.toModel.unpack = .finite sign m e pos
  /-- The first bit is there. -/
  least : 2 ^ 52 ≤ m
  /-- There is no bit before it. -/
  most : m < 2 ^ 53

/-- A double with such parts is not infinite. -/
theorem Reads.isInf_eq (reads : Reads x m e) : x.isInf = false := by
  obtain ⟨sign, pos, unpacked⟩ := reads.unpacked
  rw [Float.isInf, Float.Model.isInf, unpacked]
  rfl

/-- A rounded number below infinity is packed into a double. -/
theorem Rounding.reads {rounded mantissa : Nat} {exponent : Int} {sign : Sign} {pos : 0 < mantissa}
    (rounding : Rounding m e rounded mantissa exponent) (low : -1074 ≤ exponent)
    (high : exponent ≤ 971) :
    Reads (.ofModel (.pack (.finite sign mantissa exponent pos))) mantissa exponent := by
  obtain ⟨other, unpacked⟩ := unpack_pack sign pos rounding.least rounding.most low high
  exact ⟨⟨other, pos, unpacked⟩, rounding.least, rounding.most⟩

/-- The product of two finite numbers is that of their parts, rounded. -/
theorem mul_finite {n : Nat} {f : Int} (sign other : Sign) (pos : 0 < m) (more : 0 < n) :
    UnpackedFloat.mul Format.binary64 (.finite sign m e pos) (.finite other n f more) =
      roundWithAccuracy Format.binary64 (sign * other) (m * n) (e + f) .exact :=
  rfl

/-- The product of two doubles is rounded. -/
theorem Reads.mul {n : Nat} {f : Int} (first : Reads x m e) (second : Reads y n f)
    (low : -1074 ≤ e + f) :
    ∃ rounded mantissa exponent, Rounding (m * n) (e + f) rounded mantissa exponent ∧
      (exponent ≤ 971 → Reads (x * y) mantissa exponent) := by
  obtain ⟨sign, pos, unpacked⟩ := first.unpacked
  obtain ⟨other, pos', unpacked'⟩ := second.unpacked
  have least : 2 ^ 52 * 2 ^ 52 ≤ m * n := Nat.mul_le_mul first.least second.least
  -- The product has all the bits of a double at least, so it is only rounded and never filled up.
  have wide : 104 ≤ (m * n).log2 := (Nat.le_log2 (by omega)).mpr least
  obtain ⟨rounded, mantissa, exponent, positive, rounding, round⟩ :=
    roundWithAccuracy_eq (sign * other) (m := m * n) (e := e + f) (by omega) (by omega)
  refine ⟨rounded, mantissa, exponent, rounding, fun high => ?_⟩
  have product : x * y = .ofModel (.pack (.finite (sign * other) mantissa exponent positive)) := by
    change Float.ofModel (.pack (UnpackedFloat.mul _ x.toModel.unpack y.toModel.unpack)) = _
    rw [unpacked, unpacked', mul_finite, round]
  rw [product]
  refine rounding.reads ?_ high
  rcases rounding.carried with ⟨-, same⟩ | ⟨-, -, same⟩ <;> omega

/-- A product below the limit is not infinite. -/
theorem Reads.isInf_mul {n : Nat} {f : Int} (first : Reads x m e) (second : Reads y n f)
    (low : -1074 ≤ e + f) (small : (m : Rat) * 2 ^ e * (n * 2 ^ f) < limit) :
    (x * y).isInf = false := by
  obtain ⟨rounded, mantissa, exponent, rounding, reads⟩ := first.mul second low
  refine (reads (rounding.exponent_le ?_)).isInf_eq
  rw [zpow_add₀ two_ne_zero]
  push_cast
  linarith

/-! Whole numbers. -/

/-- One as it is written by its bits. -/
theorem reads_one : Reads (Float.ofBits 0x3FF0000000000000) (2 ^ 52) (-52) where
  unpacked := ⟨.positive, by decide, rfl⟩
  least := le_rfl
  most := by decide

/-- What is rounded without a bit too many in front and behind stays. -/
theorem Rounding.exact {rounded mantissa : Nat} {exponent : Int}
    (rounding : Rounding (m * 2 ^ k) e rounded mantissa exponent) (shift : (m * 2 ^ k).log2 = 52 + k)
    (small : m < 2 ^ 53) : rounded = m ∧ mantissa = m ∧ exponent = e + k := by
  have cut : (m * 2 ^ k).log2 - 52 = k := by omega
  have below := rounding.below
  have near := rounding.near
  have carried := rounding.carried
  rw [cut] at below near carried
  rw [Nat.mul_div_cancel _ (by positivity)] at below
  -- Nothing is rounded up, since nothing but zeros is cut off.
  have above : rounded ≤ m := by
    by_contra more
    have up : (2 * m + 2) * 2 ^ k ≤ 2 * rounded * 2 ^ k := Nat.mul_le_mul_right _ (by omega)
    have place : 0 < 2 ^ k := by positivity
    nlinarith
  omega

/-- One as a factor changes nothing. -/
theorem Reads.mul_one (reads : Reads x m e) (low : -1000 ≤ e) (high : e ≤ 971) :
    Reads (x * Float.ofBits 0x3FF0000000000000) m e := by
  obtain ⟨rounded, mantissa, exponent, rounding, product⟩ := reads.mul reads_one (by omega)
  have least := reads.least
  have most := reads.most
  have log : (m * 2 ^ 52).log2 = 52 + 52 :=
    (Nat.log2_eq_iff (by omega)).mpr ⟨by omega, by omega⟩
  obtain ⟨-, rfl, rfl⟩ := rounding.exact log most
  have same : e + -52 + (52 : Nat) = e := by omega
  rw [same] at product
  exact product high

/-- The first bit of a number that is multiplied by a power of two comes as much before. -/
theorem log2_mul_two_pow (some : m ≠ 0) (k : Nat) : (m * 2 ^ k).log2 = m.log2 + k := by
  rw [Nat.log2_eq_iff (by positivity)]
  have least := Nat.log2_self_le some
  have most := Nat.lt_log2_self (n := m)
  constructor
  · rw [Nat.pow_add]
    exact Nat.mul_le_mul_right _ least
  · rw [Nat.add_right_comm, Nat.pow_add]
    exact Nat.mul_lt_mul_of_pos_right most (by positivity)

/-- A number of at most 53 bits is a double. -/
theorem reads_toFloat (some : m ≠ 0) (small : m < 2 ^ 53) :
    Reads m.toUInt64.toFloat (m * 2 ^ (52 - m.log2)) (-(52 - m.log2 : Nat)) := by
  have bits : m.log2 ≤ 52 := Nat.lt_succ_iff.mp ((Nat.log2_lt some).mpr small)
  have word : m.toUInt64.toNat = m := UInt64.toNat_ofNat_of_lt' (by
    show m < 2 ^ 64
    omega)
  have log : (m * 2 ^ (52 - m.log2)).log2 = 52 := by
    rw [log2_mul_two_pow some]
    omega
  -- With zeros behind it the number has exactly 53 bits, and rounding leaves it alone.
  obtain ⟨rounded, mantissa, exponent, pos, rounding, round⟩ := roundWithAccuracy_eq .positive
    (m := m * 2 ^ (52 - m.log2)) (e := -(52 - m.log2 : Nat)) log.ge (by omega)
  have bound : m * 2 ^ (52 - m.log2) < 2 ^ 53 := by
    have above := Nat.lt_log2_self (n := m * 2 ^ (52 - m.log2))
    rwa [log] at above
  obtain ⟨-, same, exponent_eq⟩ := Rounding.exact (k := 0)
    (by simpa using rounding) (by simpa using log) bound
  -- The conversion normalizes the number, which comes to the same shift.
  have converted : m.toUInt64.toFloat = .ofModel (.pack (.finite .positive mantissa exponent pos)) := by
    change Float.ofModel (.pack (UnpackedFloat.normalize _ (m.toUInt64.toNat : Int) 0 _)) = _
    rw [word, UnpackedFloat.normalize]
    have positive : compare (m : Int) 0 = .gt := by
      rw [Int.compare_eq_gt]
      omega
    rw [positive]
    dsimp only
    have target : Format.binary64.targetExponent (totalExponent m 0) = -(52 - m.log2 : Nat) := by
      change max ((m.log2 : Int) + 1 + 0 - (53 : Nat)) (-1074) = _
      omega
    have lowered : decreaseExponent m 0 (-(52 - m.log2 : Nat)) =
        (m * 2 ^ (52 - m.log2), -((52 - m.log2 : Nat) : Int)) := by
      rw [decreaseExponent, Int.zero_sub, Int.neg_neg, Int.toNat_natCast, Nat.shiftLeft_eq,
        Int.zero_sub]
    rw [Int.toNat_natCast, UnpackedFloat.round, target, lowered]
    exact congrArg (Float.ofModel ∘ .pack) round
  have reads : Reads m.toUInt64.toFloat mantissa exponent :=
    converted ▸ rounding.reads (by omega) (by omega)
  rw [Int.natCast_zero, Int.add_zero] at exponent_eq
  exact exponent_eq ▸ same ▸ reads

/-- A whole number as a double: it is rounded to a whole number of last places, if it has more than
53 bits. -/
theorem reads_ofNat (some : m ≠ 0) (small : m < 2 ^ 57) :
    ∃ mantissa exponent, ∃ rounded k : Nat, Reads (Float.ofNat m) mantissa exponent ∧
      -52 ≤ exponent ∧ (mantissa : Rat) * 2 ^ exponent = rounded * 2 ^ k ∧
      2 * rounded * 2 ^ k ≤ 2 * m + 2 ^ k ∧ (k = 0 ∨ 2 ^ (52 + k) ≤ m) ∧ k < 5 := by
  -- A number of up to 53 bits is converted as it is, and a longer one is scaled first.
  rcases Nat.lt_or_ge m (2 ^ 53) with fits | long
  · have bits : m.log2 ≤ 52 := Nat.lt_succ_iff.mp ((Nat.log2_lt some).mpr fits)
    have whole : Float.ofNat m = m.toUInt64.toFloat * Float.ofBits 0x3FF0000000000000 := by
      change Float.ofScientific m false 0 = _
      unfold Float.ofScientific
      rw [dif_pos ⟨fits, by decide⟩]
      rfl
    refine ⟨_, _, m, 0, whole ▸ (reads_toFloat some fits).mul_one (by omega) (by omega), by omega,
      ?_, by omega, .inl rfl, by omega⟩
    rw [zpow_neg, zpow_natCast]
    push_cast
    simp
  · -- The number is multiplied by a power of two before it is rounded, so its last places are not lost.
    have log : (m * 2 ^ 53 * 1).log2 = m.log2 + 53 := by
      rw [Nat.mul_one, log2_mul_two_pow some]
    have bits : 53 ≤ m.log2 := (Nat.le_log2 some).mpr long
    have most : m.log2 < 57 := (Nat.log2_lt some).mpr small
    obtain ⟨rounded, mantissa, exponent, pos, rounding, round⟩ := roundWithAccuracy_eq
      (.positive * .positive) (m := m * 2 ^ 53 * 1) (e := -53 + 0) (by omega) (by omega)
    -- Both factors are positive, and the second of them is one.
    have whole : Float.ofNat m =
        .ofModel (.pack (.finite (.positive * .positive) mantissa exponent pos)) := by
      change Float.ofScientific m false 0 = _
      unfold Float.ofScientific
      rw [dif_neg (by omega)]
      refine congrArg (Float.ofModel ∘ .pack) ?_
      have scaled : UnpackedFloat.ofScientific Format.binary64 m 0 =
          UnpackedFloat.mul Format.binary64
            (.finite .positive (m <<< 53) (-53) (by simpa [Nat.pos_iff_ne_zero] using some))
            (.finite .positive 1 0 Nat.one_pos) := by
        unfold UnpackedFloat.ofScientific
        rw [dif_neg some, if_neg (by decide), if_neg (by norm_num), if_pos (by decide)]
        rfl
      refine scaled.trans ?_
      rw [mul_finite, Nat.shiftLeft_eq]
      exact round
    have cut : (m * 2 ^ 53 * 1).log2 - 52 = 53 + (m.log2 - 52) := by omega
    have near := rounding.near
    have carried := rounding.carried
    have value := rounding.value
    rw [cut] at near carried value
    have low : -1074 ≤ exponent ∧ exponent ≤ 971 ∧ -52 ≤ exponent := by omega
    refine ⟨mantissa, exponent, rounded, m.log2 - 52, whole ▸ rounding.reads low.1 low.2.1,
      low.2.2, ?_, ?_, .inr ?_, by omega⟩
    -- The scale is taken back by the exponent that the number began with.
    · rw [value, ← zpow_natCast]
      congr 2
      omega
    · rw [Nat.pow_add] at near
      refine Nat.le_of_mul_le_mul_left ?_ (show 0 < 2 ^ 53 by decide)
      calc 2 ^ 53 * (2 * rounded * 2 ^ (m.log2 - 52))
          = 2 * rounded * (2 ^ 53 * 2 ^ (m.log2 - 52)) := by ring
        _ ≤ 2 * (m * 2 ^ 53 * 1) + 2 ^ 53 * 2 ^ (m.log2 - 52) := near
        _ = 2 ^ 53 * (2 * m + 2 ^ (m.log2 - 52)) := by ring
    · rw [Nat.add_sub_cancel' (by omega)]
      exact Nat.log2_self_le some

end DialectBench.Number
