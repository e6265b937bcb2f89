import DialectBench.Proofs.Json.Reading
import DialectBench.Proofs.Number.Product
import DialectBench.Suite.Totals

/-! Finite times that are written are read back as doubles. -/

namespace DialectBench

namespace JsonValue

variable {ds whole part power : List Char}

/-! How a numeral is taken apart. -/

/-- Digits do not make a number smaller that they are appended to. -/
theorem le_ofDigitChars (ds : List Char) (start : Nat) : start ≤ Nat.ofDigitChars 10 ds start := by
  induction ds generalizing start with
  | nil => exact le_rfl
  | cons d ds ih =>
    rw [Nat.ofDigitChars_cons]
    exact le_trans (by omega) (ih _)

/-- All digits are taken up if the number fits into 64 bits. -/
theorem significand_eq {start : Nat} (fits : Nat.ofDigitChars 10 ds start < Number.wordSize) :
    significand start ds = (Nat.ofDigitChars 10 ds start, 0) := by
  induction ds generalizing start with
  | nil => rfl
  | cons d ds ih =>
    rw [Nat.ofDigitChars_cons, Nat.mul_comm] at fits ⊢
    change _ < _ at fits
    change (if start * 10 + (d.toNat - '0'.toNat) < Number.wordSize then _ else _) = _
    rw [if_pos ((le_ofDigitChars ds _).trans_lt fits)]
    exact ih fits

/-- Some digits end where something else begins. -/
theorem spanDigits_append {rest : List Char} (digits : ∀ d ∈ ds, d.isDigit = true)
    (behind : ∀ c tail, rest = c :: tail → c.isDigit = false) :
    Number.spanDigits (ds ++ rest) = (ds, rest) := by
  have stop : rest.takeWhile Char.isDigit = [] ∧ rest.dropWhile Char.isDigit = rest := by
    cases rest with
    | nil => exact ⟨rfl, rfl⟩
    | cons c tail => simp [behind c tail rfl]
  rw [Number.spanDigits, List.takeWhile_append_of_pos digits, List.dropWhile_append_of_pos digits,
    stop.1, stop.2, List.append_nil]

/-- The digits behind a point, if there is one, and the rest. -/
def spanFraction (input : List Char) : List Char × List Char :=
  match input with
  | '.' :: rest => Number.spanDigits rest
  | _ => ([], input)

/-- The digits behind a point end where something else begins. -/
theorem spanFraction_append (fraction : IsFraction part)
    (behind : ∀ c tail, power = c :: tail → c.isDigit = false ∧ c ≠ '.') :
    spanFraction (part ++ power) = (part.tail, power) := by
  -- Without a point the exponent is looked at, which does not begin with one.
  cases fraction with
  | some digits =>
    rw [List.cons_append, spanFraction]
    exact spanDigits_append digits.isDigit fun c tail goes => (behind c tail goes).1
  | none =>
    unfold spanFraction
    split
    next tail goes => exact absurd rfl (behind '.' tail goes).2
    next => rfl

/-- The double that a whole number is read as that has so many of its digits behind the point, with
what stands behind these. -/
def assembled (value places : Nat) (rest : List Char) : Option Float :=
  match rest with
  | _ :: ds =>
    if (JsonValue.power ds).2 then
      scale 6 (Float.ofNat value) (-(places : Int) + (JsonValue.power ds).1)
    else if value ≠ 0 && (JsonValue.power ds).1 > 0 then none
    else some 0
  | [] => scale 6 (Float.ofNat value) (-(places : Int))

/-- A numeral is read by the number that its digits make without the point. -/
theorem magnitude?_append (digits : IsDigits whole) (fraction : IsFraction part)
    (behind : ∀ c tail, power = c :: tail → c.isDigit = false ∧ c ≠ '.')
    (fits : Nat.ofDigitChars 10 (whole ++ part.tail) 0 < Number.wordSize) :
    magnitude? (whole ++ part ++ power) =
      assembled (Nat.ofDigitChars 10 (whole ++ part.tail) 0) part.tail.length power := by
  rw [Nat.ofDigitChars_append] at fits ⊢
  -- The whole part ends at the point, at the exponent or at the end of the text.
  have front : Number.spanDigits (whole ++ (part ++ power)) = (whole, part ++ power) :=
    spanDigits_append digits.isDigit fun c tail goes => by
      cases fraction with
      | none => exact (behind c tail goes).1
      | some => exact (List.cons.inj goes).1 ▸ rfl
  -- The definition is unfolded once, so that its parts can be put in one by one.
  have shape : magnitude? (whole ++ part ++ power) =
      (let spanned := Number.spanDigits (whole ++ (part ++ power))
      let parts := spanFraction spanned.2
      let first := significand 0 spanned.1
      let second := significand first.1 parts.1
      let place : Int := (first.2 : Int) - (parts.1.length - second.2 : Nat)
      match parts.2 with
      | _ :: ds =>
        if (JsonValue.power ds).2 then
          scale 6 (Float.ofNat second.1) (place + (JsonValue.power ds).1)
        else if second.1 ≠ 0 && (JsonValue.power ds).1 > 0 then none
        else some 0
      | [] => scale 6 (Float.ofNat second.1) place) := by
    rw [List.append_assoc]
    rfl
  rw [shape, front]
  dsimp only
  rw [spanFraction_append fraction behind,
    significand_eq ((le_ofDigitChars part.tail _).trans_lt fits)]
  dsimp only
  rw [significand_eq fits]
  cases power <;> simp only [assembled, Int.natCast_zero, Nat.sub_zero, Int.zero_sub]

/-! How a number is scaled. -/

/-- What is only divided remains a double. -/
theorem scale_isSome_of_neg (fuel : Nat) (x : Float) {exponent : Int} (neg : exponent < 0) :
    (scale fuel x exponent).isSome := by
  -- Each round divides by a power of ten and takes its places off.
  induction fuel generalizing x exponent with
  | zero => rfl
  | succ fuel ih =>
    rw [scale]
    split
    next =>
      dsimp only
      rw [if_neg (by omega)]
      rfl
    next large =>
      split
      next => rfl
      rw [if_neg (by omega)]
      exact ih _ (by omega)

/-- The digits of a decimal that a double is written as are scaled to a double. -/
theorem scale_isSome {v : Number.Decimal} (bounded : v.Bounded) (some : v.digits ≠ 0) :
    (scale 6 (Float.ofNat v.digits) v.exponent).isSome := by
  rcases lt_or_ge v.exponent 0 with neg | whole
  · exact scale_isSome_of_neg 6 _ neg
  · have small := bounded.exponent_lt some
    rw [scale, if_pos (by omega)]
    dsimp only
    rw [if_pos whole, bounded.isInf_mul some whole]
    rfl

/-- Digits count as the number that they write. -/
theorem digitsValue_eq (ds : List Char) : Number.digitsValue ds = Nat.ofDigitChars 10 ds 0 := by
  rw [Number.digitsValue, Nat.ofDigitChars_eq_foldl]
  congr 1
  funext value d
  rw [Nat.mul_comm]
  rfl

/-- A power of ten is read from its digits behind a minus, or behind nothing. -/
theorem power_eq (n : Int) :
    JsonValue.power ((if n ≥ 0 then [] else ['-']) ++ Nat.toDigits 10 n.natAbs) =
      (n, decide (n.natAbs < Number.capacity 31)) := by
  have digits : Number.digitsValue (Nat.toDigits 10 n.natAbs) = n.natAbs := by
    rw [digitsValue_eq, Nat.ofDigitChars_ten_toDigits]
  split
  -- The first digit is not a minus.
  next whole =>
    obtain ⟨d, others, front⟩ := List.exists_cons_of_ne_nil
      (Nat.toDigits_ne_nil (n := n.natAbs) (b := 10))
    have minus : d ≠ '-' := by
      rintro rfl
      have digit := (isWhole_toDigits n.natAbs).isDigit '-' (front ▸ List.mem_cons_self)
      exact absurd digit (by decide)
    rw [front] at digits ⊢
    rw [List.nil_append, JsonValue.power]
    · simp only [digits, Bool.false_eq_true, if_false, Int.natAbs_of_nonneg whole]
    · exact fun rest goes => minus (List.cons.inj goes).1
  next neg =>
    simp only [List.cons_append, List.nil_append, JsonValue.power, digits, if_true]
    congr 1
    omega

variable {layout : Number.Layout} {v : Number.Decimal}

/-- A decimal that a double is written as is read with one digit in front of the point. -/
theorem assembled_isSome (bounded : v.Bounded) (some : v.digits ≠ 0) {places : Nat} {power : Int}
    (few : places ≤ 17) (own : power = places + v.exponent) :
    (assembled v.digits places ('e' :: ((if power ≥ 0 then [] else ['-']) ++
      Nat.toDigits 10 power.natAbs))).isSome := by
  have small := bounded.exponent_lt some
  have bits : Number.capacity 31 = 2 ^ 31 := rfl
  have place : -(places : Int) + power = v.exponent := by omega
  rw [assembled, power_eq]
  dsimp only
  rw [place]
  -- The exponent fits into 31 bits, or it has so many digits that the number is read as zero.
  split
  next => exact scale_isSome bounded some
  next large =>
    -- An exponent with so many digits is negative.
    rw [decide_eq_true_eq] at large
    have below : ¬power > 0 := by omega
    simp [below]

/-- However a decimal that a double is written as is set, it is read as a double. -/
theorem Written.reads (bounded : v.Bounded) (some : v.digits ≠ 0) (narrow : layout.bound ≤ 16)
    (positive : kept layout.plus.toList = [])
    (written : Written layout (Nat.toDigits 10 v.digits) v.exponent whole part power)
    (digits : IsWhole whole) (fraction : IsFraction part) :
    (magnitude? (kept (whole ++ part ++ power))).isSome := by
  have number : Nat.ofDigitChars 10 (Nat.toDigits 10 v.digits) 0 = v.digits :=
    Nat.ofDigitChars_ten_toDigits
  have word : Number.wordSize = 2 ^ 64 := rfl
  have small := bounded.digits
  rw [kept_append, kept_append, kept_digits digits.isDigit, kept_fraction fraction]
  -- Without an exponent, at least one digit stands behind the point.
  have positional {n : Nat} (value : Nat.ofDigitChars 10 (whole ++ part.tail) 0 = n)
      (fits : n < Number.wordSize) (places : part.tail ≠ []) (none : power = []) :
      (magnitude? (whole ++ part ++ kept power)).isSome := by
    subst none
    rw [kept, List.filter_nil, magnitude?_append digits.toIsDigits fraction
      (fun c tail goes => by cases goes) (value ▸ fits)]
    have least := List.length_pos_iff.mpr places
    exact scale_isSome_of_neg 6 _ (by omega)
  -- Each way of writing has a number of its own before the point is put in, and it is less than a
  -- word.
  cases written with
  | @before zeros own few =>
    refine positional (n := v.digits * 10 ^ (zeros + 1)) ?_ ?_ (by simp) rfl
    · simp only [List.tail_cons, Nat.ofDigitChars_append, number, Nat.ofDigitChars_replicate_zero,
        Nat.ofDigitChars_cons, Nat.ofDigitChars_nil, Nat.sub_self]
      ring
    · have length : v.digits < 10 ^ (Nat.toDigits 10 v.digits).length :=
        (Nat.length_toDigits_le_iff (by decide)
          (List.length_pos_iff.mpr Nat.toDigits_ne_nil)).mp le_rfl
      calc v.digits * 10 ^ (zeros + 1)
          < 10 ^ (Nat.toDigits 10 v.digits).length * 10 ^ (zeros + 1) := by gcongr
        _ = 10 ^ ((Nat.toDigits 10 v.digits).length + zeros + 1) := by
          rw [← Nat.pow_add, Nat.add_assoc]
        _ ≤ 10 ^ 17 := Nat.pow_le_pow_right (by decide) (by omega)
        _ < Number.wordSize := by decide
  | @between front behind split front_some others =>
    refine positional (n := v.digits) ?_ (by omega) (by simpa using others) rfl
    rw [List.tail_cons, ← split, number]
  | behind zeros =>
    refine positional (n := v.digits) ?_ (by omega) (by simp [Nat.toDigits_ne_nil]) rfl
    simp only [List.tail_cons, Nat.ofDigitChars_append, Nat.ofDigitChars_replicate_zero,
      Nat.ofDigitChars_cons, Nat.ofDigitChars_nil, Nat.sub_self, Nat.mul_zero, Nat.add_zero, number]
  -- The digits behind the first one are the places, which the exponent makes up for.
  | @scientific d others power split own =>
    have tail : (if others = [] then [] else '.' :: others).tail = others := by
      split_ifs with none
      · rw [none]
        rfl
      · rfl
    have value : Nat.ofDigitChars 10 ([d] ++ (if others = [] then [] else '.' :: others).tail) 0 =
        v.digits := by
      rw [tail, List.singleton_append, ← split, number]
    have sign : kept (if power ≥ 0 then layout.plus else "-").toList =
        if power ≥ 0 then [] else ['-'] := by
      split_ifs
      · exact positive
      · rfl
    have exponent : kept ('e' :: (if power ≥ 0 then layout.plus else "-").toList ++
        Nat.toDigits 10 power.natAbs) =
          'e' :: ((if power ≥ 0 then [] else ['-']) ++ Nat.toDigits 10 power.natAbs) := by
      rw [List.cons_append, kept, List.filter_cons_of_pos (by decide), ← kept, kept_append, sign,
        kept_digits (isWhole_toDigits _).isDigit]
    rw [exponent, magnitude?_append digits.toIsDigits fraction
      (fun c tail goes => by cases goes; decide) (by rw [value]; omega), value, tail]
    have length : (Nat.toDigits 10 v.digits).length ≤ 18 :=
      (Nat.length_toDigits_le_iff (by decide) (by decide)).mpr (by omega)
    rw [split, List.length_cons] at length
    exact assembled_isSome bounded some (by omega) own

/-- The magnitude of a finite time is written so that it is read as a double. -/
theorem magnitude?_body {time : Float} (finite : time.isFinite = true) :
    ∃ d others, (if (Number.shortest time).digits = 0 then "0.0"
        else Totals.timeLayout.magnitude (Number.shortest time)).toList = d :: others ∧
      d.isDigit = true ∧ (magnitude? (kept (d :: others))).isSome := by
  -- Zero has a text of its own.
  split
  next => exact ⟨'0', ['.', '0'], rfl, rfl, by decide⟩
  next some =>
    obtain ⟨whole, part, power, shape, written⟩ :=
      magnitude_written Totals.timeLayout (Number.shortest time)
    obtain ⟨digits, fraction, -⟩ := written.parts .plus (isWhole_toDigits _).toIsDigits
      fun rest => toDigits_head_ne some
    have reads := written.reads (Number.bounded_shortest finite) some le_rfl rfl digits fraction
    obtain ⟨d, others, rfl⟩ := List.exists_cons_of_ne_nil digits.ne_nil
    exact ⟨d, _, by rw [shape]; exact String.toList_ofList, digits.isDigit d List.mem_cons_self,
      reads⟩

/-- A finite time is read back as a double. -/
theorem double?_timeJson {time : Float} (finite : time.isFinite = true) :
    ((settled (Totals.timeJson time)).double?).isSome := by
  obtain ⟨d, others, shape, digit, reads⟩ := magnitude?_body finite
  have minus : d ≠ '-' := by
    rintro rfl
    exact absurd digit (by decide)
  have plus : d ≠ '+' := by
    rintro rfl
    exact absurd digit (by decide)
  have own : kept (d :: others) = d :: kept others :=
    List.filter_cons_of_pos (by simpa using plus)
  -- The sign stands in front, and what follows it is the magnitude.
  rw [Totals.timeJson, if_pos finite, settled, Number.Layout.text]
  generalize (if (Number.shortest time).digits = 0 then "0.0"
    else Totals.timeLayout.magnitude (Number.shortest time)) = body at shape ⊢
  split
  next =>
    have text : kept ("-" ++ body).toList = '-' :: kept (d :: others) := by
      rw [String.toList_append, shape]
      rfl
    rw [text, double?, String.toList_ofList]
    simpa using reads
  next =>
    rw [shape, double?, String.toList_ofList]
    split
    next goes => exact absurd (List.cons.inj (own.symm.trans goes)).1 minus
    next => exact reads

/-- A time that is not finite is not. -/
theorem double?_timeJson_of_not_isFinite {time : Float} (infinite : time.isFinite = false) :
    (settled (Totals.timeJson time)).double? = none := by
  rw [Totals.timeJson, infinite]
  rfl

end JsonValue

end DialectBench
