import DialectBench.Json.Field
import DialectBench.Number.Shortest
import DialectBench.Proofs.Json.Scan

/-! Numerals that the writer makes are numerals to the reader. -/

namespace DialectBench.JsonValue

/-- The input does not go on with what could belong to a numeral. -/
def Ended (rest : List Glyph) : Prop :=
  ∀ c tail, rest = some c :: tail → c.isDigit = false ∧ c ≠ '.' ∧ c ≠ 'e' ∧ c ≠ 'E'

/-- The input goes on with no digit. -/
def Digitless (rest : List Glyph) : Prop :=
  ∀ c tail, rest = some c :: tail → c.isDigit = false

/-- At least one digit and nothing else. -/
structure IsDigits (ds : List Char) : Prop where
  /-- There is one. -/
  ne_nil : ds ≠ []
  /-- All are digits. -/
  isDigit : ∀ d ∈ ds, d.isDigit = true

/-- The whole part of a numeral: digits without a zero in front of others. -/
structure IsWhole (ds : List Char) : Prop extends IsDigits ds where
  /-- A zero stands alone. -/
  zero : ∀ rest, ds = '0' :: rest → rest = []

/-- The part after the point, if there is one. -/
inductive IsFraction : List Char → Prop where
  /-- There is none. -/
  | none : IsFraction []
  /-- Digits after a point. -/
  | some {ds : List Char} (digits : IsDigits ds) : IsFraction ('.' :: ds)

/-- The sign of an exponent. -/
inductive IsSign : List Char → Prop where
  /-- No sign. -/
  | none : IsSign []
  /-- A plus, which the reader drops. -/
  | plus : IsSign ['+']
  /-- A minus. -/
  | minus : IsSign ['-']

/-- The exponent, if there is one. -/
inductive IsExponent : List Char → Prop where
  /-- There is none. -/
  | none : IsExponent []
  /-- Digits after a sign. -/
  | some {sign ds : List Char} (signed : IsSign sign) (digits : IsDigits ds) :
    IsExponent ('e' :: sign ++ ds)

/-- What the reader keeps of a numeral: all but a plus. -/
def kept (cs : List Char) : List Char :=
  cs.filter fun c => c != '+'

/-- A numeral that ends where something else begins. -/
structure IsNumeral (numeral : String) : Prop where
  /-- It begins with a digit or a minus. -/
  starts : ∃ c rest, numeral.toList = c :: rest ∧ (c = '-' ∨ c.isDigit = true)
  /-- It reads as what the reader keeps of it. -/
  scans : ∀ rest, Ended rest →
    scanNumber (seen numeral.toList ++ rest) = some (kept numeral.toList, rest)

variable {ds whole part power : List Char} {rest : List Glyph}

theorem isDigits_zero : IsDigits ['0'] :=
  ⟨List.cons_ne_nil _ _, fun d inside => by rw [List.mem_singleton.mp inside]; rfl⟩

theorem isWhole_zero : IsWhole ['0'] :=
  ⟨isDigits_zero, fun _ begins => (List.cons.inj begins).2.symm⟩

/-- Digits that do not begin with a zero are a whole part. -/
theorem IsDigits.isWhole (digits : IsDigits ds) (head : ∀ rest, ds ≠ '0' :: rest) : IsWhole ds :=
  ⟨digits, fun rest begins => absurd begins (head rest)⟩

theorem isDigit_of_mem_zeros {n : Nat} {d : Char} (inside : d ∈ List.replicate n '0') :
    d.isDigit = true := by
  rw [List.eq_of_mem_replicate inside]
  rfl

theorem Ended.digitless (ended : Ended rest) : Digitless rest :=
  fun c tail goes => (ended c tail goes).1

/-- Some digits are read up to what is none. -/
theorem scanDigits_append (digits : ∀ d ∈ ds, d.isDigit = true) (behind : Digitless rest) :
    scanDigits (seen ds ++ rest) = (ds, rest) := by
  -- The digits are read one by one; the character behind the last one is none.
  induction ds with
  | nil =>
    cases rest with
    | nil => rfl
    | cons glyph tail =>
      cases glyph with
      | none => rfl
      | some c => simp [scanDigits, behind c tail rfl]
  | cons d ds ih =>
    have first : d.isDigit = true := digits d List.mem_cons_self
    have others := ih fun c inside => digits c (List.mem_cons_of_mem d inside)
    simp only [List.map_cons, List.cons_append, scanDigits, first, others, if_true]

theorem scanSomeDigits_append (digits : IsDigits ds) (behind : Digitless rest) :
    scanSomeDigits (seen ds ++ rest) = some (ds, rest) := by
  obtain ⟨d, others, rfl⟩ := List.exists_cons_of_ne_nil digits.ne_nil
  rw [scanSomeDigits, scanDigits_append digits.isDigit behind]

/-- A whole part is read up to what is no digit. -/
theorem scanWhole_append (digits : IsWhole ds) (behind : Digitless rest) :
    scanWhole (seen ds ++ rest) = some (ds, rest) := by
  rw [scanWhole, scanDigits_append digits.isDigit behind]
  -- The reader refuses an empty list and a zero in front of other digits.
  split
  next empty => exact absurd (congrArg Prod.fst empty) digits.ne_nil
  next leading =>
    have shape := congrArg Prod.fst leading
    exact absurd (digits.zero _ shape) (by simp)
  next => rfl

/-- A fraction is read up to what is neither a digit nor a point. -/
theorem scanFraction_append (fraction : IsFraction part) (behind : Digitless rest)
    (pointless : ∀ tail, rest ≠ some '.' :: tail) :
    scanFraction (seen part ++ rest) = some (part, rest) := by
  cases fraction with
  | some digits => simp [scanFraction, scanSomeDigits_append digits behind]
  | none =>
    simp only [List.map_nil, List.nil_append]
    unfold scanFraction
    split
    next tail => exact absurd rfl (pointless tail)
    next => rfl

/-- No digit is a plus. -/
theorem kept_digits (digits : ∀ d ∈ ds, d.isDigit = true) : kept ds = ds := by
  refine List.filter_eq_self.mpr fun d inside => ?_
  have digit := digits d inside
  by_contra plus
  simp only [bne_iff_ne, ne_eq, Decidable.not_not] at plus
  rw [plus] at digit
  exact absurd digit (by decide)

theorem kept_append (cs others : List Char) : kept (cs ++ others) = kept cs ++ kept others :=
  List.filter_append _ _

theorem kept_fraction (fraction : IsFraction part) : kept part = part := by
  cases fraction with
  | none => rfl
  | some digits => simpa [kept] using kept_digits digits.isDigit

/-- An exponent is read up to the end of its digits, without a plus. -/
theorem scanExponent_append (exponent : IsExponent power) (behind : Ended rest) :
    scanExponent (seen power ++ rest) = some (kept power, rest) := by
  cases exponent with
  | none =>
    simp only [List.map_nil, List.nil_append]
    -- Without an exponent the character behind is no mark of one either.
    unfold scanExponent
    split
    next mark tail =>
      have other := (behind mark tail rfl).2.2
      simp [other, kept]
    next => rfl
  | @some sign ds signed digits =>
    have read := scanSomeDigits_append digits behind.digitless
    have same := kept_digits digits.isDigit
    -- A sign is read, and a plus is left out again.
    cases signed with
    | plus => simpa [scanExponent, read, kept] using same.symm
    | minus => simpa [scanExponent, read, kept] using same.symm
    | none =>
      -- The first digit is neither of the signs.
      obtain ⟨d, others, rfl⟩ := List.exists_cons_of_ne_nil digits.ne_nil
      have digit := digits.isDigit d List.mem_cons_self
      have plus : d ≠ '+' := by
        rintro rfl
        exact absurd digit (by decide)
      have minus : d ≠ '-' := by
        rintro rfl
        exact absurd digit (by decide)
      simp only [List.map_cons, List.cons_append] at read
      have own : kept ('e' :: d :: others) = 'e' :: d :: others := by
        simpa [kept] using same
      simp only [List.cons_append, List.nil_append, List.map_cons, scanExponent]
      simp [plus, minus, read, own]

/-- What ends a numeral is no part of its exponent. -/
theorem digitless_exponent (exponent : IsExponent power) (behind : Ended rest) :
    Digitless (seen power ++ rest) ∧ ∀ tail, seen power ++ rest ≠ some '.' :: tail := by
  cases exponent with
  | none => exact ⟨behind.digitless, fun tail goes => (behind '.' tail goes).2.1 rfl⟩
  | some => simp [Digitless]

/-- What begins with a point or an exponent, or ends the numeral, is no part of a whole number. -/
theorem digitless_fraction (fraction : IsFraction part) (behind : Digitless rest) :
    Digitless (seen part ++ rest) := by
  cases fraction with
  | none => exact behind
  | some => simp [Digitless]

theorem scanMagnitude_append (digits : IsWhole whole) (fraction : IsFraction part)
    (exponent : IsExponent power) (behind : Ended rest) :
    scanMagnitude (seen (whole ++ part ++ power) ++ rest) =
      some (kept (whole ++ part ++ power), rest) := by
  obtain ⟨digitless, pointless⟩ := digitless_exponent exponent behind
  simp only [List.map_append, List.append_assoc, scanMagnitude,
    scanWhole_append digits (digitless_fraction fraction digitless),
    scanFraction_append fraction digitless pointless, scanExponent_append exponent behind,
    Option.bind_eq_bind, Option.bind_some, Option.pure_def, kept_append,
    kept_digits digits.isDigit, kept_fraction fraction]

/-- A whole part, a fraction and an exponent make a numeral. -/
theorem isNumeral_parts (digits : IsWhole whole) (fraction : IsFraction part)
    (exponent : IsExponent power) : IsNumeral (String.ofList (whole ++ part ++ power)) where
  starts := by
    -- A whole part begins with a digit, so the numeral does too.
    obtain ⟨d, others, rfl⟩ := List.exists_cons_of_ne_nil digits.ne_nil
    exact ⟨d, _, by simp; rfl, .inr (digits.isDigit d List.mem_cons_self)⟩
  scans rest behind := by
    rw [String.toList_ofList, scanNumber]
    · exact scanMagnitude_append digits fraction exponent behind
    · -- The numeral does not begin with a minus.
      obtain ⟨d, others, rfl⟩ := List.exists_cons_of_ne_nil digits.ne_nil
      rintro tail goes
      have digit := digits.isDigit d List.mem_cons_self
      simp only [List.cons_append, List.map_cons, List.cons.injEq, Option.some.injEq] at goes
      rw [goes.1] at digit
      exact absurd digit (by decide)

/-- A minus may stand before a numeral of these parts. -/
theorem isNumeral_minus (digits : IsWhole whole) (fraction : IsFraction part)
    (exponent : IsExponent power) :
    IsNumeral (String.ofList ('-' :: (whole ++ part ++ power))) where
  starts := ⟨'-', _, String.toList_ofList, .inl rfl⟩
  scans rest behind := by
    simp only [String.toList_ofList, List.map_cons, List.cons_append, scanNumber,
      scanMagnitude_append digits fraction exponent behind]
    rfl

/-- The digits of a number have no zero in front of others. -/
theorem isWhole_toDigits (n : Nat) : IsWhole (Nat.toDigits 10 n) where
  ne_nil := Nat.toDigits_ne_nil
  isDigit d inside := Nat.isDigit_of_mem_toDigits (by decide) (by decide) inside
  zero rest begins := by
    -- The last digit is taken off, and what is left has fewer of them.
    induction n using Nat.strongRecOn generalizing rest with
    | ind n ih =>
      by_cases small : n < 10
      · rw [Nat.toDigits_of_lt_base small] at begins
        exact (List.cons.inj begins).2.symm
      · -- A number from ten on begins with the digits of a smaller one that is not zero.
        rw [Nat.toDigits_of_base_le (by decide) (by omega)] at begins
        obtain ⟨d, others, front⟩ := List.exists_cons_of_ne_nil
          (Nat.toDigits_ne_nil (n := n / 10) (b := 10))
        rw [front, List.cons_append, List.cons.injEq] at begins
        rw [begins.1] at front
        have zero : n / 10 = 0 := by
          rw [← Nat.ofDigitChars_ten_toDigits (n := n / 10), front, ih (n / 10) (by omega) _ front]
          rfl
        omega

/-- A whole number is written as a numeral. -/
theorem isNumeral_toString (n : Nat) : IsNumeral (toString n) := by
  have parts := isNumeral_parts (isWhole_toDigits n) .none .none
  rw [Nat.toString_eq_ofList_toDigits]
  simpa using parts

/-- Digits read as the number that they write. -/
theorem digits?_eq (digits : IsDigits ds) :
    Number.digits? ds = some (Nat.ofDigitChars 10 ds 0) := by
  -- The digits are added up from the left, whatever the value is that they start from.
  have general (cs : List Char) (start : Nat) (all : ∀ d ∈ cs, d.isDigit = true) :
      cs.foldl (fun value d => if d.isDigit then value.map (· * 10 + (d.toNat - 48)) else none)
        (some start) = some (Nat.ofDigitChars 10 cs start) := by
    induction cs generalizing start with
    | nil => rfl
    | cons d cs ih =>
      have first := all d List.mem_cons_self
      rw [List.foldl_cons, if_pos first, Option.map_some,
        ih _ fun c inside => all c (List.mem_cons_of_mem d inside), Nat.ofDigitChars_cons,
        Nat.mul_comm start 10]
      rfl
  obtain ⟨d, others, rfl⟩ := List.exists_cons_of_ne_nil digits.ne_nil
  exact general _ 0 digits.isDigit

/-- A count below the bound of 64 bits reads back. -/
theorem count?_ofNat {n : Nat} (small : n < Number.wordSize) : (ofNat n).count? = some n := by
  have digits : Number.digits? (toString n).toList = some n := by
    rw [Nat.toString_eq_ofList_toDigits, String.toList_ofList,
      digits?_eq (isWhole_toDigits n).toIsDigits, Nat.ofDigitChars_ten_toDigits]
  rw [ofNat, count?, digits]
  exact if_pos small

/-- The digits of a number that is not zero do not begin with a zero. -/
theorem toDigits_head_ne {n : Nat} (some : n ≠ 0) {rest : List Char} :
    Nat.toDigits 10 n ≠ '0' :: rest := by
  intro begins
  refine some ?_
  rw [← Nat.ofDigitChars_ten_toDigits (n := n), begins, (isWhole_toDigits n).zero rest begins]
  rfl

/-- How digits are set around a point, with a power of ten behind them. -/
inductive Written (layout : Number.Layout) (ds : List Char) (exponent : Int) :
    List Char → List Char → List Char → Prop where
  /-- All digits and some zeros stand in front of the point. -/
  | before {zeros : Nat} (own : exponent = zeros) (few : ds.length + exponent ≤ layout.bound) :
    Written layout ds exponent (ds ++ List.replicate zeros '0') ['.', '0'] []
  /-- The point stands between the digits. -/
  | between {front behind : List Char} (split : ds = front ++ behind) (some : front ≠ [])
    (others : behind ≠ []) : Written layout ds exponent front ('.' :: behind) []
  /-- All digits stand behind the point, after some zeros. -/
  | behind (zeros : Nat) :
    Written layout ds exponent ['0'] ('.' :: (List.replicate zeros '0' ++ ds)) []
  /-- One digit stands in front of the point, and the power of ten behind the others. -/
  | scientific {d : Char} {others : List Char} {power : Int} (split : ds = d :: others)
    (own : power = others.length + exponent) :
    Written layout ds exponent [d] (if others = [] then [] else '.' :: others)
      ('e' :: (if power ≥ 0 then layout.plus else "-").toList ++ Nat.toDigits 10 power.natAbs)

/-- A decimal that is not zero is written in one of these ways. -/
theorem magnitude_written (layout : Number.Layout) (value : Number.Decimal) :
    ∃ whole part power, layout.magnitude value = String.ofList (whole ++ part ++ power) ∧
      Written layout (Nat.toDigits 10 value.digits) value.exponent whole part power := by
  have some : Nat.toDigits 10 value.digits ≠ [] := Nat.toDigits_ne_nil
  unfold Number.Layout.magnitude
  generalize Nat.toDigits 10 value.digits = ds at some
  dsimp only
  split
  -- The decimal point is after the digits, between them, or in front of them.
  next positional =>
    simp only [Bool.and_eq_true, decide_eq_true_eq] at positional
    split
    next large =>
      have own : value.exponent = value.exponent.toNat := by omega
      refine ⟨_, _, [], ?_, .before own (by omega)⟩
      rw [← String.toList_inj]
      simp
    split
    next inside =>
      refine ⟨_, _, [], ?_, .between (List.take_append_drop
        (ds.length + value.exponent).toNat ds).symm ?_ ?_⟩
      · rw [← String.toList_inj]
        simp
      · simp only [ne_eq, List.take_eq_nil_iff, some, or_false]
        omega
      · simp only [ne_eq, List.drop_eq_nil_iff]
        omega
    next =>
      refine ⟨_, _, [], ?_, .behind (-(ds.length + value.exponent)).toNat⟩
      rw [← String.toList_inj]
      simp
  -- The layout falls back on one digit in front of the point and an exponent.
  next =>
    obtain ⟨d, others, rfl⟩ := List.exists_cons_of_ne_nil some
    have own : (d :: others).length + value.exponent - 1 = others.length + value.exponent := by
      rw [List.length_cons]
      omega
    refine ⟨_, _, _, ?_, .scientific rfl own⟩
    rw [← String.toList_inj]
    cases others <;> simp [Nat.repr_eq_ofList_toDigits]

/-- Digits of a number that is not zero are written as the parts of a numeral. -/
theorem Written.parts {layout : Number.Layout} {exponent : Int}
    (written : Written layout ds exponent whole part power)
    (signed : IsSign layout.plus.toList) (digits : IsDigits ds)
    (head : ∀ rest, ds ≠ '0' :: rest) : IsWhole whole ∧ IsFraction part ∧ IsExponent power := by
  -- Each of the ways has its digits from the number, filled up with zeros that do not lead it.
  cases written with
  | before own few =>
    have filled (zeros : Nat) : IsDigits (ds ++ List.replicate zeros '0') :=
      ⟨by simp [digits.ne_nil], fun d inside => (List.mem_append.mp inside).elim
        (digits.isDigit d) isDigit_of_mem_zeros⟩
    refine ⟨(filled _).isWhole fun rest begins => ?_, .some isDigits_zero, .none⟩
    obtain ⟨d, others, rfl⟩ := List.exists_cons_of_ne_nil digits.ne_nil
    exact head others (congrArg (· :: others) (List.cons.inj begins).1)
  | between split some others =>
    refine ⟨IsDigits.isWhole ⟨some, fun d inside => ?_⟩ fun rest begins => ?_,
      .some ⟨others, fun d inside => ?_⟩, .none⟩
    · exact digits.isDigit d (split ▸ List.mem_append_left _ inside)
    · exact head _ (split.trans (by rw [begins]; rfl))
    · exact digits.isDigit d (split ▸ List.mem_append_right _ inside)
  | behind zeros =>
    exact ⟨isWhole_zero, .some ⟨by simp [digits.ne_nil], fun d inside =>
      (List.mem_append.mp inside).elim isDigit_of_mem_zeros (digits.isDigit d)⟩, .none⟩
  | @scientific d others power split own =>
    refine ⟨⟨⟨List.cons_ne_nil _ _, fun c inside => ?_⟩,
      fun _ begins => (List.cons.inj begins).2.symm⟩, ?_, .some ?_ (isWhole_toDigits _).toIsDigits⟩
    · rw [List.mem_singleton.mp inside]
      exact digits.isDigit d (split ▸ List.mem_cons_self)
    · split_ifs with none
      · exact .none
      · exact .some ⟨none, fun c inside => digits.isDigit c (split ▸ List.mem_cons_of_mem d inside)⟩
    · split_ifs
      · exact signed
      · exact .minus

/-- A decimal that is not zero is written in the parts of a numeral. -/
theorem magnitude_parts (layout : Number.Layout) (signed : IsSign layout.plus.toList)
    {value : Number.Decimal} (some : value.digits ≠ 0) :
    ∃ whole part power, layout.magnitude value = String.ofList (whole ++ part ++ power) ∧
      IsWhole whole ∧ IsFraction part ∧ IsExponent power := by
  obtain ⟨whole, part, power, shape, written⟩ := magnitude_written layout value
  exact ⟨whole, part, power, shape, written.parts signed (isWhole_toDigits _).toIsDigits
    fun rest => toDigits_head_ne some⟩

/-- A double is written as a numeral. -/
theorem isNumeral_text (layout : Number.Layout) (signed : IsSign layout.plus.toList) (x : Float) :
    IsNumeral (layout.text x) := by
  -- Zero is written as it is, and any other number by its magnitude.
  obtain ⟨whole, part, power, written, digits, fraction, exponent⟩ :
      ∃ whole part power,
        (if (Number.shortest x).digits = 0 then "0.0" else layout.magnitude (Number.shortest x)) =
          String.ofList (whole ++ part ++ power) ∧
        IsWhole whole ∧ IsFraction part ∧ IsExponent power := by
    split
    next => exact ⟨['0'], ['.', '0'], [], by decide, isWhole_zero, .some isDigits_zero, .none⟩
    next some => exact magnitude_parts layout signed some
  unfold Number.Layout.text
  dsimp only
  rw [written]
  -- The sign stands in front of the magnitude.
  split
  next =>
    have minus := isNumeral_minus digits fraction exponent
    rwa [String.ofList_cons] at minus
  next => exact isNumeral_parts digits fraction exponent

end DialectBench.JsonValue
