import DialectBench.Summary.Duration
import Mathlib.Algebra.GroupWithZero.Nat
import Mathlib.Data.List.Nodup

/-! A duration reads back from its text as the whole seconds that it was written from. -/

namespace DialectBench.Summary

/-- A unit of time. -/
structure TimeUnit where
  /-- The character that it is written with. -/
  name : Char
  /-- The seconds in it. -/
  worth : Nat
  deriving DecidableEq, Repr

namespace TimeUnit

/-- An hour. -/
def hour : TimeUnit := ⟨'h', 3600⟩

/-- A minute. -/
def minute : TimeUnit := ⟨'m', 60⟩

/-- A second. -/
def second : TimeUnit := ⟨'s', 1⟩

end TimeUnit

/-- The units in the order in which they are written. -/
def timeUnits : List TimeUnit := [.hour, .minute, .second]

/-- A number of a unit. -/
structure Share where
  /-- The number. -/
  count : Nat
  /-- The unit. -/
  unit : TimeUnit
  deriving DecidableEq, Repr

/-- The digits of the number, and the unit behind them. -/
def Share.text (share : Share) : List Char :=
  Nat.toDigits 10 share.count ++ [share.unit.name]

/-- The seconds in a number of a unit. -/
def Share.worth (share : Share) : Nat :=
  share.count * share.unit.worth

/-- The seconds that a text tells in some units, each of them at most once and in their order. -/
def readShares : List TimeUnit → List Char → Option Nat
  | [], text => if text.isEmpty then some 0 else none
  | unit :: units, text =>
    let digits := text.takeWhile Char.isDigit
    match text.dropWhile Char.isDigit with
    | c :: rest =>
      -- A unit that is not there is left to the units behind it.
      if c = unit.name && !digits.isEmpty then
        (readShares units rest).map (Nat.ofDigitChars 10 digits 0 * unit.worth + ·)
      else readShares units text
    | [] => readShares units text

/-- The seconds that a text tells in hours, minutes and seconds; an empty text tells nothing. -/
def secondsIn? (text : String) : Option Nat :=
  if text.toList.isEmpty then none else readShares timeUnits text.toList

/-- A text shows a number of seconds: hours, minutes below 60 and seconds below 60 that make up the number, in
that order, each of them if and only if it is not zero; of no seconds at all the zero is shown. -/
def Shows (n : Nat) (text : String) : Prop :=
  ∃ (hours minutes seconds : Nat) (shares : List Share),
    minutes < 60 ∧ seconds < 60 ∧ 3600 * hours + 60 * minutes + seconds = n ∧
      shares ≠ [] ∧ shares.Sublist [⟨hours, .hour⟩, ⟨minutes, .minute⟩, ⟨seconds, .second⟩] ∧
      (⟨hours, .hour⟩ ∈ shares ↔ hours ≠ 0) ∧ (⟨minutes, .minute⟩ ∈ shares ↔ minutes ≠ 0) ∧
      (⟨seconds, .second⟩ ∈ shares ↔ seconds ≠ 0 ∨ n = 0) ∧
      text.toList = shares.flatMap Share.text

section Reading

variable {share : Share} {unit : TimeUnit} {units : List TimeUnit} {rest : List Char}

/-- The digits of a number end at the unit behind them. -/
theorem span_text (plain : share.unit.name.isDigit = false) (rest : List Char) :
    (share.text ++ rest).takeWhile Char.isDigit = Nat.toDigits 10 share.count ∧
      (share.text ++ rest).dropWhile Char.isDigit = share.unit.name :: rest := by
  have digits : ∀ c ∈ Nat.toDigits 10 share.count, c.isDigit = true := by
    intro c inside
    exact Nat.isDigit_of_mem_toDigits (by decide) (by decide) inside
  have stops : ¬ share.unit.name.isDigit = true := by simp [plain]
  rw [Share.text, List.append_assoc, List.singleton_append]
  constructor
  · rw [List.takeWhile_append_of_pos digits, List.takeWhile_cons_of_neg stops, List.append_nil]
  · rw [List.dropWhile_append_of_pos digits, List.dropWhile_cons_of_neg stops]

/-- A number of the unit that is expected is read. -/
theorem readShares_own (plain : share.unit.name.isDigit = false) :
    readShares (share.unit :: units) (share.text ++ rest) =
      (readShares units rest).map (share.worth + ·) := by
  obtain ⟨digits, behind⟩ := span_text plain rest
  have several : (Nat.toDigits 10 share.count).isEmpty = false := by
    rw [List.isEmpty_eq_false_iff]
    exact Nat.toDigits_ne_nil
  simp only [readShares, digits, behind, several, Nat.ofDigitChars_ten_toDigits, Share.worth,
    Bool.not_false, Bool.and_true, decide_true, if_true]

/-- A number of another unit is left to the units behind the one that is expected. -/
theorem readShares_other (plain : share.unit.name.isDigit = false) (other : share.unit.name ≠ unit.name) :
    readShares (unit :: units) (share.text ++ rest) = readShares units (share.text ++ rest) := by
  obtain ⟨-, behind⟩ := span_text plain rest
  simp only [readShares, behind, other, decide_false, Bool.false_and, Bool.false_eq_true, if_false]

/-- Nothing is read from an empty text. -/
theorem readShares_nil (units : List TimeUnit) : readShares units [] = some 0 := by
  induction units with
  | nil => rfl
  | cons unit units ih => exact ih

/-- Numbers of units that are written in their order are read, all of them. -/
theorem readShares_flatMap {shares : List Share} (ordered : (shares.map Share.unit).Sublist units)
    (apart : (units.map TimeUnit.name).Nodup) (plain : ∀ unit ∈ units, unit.name.isDigit = false) :
    readShares units (shares.flatMap Share.text) = some (shares.map Share.worth).sum := by
  -- Each unit either is that of the first number or is skipped, and the numbers are left for the others.
  induction units generalizing shares with
  | nil =>
    obtain rfl := List.map_eq_nil_iff.mp (List.sublist_nil.mp ordered)
    rfl
  | cons unit units ih =>
    rw [List.map_cons, List.nodup_cons] at apart
    obtain ⟨alone, apart⟩ := apart
    have plain' : ∀ unit ∈ units, unit.name.isDigit = false := fun unit listed =>
      plain unit (List.mem_cons_of_mem _ listed)
    cases shares with
    | nil => exact readShares_nil _
    | cons share shares =>
      rw [List.flatMap_cons]
      rw [List.map_cons] at ordered
      by_cases own : share.unit = unit
      · subst own
        rw [readShares_own (plain _ List.mem_cons_self),
          ih (List.cons_sublist_cons.mp ordered) apart plain']
        rfl
      · have later : (share.unit :: shares.map Share.unit).Sublist units := by
          cases ordered with
          | cons _ later => exact later
          | cons_cons _ _ => exact absurd rfl own
        have listed : share.unit ∈ units := later.subset List.mem_cons_self
        have other : share.unit.name ≠ unit.name := by
          intro same
          exact alone (same ▸ List.mem_map_of_mem listed)
        rw [readShares_other (plain' _ listed) other, ← List.flatMap_cons]
        exact ih later apart plain'

end Reading

section Writing

variable {n : Nat}

/-- The numbers of the units in some seconds: of no seconds the zero, and else what is not zero. -/
def sharesOf (n : Nat) : List Share :=
  if n = 0 then [⟨0, .second⟩]
  else [⟨n / 3600, .hour⟩, ⟨n % 3600 / 60, .minute⟩, ⟨n % 60, .second⟩].filter (·.count ≠ 0)

/-- The numbers are in the order of the units. -/
theorem sharesOf_sublist (n : Nat) :
    (sharesOf n).Sublist [⟨n / 3600, .hour⟩, ⟨n % 3600 / 60, .minute⟩, ⟨n % 60, .second⟩] := by
  by_cases none : n = 0
  · subst none
    decide
  · rw [sharesOf, if_neg none]
    exact List.filter_sublist

/-- There is at least one number. -/
theorem sharesOf_ne_nil (n : Nat) : sharesOf n ≠ [] := by
  by_cases none : n = 0
  · subst none
    decide
  · rw [sharesOf, if_neg none]
    intro empty
    -- Without hours, minutes and seconds there are no seconds at all.
    have zeros := List.filter_eq_nil_iff.mp empty
    simp only [List.forall_mem_cons, List.not_mem_nil, decide_not, Bool.not_eq_true',
      decide_eq_false_iff_not, Decidable.not_not] at zeros
    omega

/-- The numbers make up the seconds. -/
theorem sum_sharesOf (n : Nat) : ((sharesOf n).map Share.worth).sum = n := by
  by_cases none : n = 0
  · subst none
    decide
  · -- What is left out is worth nothing.
    have kept (shares : List Share) :
        ((shares.filter (·.count ≠ 0)).map Share.worth).sum = (shares.map Share.worth).sum := by
      induction shares with
      | nil => rfl
      | cons share shares ih =>
        by_cases zero : share.count = 0 <;> simp_all [Share.worth]
    rw [sharesOf, if_neg none, kept]
    simp only [List.map_cons, List.map_nil, List.sum_cons, List.sum_nil, Share.worth, TimeUnit.hour,
      TimeUnit.minute, TimeUnit.second]
    omega

/-- A number of a unit is written if it is not zero. -/
theorem toList_unit (of : TimeUnit) {name : String} (named : name.toList = [of.name]) (count : Nat) :
    (unit count name).toList =
      ([⟨count, of⟩].filter fun share : Share => share.count ≠ 0).flatMap Share.text := by
  rw [unit]
  by_cases zero : count = 0
  · rw [if_neg (by omega), List.filter_cons_of_neg (by simpa using zero)]
    rfl
  · rw [if_pos (by omega), List.filter_cons_of_pos (by simpa using zero), String.toList_append,
      Nat.toString_eq_ofList_toDigits, String.toList_ofList, named]
    exact (List.append_nil _).symm

/-- A duration is written as its numbers of units, one after the other. -/
theorem toList_wholeDuration (n : Nat) : (wholeDuration n).toList = (sharesOf n).flatMap Share.text := by
  by_cases none : n = 0
  · subst none
    decide
  · rw [wholeDuration, if_neg none, sharesOf, if_neg none, String.toList_append, String.toList_append,
      toList_unit .hour rfl, toList_unit .minute rfl, toList_unit .second rfl,
      ← List.flatMap_append, ← List.flatMap_append, ← List.filter_append, ← List.filter_append]
    rfl

/-- A duration shows its seconds. -/
theorem shows_wholeDuration (n : Nat) : Shows n (wholeDuration n) := by
  refine ⟨n / 3600, n % 3600 / 60, n % 60, sharesOf n, by omega, by omega, by omega, sharesOf_ne_nil n,
    sharesOf_sublist n, ?_, ?_, ?_, toList_wholeDuration n⟩ <;>
  · by_cases none : n = 0
    · subst none
      decide
    · simp [sharesOf, none, TimeUnit.hour, TimeUnit.minute, TimeUnit.second]

/-- What is shown of seconds is read as these seconds. -/
theorem secondsIn?_wholeDuration (n : Nat) : secondsIn? (wholeDuration n) = some n := by
  -- The shares are read one by one, as they stand in the order of the units.
  have ordered : ((sharesOf n).map Share.unit).Sublist timeUnits := (sharesOf_sublist n).map Share.unit
  have read := readShares_flatMap ordered (by decide) (by decide)
  rw [sum_sharesOf] at read
  have some : (wholeDuration n).toList.isEmpty = false := by
    obtain ⟨share, shares, first⟩ := List.exists_cons_of_ne_nil (sharesOf_ne_nil n)
    simp [toList_wholeDuration, first, Share.text]
  rw [secondsIn?, some, toList_wholeDuration, read]
  rfl

end Writing

/-- Rounded seconds fit into 64 bits. -/
theorem wholeSeconds_lt (seconds : Float) : wholeSeconds seconds < 2 ^ 64 := by
  rw [wholeSeconds]
  split
  · exact UInt64.toNat_lt _
  · decide

/-- Durations are rendered without loss: the text of a number of seconds shows its hours, minutes and seconds,
is the zero for no seconds alone, and reads back as the number, so that no two numbers have one text. The text
of measured seconds is that of the number that they are rounded to, which fits into 64 bits. -/
theorem durations_rendered_without_loss :
    (∀ n, Shows n (wholeDuration n) ∧ (wholeDuration n = "0s" ↔ n = 0) ∧
        secondsIn? (wholeDuration n) = some n) ∧
      (∀ n m, wholeDuration n = wholeDuration m ↔ n = m) ∧
      ∀ measured : Float, wholeSeconds measured < 2 ^ 64 ∧
        Shows (wholeSeconds measured) (duration measured) ∧
        secondsIn? (duration measured) = some (wholeSeconds measured) := by
  have apart : ∀ n m, wholeDuration n = wholeDuration m ↔ n = m := by
    intro n m
    constructor
    · intro same
      -- Both numbers are read from the one text.
      have read := secondsIn?_wholeDuration n
      rw [same, secondsIn?_wholeDuration] at read
      exact (Option.some.inj read).symm
    · rintro rfl
      rfl
  refine ⟨fun n => ⟨shows_wholeDuration n, ?_, secondsIn?_wholeDuration n⟩, apart, fun measured =>
    ⟨wholeSeconds_lt measured, shows_wholeDuration _, secondsIn?_wholeDuration _⟩⟩
  exact apart n 0

/-- Two hours and five seconds have no minutes. -/
example : wholeDuration 7205 = "2h5s" := by decide

end DialectBench.Summary
