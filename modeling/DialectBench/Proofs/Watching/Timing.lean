import DialectBench.Watching.Timing
import Mathlib.Data.Nat.Basic
import Mathlib.Order.Monotone.Defs

/-! The interval between two notices is shorter than the longest silence, whatever is asked for. -/

namespace DialectBench.Watching

variable {idle wanted : Nat}

/-- An interval can stand between two notices: there is something of it, and it is shorter than the longest
silence. -/
def Usable (idle : Nat) (interval : Int) : Prop :=
  0 < interval ∧ interval < idle

/-- An interval between two notices suits the longest silence, and the interval that is asked for. -/
structure Suits (idle : Nat) (asked : Option Int) (interval : Nat) : Prop where
  /-- It can stand between two notices. -/
  usable : Usable idle interval
  /-- What is asked for is taken if it can stand there, and only then. -/
  taken_iff : ∀ wanted ∈ asked, (interval : Int) = wanted ↔ Usable idle wanted
  /-- Otherwise it is kept between 10 and 60 seconds if the longest silence exceeds 10 seconds. -/
  kept : (∀ wanted ∈ asked, ¬ Usable idle wanted) → 10 * second < idle →
    10 * second ≤ interval ∧ interval ≤ 60 * second
  /-- Otherwise it is half of the longest silence if that does not exceed 10 seconds. -/
  half : (∀ wanted ∈ asked, ¬ Usable idle wanted) → idle ≤ 10 * second → interval = idle / 2

/-- What is asked for is taken if it can stand between two notices. -/
theorem heartbeatFor_of_usable (fits : Usable idle wanted) : heartbeatFor idle (some wanted) = wanted := by
  obtain ⟨some, shorter⟩ := fits
  have both : (0 < wanted && wanted < idle) = true := by
    rw [Bool.and_eq_true, decide_eq_true_eq, decide_eq_true_eq]
    omega
  rw [heartbeatFor]
  exact if_pos both

/-- What cannot stand between two notices might as well not be asked for. -/
theorem heartbeatFor_of_not_usable (unfit : ¬ Usable idle wanted) :
    heartbeatFor idle (some wanted) = heartbeatFor idle none := by
  have refused : ¬ (0 < wanted && wanted < idle) = true := by
    intro both
    rw [Bool.and_eq_true, decide_eq_true_eq, decide_eq_true_eq] at both
    exact unfit ⟨by omega, by omega⟩
  rw [heartbeatFor]
  exact if_neg refused

/-- Above 10 seconds the usual interval is half of the longest silence, kept between 10 and 60 seconds. -/
theorem heartbeatFor_of_long (long : 10 * second < idle) :
    heartbeatFor idle none = max (10 * second) (min (60 * second) (idle / 2)) := by
  -- Neither 10 seconds nor the half reaches the longest silence.
  have shorter : max (10 * second) (min (60 * second) (idle / 2)) < idle := by omega
  rw [heartbeatFor]
  exact if_pos shorter

/-- Up to 10 seconds the usual interval is half of the longest silence. -/
theorem heartbeatFor_of_short (short : idle ≤ 10 * second) : heartbeatFor idle none = idle / 2 := by
  -- The 10 seconds that an interval is raised to are too long here.
  have longer : ¬ max (10 * second) (min (60 * second) (idle / 2)) < idle := by omega
  rw [heartbeatFor]
  exact if_neg longer

/-- The usual interval does not get shorter when the longest silence gets longer. -/
theorem monotone_heartbeatFor : Monotone fun idle => heartbeatFor idle none := by
  intro idle longer more
  dsimp only
  -- Where the rule changes, half of 10 seconds is left behind and 10 seconds are taken up.
  rcases Nat.lt_or_ge (10 * second) idle with long | short
  · rw [heartbeatFor_of_long long, heartbeatFor_of_long (Nat.lt_of_lt_of_le long more)]
    omega
  · rw [heartbeatFor_of_short short]
    rcases Nat.lt_or_ge (10 * second) longer with long | short
    · rw [heartbeatFor_of_long long]
      omega
    · rw [heartbeatFor_of_short short]
      omega

/-- The usual interval suits a longest silence of a second or more. -/
theorem suits_heartbeatFor_none (atLeast : second ≤ idle) : Suits idle none (heartbeatFor idle none) := by
  have several : 2 ≤ second := by decide
  refine ⟨?_, fun _ own => (Option.not_mem_none _ own).elim, fun _ long => ?_,
    fun _ short => heartbeatFor_of_short short⟩
  · -- Half of two nanoseconds or more is something, and less than all.
    rcases Nat.lt_or_ge (10 * second) idle with long | short
    · rw [heartbeatFor_of_long long]
      constructor <;> omega
    · rw [heartbeatFor_of_short short]
      constructor <;> omega
  · rw [heartbeatFor_of_long long]
    omega

/-- An interval that suits when none is asked for also suits when one is asked for that cannot be used. -/
theorem Suits.of_not_usable {interval : Nat} {wanted : Int} (suits : Suits idle none interval)
    (unfit : ¬ Usable idle wanted) : Suits idle (some wanted) interval := by
  have nothing : ∀ wanted ∈ (none : Option Int), ¬ Usable idle wanted := fun _ own =>
    (Option.not_mem_none _ own).elim
  refine ⟨suits.usable, ?_, fun _ => suits.kept nothing, fun _ => suits.half nothing⟩
  rintro other ⟨⟩
  -- The interval itself can be used, so it is not the one that cannot.
  refine iff_of_false ?_ unfit
  intro same
  exact unfit (same ▸ suits.usable)

/-- The interval between two notices suits a longest silence of a second or more. -/
theorem suits_heartbeatFor (atLeast : second ≤ idle) (asked : Option Nat) :
    Suits idle (asked.map Nat.cast) (heartbeatFor idle asked) := by
  cases asked with
  | none => exact suits_heartbeatFor_none atLeast
  | some wanted =>
    -- An interval that is asked for is used if it is shorter than the longest silence, and the usual
    -- one else.
    by_cases fits : Usable idle wanted
    · rw [heartbeatFor_of_usable fits]
      refine ⟨fits, ?_, fun unfit => absurd fits (unfit _ rfl), fun unfit => absurd fits (unfit _ rfl)⟩
      rintro other ⟨⟩
      exact iff_of_true rfl fits
    · rw [heartbeatFor_of_not_usable fits]
      exact (suits_heartbeatFor_none atLeast).of_not_usable fits

/-- A positive number of seconds is itself in nanoseconds. -/
theorem secondsOf_eq {count : Int} (positive : 0 < count) : (secondsOf count : Int) = count * second := by
  rw [secondsOf, Int.natCast_mul, Int.toNat_of_nonneg (Int.le_of_lt positive)]

/-- The longest silence is what is asked for if that is positive, and else a second. -/
theorem idle_ofSeconds (count : Int) (heartbeat : Option Int) :
    (Timing.ofSeconds count heartbeat).idle = if 0 < count then secondsOf count else second := by
  show max second (if count ≤ 0 then second else secondsOf count) = _
  by_cases positive : 0 < count
  · have one : second ≤ secondsOf count := Nat.le_mul_of_pos_left second (by omega)
    rw [if_pos positive, if_neg (by omega), Nat.max_eq_right one]
  · rw [if_neg positive, if_pos (by omega), Nat.max_self]

/-- The longest silence is a positive number of whole seconds. -/
theorem exists_idle_ofSeconds (count : Int) (heartbeat : Option Int) :
    ∃ seconds, 0 < seconds ∧ (Timing.ofSeconds count heartbeat).idle = seconds * second := by
  rw [idle_ofSeconds]
  by_cases positive : 0 < count
  · exact ⟨count.toNat, by omega, if_pos positive⟩
  · exact ⟨1, by decide, (if_neg positive).trans (Nat.one_mul second).symm⟩

/-- The interval between two notices suits the longest silence, both in seconds. -/
theorem suits_ofSeconds (count : Int) (asked : Option Int) :
    Suits (Timing.ofSeconds count asked).idle (asked.map (· * (second : Int)))
      (Timing.ofSeconds count asked).heartbeat := by
  obtain ⟨seconds, above, whole⟩ := exists_idle_ofSeconds count asked
  have atLeast : second ≤ (Timing.ofSeconds count asked).idle :=
    whole ▸ Nat.le_mul_of_pos_left second above
  have interval : (Timing.ofSeconds count asked).heartbeat =
      heartbeatFor (Timing.ofSeconds count asked).idle
        ((asked.filter fun wanted => 0 < wanted).map secondsOf) := rfl
  rw [interval]
  -- From here on the longest silence matters only through its being a second or more.
  generalize (Timing.ofSeconds count asked).idle = idle at atLeast
  cases asked with
  | none => exact suits_heartbeatFor_none atLeast
  | some wanted =>
    by_cases positive : 0 < wanted
    · -- A positive number of seconds is the same with and without a sign.
      have suits := suits_heartbeatFor atLeast (some (secondsOf wanted))
      rw [Option.map_some, secondsOf_eq positive] at suits
      rwa [Option.filter_some, if_pos (decide_eq_true positive)]
    · rw [Option.filter_some, if_neg (by simpa using positive)]
      refine (suits_heartbeatFor_none atLeast).of_not_usable ?_
      intro fits
      exact positive (Int.pos_of_mul_pos_left fits.1 (by decide))

/-- Watches are timed soundly. With a longest silence and an interval that are asked for in seconds, whatever
their signs, the longest silence is at least a second, and what is asked for if that is positive; the interval
between two notices suits it; and half of it is exact. With durations in nanoseconds the interval suits every
longest silence of a second or more, and the usual one does not get shorter when the silence gets longer. -/
theorem watches_timed_soundly :
    (∀ (count : Int) (asked : Option Int),
        second ≤ (Timing.ofSeconds count asked).idle ∧
          (0 < count → ((Timing.ofSeconds count asked).idle : Int) = count * second) ∧
          (count ≤ 0 → (Timing.ofSeconds count asked).idle = second) ∧
          Suits (Timing.ofSeconds count asked).idle (asked.map (· * (second : Int)))
            (Timing.ofSeconds count asked).heartbeat ∧
          2 * ((Timing.ofSeconds count asked).idle / 2) = (Timing.ofSeconds count asked).idle) ∧
      (∀ (idle : Nat) (asked : Option Nat), second ≤ idle →
        Suits idle (asked.map Nat.cast) (heartbeatFor idle asked)) ∧
      Monotone fun idle => heartbeatFor idle none := by
  refine ⟨fun count asked => ⟨?_, fun positive => ?_, fun negative => ?_, suits_ofSeconds count asked, ?_⟩,
    fun idle asked atLeast => suits_heartbeatFor atLeast asked, monotone_heartbeatFor⟩
  · obtain ⟨seconds, above, whole⟩ := exists_idle_ofSeconds count asked
    exact whole ▸ Nat.le_mul_of_pos_left second above
  · rw [idle_ofSeconds, if_pos positive, secondsOf_eq positive]
  · rw [idle_ofSeconds, if_neg (by omega)]
  · -- A second is an even number of nanoseconds.
    obtain ⟨seconds, -, whole⟩ := exists_idle_ofSeconds count asked
    have even : second % 2 = 0 := by decide
    rw [whole]
    exact Nat.mul_div_cancel' (Nat.dvd_mul_left_of_dvd (Nat.dvd_of_mod_eq_zero even) seconds)

/-- Ten seconds of silence with a notice asked for after ten seconds give one after five; a nanosecond more
gives one after ten; and minus three seconds count as one. -/
theorem watches_timed_soundly_at_ten :
    (Timing.ofSeconds 10 (some 10)).heartbeat = 5 * second ∧
      10 * second ≤ heartbeatFor (10 * second + 1) (some (10 * second + 1)) ∧
      (Timing.ofSeconds (-3) none).idle = second ∧
      heartbeatFor (10 * second) none ≤ heartbeatFor (10 * second + 1) none := by
  obtain ⟨seconds, nanoseconds, longer⟩ := watches_timed_soundly
  obtain ⟨-, ten, -, suits, -⟩ := seconds 10 (some 10)
  have idle : (Timing.ofSeconds 10 (some 10)).idle = 10 * second := by
    have signed := ten (by decide)
    omega
  rw [idle] at suits
  refine ⟨suits.half ?_ (Nat.le_refl _), ?_, (seconds (-3) none).2.2.1 (by decide),
    longer (Nat.le_succ (10 * second))⟩
  · rintro wanted ⟨⟩
    rintro ⟨-, shorter⟩
    exact absurd shorter (by decide)
  · refine ((nanoseconds (10 * second + 1) (some (10 * second + 1)) (by decide)).kept ?_ (by decide)).1
    rintro wanted ⟨⟩
    rintro ⟨-, shorter⟩
    exact absurd shorter (by decide)

end DialectBench.Watching
