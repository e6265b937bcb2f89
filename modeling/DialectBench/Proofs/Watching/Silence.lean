import DialectBench.Command.Launch
import Mathlib.Logic.Function.Basic
import Mathlib.Tactic.SplitIfs

/-! When a watch stops a silent command, whatever the order in which readers and supervisor come to
their steps. -/

namespace DialectBench.Watching

variable {w : Watch} {channel : Channel}

/-- What the readers have read from the clock, before it is cut to milliseconds. -/
structure Readings where
  /-- The last reading of each reader. -/
  held : Channel → Nat := fun _ => 0
  /-- The latest reading that a reader has stored. -/
  latest : Nat := 0

/-- The readings after a step of a watch. -/
def Readings.after (r : Readings) (w : Watch) : Step → Readings
  | .glance channel =>
    match (w.reader channel).phase with
    | .taken _ => { r with held := Function.update r.held channel w.clock }
    | _ => r
  | .store channel =>
    match (w.reader channel).phase with
    | .timed _ _ => { r with latest := max r.latest (r.held channel) }
    | _ => r
  | _ => r

/-- The readings after several steps of a watch. -/
def Readings.run (r : Readings) (w : Watch) : List Step → Readings
  | [] => r
  | step :: steps => (r.after w step).run (w.step step) steps

/-- The time since the latest reading that a reader has stored in a run, or since its start. -/
def exactSilence (w : Watch) (steps : List Step) : Nat :=
  (w.run steps).clock - (Readings.run {} w steps).latest

/-- What a watch knows of the readings: the latest stored one and those on the way to be stored, in
whole milliseconds. -/
structure Tracks (w : Watch) (r : Readings) : Prop where
  stored : w.lastOutput = r.latest / millisecond
  past : r.latest ≤ w.clock
  timed : ∀ channel line reading, (w.reader channel).phase = .timed line reading →
    reading = r.held channel / millisecond ∧ r.held channel ≤ w.clock

/-- The status with which a command ends in a step. -/
def Step.ending? : Step → Option Int
  | .finish status => some status
  | _ => none

/-- The operator asks to stop in a step. -/
def Step.asks : Step → Bool
  | .interrupt => true
  | _ => false

namespace Watch

@[simp]
theorem reader_setReader (w : Watch) (channel other : Channel) (reader : Reader) :
    (w.setReader channel reader).reader other =
      if other = channel then reader else w.reader other := by
  cases channel <;> cases other <;> rfl

@[simp]
theorem clock_setReader (w : Watch) (channel : Channel) (reader : Reader) :
    (w.setReader channel reader).clock = w.clock := by
  cases channel <;> rfl

@[simp]
theorem lastOutput_setReader (w : Watch) (channel : Channel) (reader : Reader) :
    (w.setReader channel reader).lastOutput = w.lastOutput := by
  cases channel <;> rfl

@[simp]
theorem verdict_setReader (w : Watch) (channel : Channel) (reader : Reader) :
    (w.setReader channel reader).verdict = w.verdict := by
  cases channel <;> rfl

@[simp]
theorem timing_setReader (w : Watch) (channel : Channel) (reader : Reader) :
    (w.setReader channel reader).timing = w.timing := by
  cases channel <;> rfl

@[simp]
theorem status_setReader (w : Watch) (channel : Channel) (reader : Reader) :
    (w.setReader channel reader).status = w.status := by
  cases channel <;> rfl

@[simp]
theorem interrupted_setReader (w : Watch) (channel : Channel) (reader : Reader) :
    (w.setReader channel reader).interrupted = w.interrupted := by
  cases channel <;> rfl

/-- A look of the supervisor leaves the clock, the stored time and the readers. -/
theorem look_keeps (w : Watch) :
    w.look.clock = w.clock ∧ w.look.lastOutput = w.lastOutput ∧
      ∀ channel, w.look.reader channel = w.reader channel := by
  unfold look
  split
  case h_1 => exact ⟨rfl, rfl, fun _ => rfl⟩
  case h_2 => exact ⟨rfl, rfl, fun channel => by cases channel <;> rfl⟩
  case h_3 =>
    split_ifs
    all_goals exact ⟨rfl, rfl, fun channel => by cases channel <;> rfl⟩

/-- A look of the supervisor leaves the intervals, the status and a request to stop. -/
theorem look_scene (w : Watch) :
    w.look.timing = w.timing ∧ w.look.status = w.status ∧ w.look.interrupted = w.interrupted := by
  unfold look
  split
  case h_1 => exact ⟨rfl, rfl, rfl⟩
  case h_2 => exact ⟨rfl, rfl, rfl⟩
  case h_3 =>
    split_ifs
    all_goals exact ⟨rfl, rfl, rfl⟩

/-- A reading is stored in a step. -/
def Stores (w : Watch) (step : Step) (channel : Channel) (reading : Nat) : Prop :=
  step = .store channel ∧ ∃ line, (w.reader channel).phase = .timed line reading

/-- A reader that has taken a line reads the clock in a step. -/
def Looks (w : Watch) (step : Step) (channel : Channel) : Prop :=
  step = .glance channel ∧ ∃ line, (w.reader channel).phase = .taken line

/-- Storing a reading raises the stored time to it, and nothing else changes that time. -/
theorem lastOutput_step (w : Watch) (step : Step) :
    (∀ channel reading, ¬ w.Stores step channel reading) ∧
        (w.step step).lastOutput = w.lastOutput ∨
      ∃ channel reading, w.Stores step channel reading ∧
        (w.step step).lastOutput = max w.lastOutput reading := by
  -- Only a reader with a reading stores anything, so every other step is on the left.
  cases step with
  | pass duration => exact .inl ⟨nofun, rfl⟩
  | emit channel content =>
    refine .inl ⟨nofun, ?_⟩
    simp only [Watch.step, emit]
    split <;> simp
  | close channel => exact .inl ⟨nofun, lastOutput_setReader w channel _⟩
  | finish status => exact .inl ⟨nofun, rfl⟩
  | interrupt => exact .inl ⟨nofun, rfl⟩
  | take channel =>
    refine .inl ⟨nofun, ?_⟩
    simp only [Watch.step, take]
    split <;> simp
  | glance channel =>
    refine .inl ⟨nofun, ?_⟩
    simp only [Watch.step, glance]
    split <;> simp
  | store channel =>
    simp only [Watch.step, store]
    split
    next line reading phase => exact .inr ⟨channel, reading, ⟨rfl, line, phase⟩, rfl⟩
    next untimed =>
      refine .inl ⟨?_, rfl⟩
      rintro other reading ⟨same, line, phase⟩
      cases same
      exact untimed line reading phase
  | write channel =>
    refine .inl ⟨nofun, ?_⟩
    simp only [Watch.step, write]
    split <;> simp
  | poll => exact .inl ⟨nofun, w.look_keeps.2.1⟩

/-- The stored time never decreases. -/
theorem lastOutput_le_step (w : Watch) (step : Step) : w.lastOutput ≤ (w.step step).lastOutput := by
  rcases w.lastOutput_step step with ⟨-, same⟩ | ⟨_, _, _, stored⟩
  · exact Nat.le_of_eq same.symm
  · exact stored ▸ Nat.le_max_left _ _

/-- Time passes, and nothing else changes the clock. -/
theorem clock_le_step (w : Watch) (step : Step) : w.clock ≤ (w.step step).clock := by
  -- Apart from the passing of time, a step touches a reader, the log or a mark, but not the clock.
  cases step with
  | pass duration => exact Nat.le_add_right _ _
  | poll => exact Nat.le_of_eq w.look_keeps.1.symm
  | emit channel content => simp only [Watch.step, emit]; split <;> simp
  | close channel => simp [Watch.step]
  | finish status => exact Nat.le_refl _
  | interrupt => exact Nat.le_refl _
  | take channel => simp only [Watch.step, take]; split <;> simp
  | glance channel => simp only [Watch.step, glance]; split <;> simp
  | store channel => simp only [Watch.step, store]; split <;> simp
  | write channel => simp only [Watch.step, write]; split <;> simp

/-- A reader with a reading that is not stored yet had it before, unless it has looked just now. -/
theorem phase_step {step : Step} {line : Bytes} {reading : Nat}
    (timed : ((w.step step).reader channel).phase = .timed line reading) :
    (w.reader channel).phase = .timed line reading ∨
      w.Looks step channel ∧ reading = w.clock / millisecond := by
  -- A reader comes to a reading by a look of its own, and leaves it by storing it.
  cases step with
  | pass duration => exact .inl timed
  | finish status => exact .inl timed
  | interrupt => exact .inl timed
  | poll => exact .inl (w.look_keeps.2.2 channel ▸ timed)
  | emit other content =>
    left
    simp only [Watch.step, emit] at timed
    split at timed
    · exact timed
    · rw [reader_setReader] at timed
      split at timed
      next same => exact same ▸ timed
      next => exact timed
  | close other =>
    left
    simp only [Watch.step, reader_setReader] at timed
    split at timed
    next same => exact same ▸ timed
    next => exact timed
  | take other =>
    left
    simp only [Watch.step, take] at timed
    split at timed
    · rw [reader_setReader] at timed
      split at timed
      next => cases timed
      next => exact timed
    · exact timed
  | glance other =>
    simp only [Watch.step, glance] at timed
    split at timed
    -- The look of the reader itself is the one step that makes a reading.
    next taken phase =>
      rw [reader_setReader] at timed
      split at timed
      next same =>
        cases timed
        subst same
        exact .inr ⟨⟨rfl, line, phase⟩, rfl⟩
      next => exact .inl timed
    next => exact .inl timed
  | store other =>
    left
    simp only [Watch.step, store] at timed
    split at timed
    next taken earlier phase =>
      -- The stored time stands beside the readers and says nothing about the phase of one.
      have after : (Watch.reader { w.setReader other { w.reader other with phase := .noted taken }
          with lastOutput := max w.lastOutput earlier } channel).phase =
            if channel = other then .noted taken else (w.reader channel).phase := by
        cases channel <;> cases other <;> rfl
      rw [after] at timed
      split at timed
      next => cases timed
      next => exact timed
    next => exact timed
  | write other =>
    left
    simp only [Watch.step, write] at timed
    split at timed
    next written phase =>
      have after : (Watch.reader { w.setReader other { w.reader other with phase := .idle }
          with log := .line other written :: w.log } channel).phase =
            if channel = other then .idle else (w.reader channel).phase := by
        cases channel <;> cases other <;> rfl
      rw [after] at timed
      split at timed
      next => cases timed
      next => exact timed
    next => exact timed

end Watch

namespace Readings

variable {r : Readings} {step : Step}

/-- The latest stored reading stays unless one is stored. -/
theorem latest_after (quiet : ∀ channel reading, ¬ w.Stores step channel reading) :
    (r.after w step).latest = r.latest := by
  cases step with
  | store channel =>
    cases phase : (w.reader channel).phase with
    | timed line reading => exact absurd ⟨rfl, line, phase⟩ (quiet channel reading)
    | _ => simp [after, phase]
  | glance channel => simp only [after]; split <;> rfl
  | _ => rfl

/-- A reading that is stored later than the others is the latest. -/
theorem latest_after_store {reading : Nat} (stores : w.Stores step channel reading) :
    (r.after w step).latest = max r.latest (r.held channel) := by
  obtain ⟨rfl, line, phase⟩ := stores
  simp [after, phase]

/-- A reader that does not look keeps its last reading. -/
theorem held_after (quiet : ¬ w.Looks step channel) :
    (r.after w step).held channel = r.held channel := by
  cases step with
  -- A look by the other reader changes its own reading only.
  | glance other =>
    simp only [after]
    split
    next line phase =>
      have apart : channel ≠ other := by
        rintro rfl
        exact quiet ⟨rfl, line, phase⟩
      simp [apart]
    next => rfl
  | store other => simp only [after]; split <;> rfl
  | _ => rfl

/-- A reader that looks has the present time. -/
theorem held_after_look (looks : w.Looks step channel) :
    (r.after w step).held channel = w.clock := by
  obtain ⟨rfl, line, phase⟩ := looks
  simp [after, phase]

end Readings

/-- Every step keeps what a watch knows of the readings. -/
theorem Tracks.step {r : Readings} (tracks : Tracks w r) (step : Step) :
    Tracks (w.step step) (r.after w step) := by
  -- Two facts are carried on: the stored time, and the readings that are held but not stored yet.
  have later := w.clock_le_step step
  -- The latest stored reading is cut to milliseconds as each of the readings is.
  have latest : (w.step step).lastOutput = (r.after w step).latest / millisecond ∧
      (r.after w step).latest ≤ w.clock := by
    rcases w.lastOutput_step step with ⟨quiet, same⟩ | ⟨channel, reading, stores, stored⟩
    · rw [same, Readings.latest_after quiet]
      exact ⟨tracks.stored, tracks.past⟩
    -- The reading that is stored now has been held, and cutting keeps the later of two times the
    -- later.
    · obtain ⟨-, line, phase⟩ := id stores
      obtain ⟨cut, past⟩ := tracks.timed channel line reading phase
      rw [stored, Readings.latest_after_store stores, tracks.stored, cut]
      refine ⟨?_, Nat.max_le.mpr ⟨tracks.past, past⟩⟩
      rcases Nat.le_total r.latest (r.held channel) with below | above
      · rw [Nat.max_eq_right below, Nat.max_eq_right (Nat.div_le_div_right below)]
      · rw [Nat.max_eq_left above, Nat.max_eq_left (Nat.div_le_div_right above)]
  have held : ∀ channel line reading, ((w.step step).reader channel).phase = .timed line reading →
      reading = (r.after w step).held channel / millisecond ∧
        (r.after w step).held channel ≤ w.clock := by
    intro channel line reading timed
    -- The reading was held before, or is that of the present look.
    rcases Watch.phase_step timed with before | ⟨looks, cut⟩
    · have quiet : ¬ w.Looks step channel := by
        rintro ⟨-, other, taken⟩
        cases before.symm.trans taken
      rw [Readings.held_after quiet]
      exact tracks.timed channel line reading before
    · rw [Readings.held_after_look looks]
      exact ⟨cut, Nat.le_refl _⟩
  exact ⟨latest.1, Nat.le_trans latest.2 later, fun channel line reading timed =>
    (held channel line reading timed).imp_right fun past => Nat.le_trans past later⟩

/-- A whole run keeps what a watch knows of the readings. -/
theorem Tracks.run {r : Readings} (tracks : Tracks w r) (steps : List Step) :
    Tracks (w.run steps) (r.run w steps) := by
  induction steps generalizing w r with
  | nil => exact tracks
  | cons step steps ih => exact ih (tracks.step step)

/-- A watch starts without a reading. -/
theorem tracks_start (timing : Timing) (interrupted : Bool) :
    Tracks { timing, interrupted } {} where
  stored := rfl
  past := Nat.le_refl _
  timed channel line reading phase := by cases channel <;> cases phase

/-- The silence that a supervisor sees is the exact one and less than a millisecond more. -/
theorem Tracks.silence {r : Readings} (tracks : Tracks w r) :
    w.clock - r.latest ≤ w.silence ∧ w.silence < w.clock - r.latest + millisecond := by
  have past := tracks.past
  have whole := Nat.div_add_mod r.latest millisecond
  have part := Nat.mod_lt r.latest (show 0 < millisecond by decide)
  rw [Watch.silence, tracks.stored, Nat.mul_comm]
  omega

namespace Watch

/-- Only the supervisor finds an end. -/
theorem verdict_step {step : Step} (w : Watch) (other : step ≠ .poll) :
    (w.step step).verdict = w.verdict := by
  cases step with
  | poll => exact absurd rfl other
  | emit channel content => simp only [Watch.step, emit]; split <;> simp
  | close channel => simp [Watch.step]
  | take channel => simp only [Watch.step, take]; split <;> simp
  | glance channel => simp only [Watch.step, glance]; split <;> simp
  | store channel => simp only [Watch.step, store]; split <;> simp
  | write channel => simp only [Watch.step, write]; split <;> simp
  | _ => rfl

/-- What the supervisor finds: an end, a request to stop or too long a silence, in this order. -/
theorem verdict_look (open? : w.verdict = none) :
    w.look.verdict =
      match w.status with
      | some status => some (.exited status)
      | none =>
        if w.interrupted then some .interrupted
        else if w.timing.idle < w.silence then some .idled
        else none := by
  -- The match of the look is gone through in its order, and a notice leaves the question open.
  unfold look
  rw [open?]
  cases w.status with
  | some status => rfl
  | none =>
    dsimp only
    split_ifs
    case pos => rfl
    case pos => rfl
    case pos => exact open?
    case neg => exact open?

/-- What the supervisor has found stays. -/
theorem verdict_run {verdict : Verdict} (found : w.verdict = some verdict) (steps : List Step) :
    (w.run steps).verdict = some verdict := by
  induction steps generalizing w with
  | nil => exact found
  | cons step steps ih =>
    refine ih ?_
    by_cases poll : step = .poll
    · rw [poll]
      simp [Watch.step, look, found]
    · rw [w.verdict_step poll, found]

/-- The stored time never decreases in a run. -/
theorem lastOutput_le_run (w : Watch) (steps : List Step) :
    w.lastOutput ≤ (w.run steps).lastOutput := by
  induction steps generalizing w with
  | nil => exact Nat.le_refl _
  | cons step steps ih => exact Nat.le_trans (w.lastOutput_le_step step) (ih (w.step step))

/-- A watch without all that notices read and leave. -/
def withoutNotices (w : Watch) : Watch :=
  { w with timing := { w.timing with heartbeat := 0 }, lastNotice := 0, log := [], events := [] }

@[simp]
theorem reader_withoutNotices (w : Watch) (channel : Channel) :
    w.withoutNotices.reader channel = w.reader channel := by
  cases channel <;> rfl

/-- A notice leaves nothing else. -/
theorem withoutNotices_notice (w : Watch) :
    (if w.isNoticeDue then w.notify else w).withoutNotices = w.withoutNotices := by
  split <;> rfl

/-- What the supervisor finds does not depend on notices. -/
theorem withoutNotices_look (w : Watch) :
    w.look.withoutNotices = w.withoutNotices.look.withoutNotices := by
  have silence : w.withoutNotices.silence = w.silence := rfl
  have verdict : w.withoutNotices.verdict = w.verdict := rfl
  have status : w.withoutNotices.status = w.status := rfl
  have asked : w.withoutNotices.interrupted = w.interrupted := rfl
  have idle : w.withoutNotices.timing.idle = w.timing.idle := rfl
  -- Both looks ask the same questions in the same order, and only the notice differs.
  unfold look
  rw [silence, verdict, status, asked, idle]
  cases w.verdict with
  | some verdict => rfl
  | none =>
    cases w.status with
    | some status => rfl
    | none =>
      dsimp only
      by_cases stopped : w.interrupted
      · rw [if_pos stopped, if_pos stopped]
        rfl
      · rw [if_neg stopped, if_neg stopped]
        by_cases late : w.timing.idle < w.silence
        · rw [if_pos late, if_pos late]
          rfl
        · rw [if_neg late, if_neg late, withoutNotices_notice, withoutNotices_notice]
          rfl

/-- No step depends on what notices read and leave, but for notices themselves. -/
theorem withoutNotices_step (w : Watch) (step : Step) :
    (w.step step).withoutNotices = (w.withoutNotices.step step).withoutNotices := by
  -- What is left out is read only by the look; the other steps act on the readers alike.
  cases step with
  | poll => exact w.withoutNotices_look
  | emit channel content =>
    simp only [Watch.step, emit, reader_withoutNotices]
    cases (w.reader channel).closed <;> cases channel <;> rfl
  | close channel => cases channel <;> rfl
  | take channel =>
    simp only [Watch.step, take, reader_withoutNotices]
    cases (w.reader channel).phase <;> cases (w.reader channel).next? <;> cases channel <;> rfl
  | glance channel =>
    simp only [Watch.step, glance, reader_withoutNotices]
    cases (w.reader channel).phase <;> cases channel <;> rfl
  | store channel =>
    simp only [Watch.step, store, reader_withoutNotices]
    cases (w.reader channel).phase <;> cases channel <;> rfl
  | write channel =>
    simp only [Watch.step, write, reader_withoutNotices]
    cases (w.reader channel).phase <;> cases channel <;> rfl
  | _ => rfl

/-- No run depends on what notices read and leave, but for notices themselves. -/
theorem withoutNotices_run (w : Watch) (steps : List Step) :
    (w.run steps).withoutNotices = (w.withoutNotices.run steps).withoutNotices := by
  induction steps generalizing w with
  | nil => rfl
  | cons step steps ih =>
    calc ((w.step step).run steps).withoutNotices
        = ((w.step step).withoutNotices.run steps).withoutNotices := ih _
      _ = ((w.withoutNotices.step step).withoutNotices.run steps).withoutNotices := by
        rw [w.withoutNotices_step step]
      _ = ((w.withoutNotices.step step).run steps).withoutNotices := (ih _).symm

/-- The end of a command and a request to stop are known as soon as they are there. -/
theorem scene_step (w : Watch) (step : Step) :
    (w.step step).timing = w.timing ∧ (w.step step).status = w.status.or step.ending? ∧
      (w.step step).interrupted = (w.interrupted || step.asks) := by
  -- Only the end of the command and the request to stop touch the scene.
  cases step with
  | pass duration => simp [Watch.step, Step.ending?, Step.asks]
  | emit channel content =>
    simp only [Watch.step, emit]
    split <;> simp [Step.ending?, Step.asks]
  | close channel => simp [Watch.step, Step.ending?, Step.asks]
  | finish status => simp [Watch.step, Step.ending?, Step.asks]
  | interrupt => simp [Watch.step, Step.ending?, Step.asks]
  | take channel =>
    simp only [Watch.step, take]
    split <;> simp [Step.ending?, Step.asks]
  | glance channel =>
    simp only [Watch.step, glance]
    split <;> simp [Step.ending?, Step.asks]
  | store channel =>
    simp only [Watch.step, store]
    split <;> simp [Step.ending?, Step.asks]
  | write channel =>
    simp only [Watch.step, write]
    split <;> simp [Step.ending?, Step.asks]
  | poll => simpa [Watch.step, Step.ending?, Step.asks] using w.look_scene

/-- The first end of a command counts, and a request to stop stays. -/
theorem scene_run (w : Watch) (steps : List Step) :
    (w.run steps).timing = w.timing ∧
      (w.run steps).status = w.status.or (steps.findSome? Step.ending?) ∧
      (w.run steps).interrupted = (w.interrupted || steps.any Step.asks) := by
  -- An end that is known already counts before any later one.
  induction steps generalizing w with
  | nil => simp [run]
  | cons step steps ih =>
    obtain ⟨timing, status, asked⟩ := w.scene_step step
    obtain ⟨timings, statuses, askings⟩ := ih (w.step step)
    refine ⟨timings.trans timing, statuses.trans ?_, askings.trans ?_⟩
    · rw [status, Option.or_assoc, List.findSome?_cons]
      cases step.ending? <;> simp
    · rw [asked, Bool.or_assoc, List.any_cons]

end Watch

/-- What a supervisor may find in a look, by the status of the command, a request to stop and the
exact silence. -/
structure Decides (idle : Nat) (status : Option Int) (stopped : Bool) (silence : Nat)
    (verdict : Option Verdict) : Prop where
  /-- An end of the command is told as it is, and comes before all else. -/
  exited : ∀ code, verdict = some (.exited code) ↔ status = some code
  /-- A request to stop comes before silence. -/
  interrupted : verdict = some .interrupted ↔ status = none ∧ stopped
  /-- A command is stopped for its silence only when that comes to the limit but for less than a
  millisecond. -/
  idled : verdict = some .idled → status = none ∧ stopped = false ∧ idle < silence + millisecond
  /-- A command that has been silent for longer than the limit is stopped. -/
  silent : status = none → stopped = false → idle < silence → verdict = some .idled

/-- A look decides by the exact silence up to a millisecond. -/
theorem Tracks.decides {r : Readings} (tracks : Tracks w r) (open? : w.verdict = none) :
    Decides w.timing.idle w.status w.interrupted (w.clock - r.latest) w.look.verdict := by
  obtain ⟨least, most⟩ := tracks.silence
  have found := w.verdict_look open?
  -- The three answers in their order; only the last of them depends on the silence.
  cases status : w.status with
  | some code =>
    rw [status] at found
    constructor <;> simp [found]
  | none =>
    rw [status] at found
    cases asked : w.interrupted with
    | true =>
      constructor <;> simp [found, asked]
    | false =>
      -- The stored time lags behind the exact one by less than a millisecond.
      by_cases late : w.timing.idle < w.silence
      · constructor <;> simp [found, asked, late]
        omega
      · constructor <;> simp [found, asked, late]
        omega

/-- In every order of steps the stored time never decreases; the first look that finds an end, a
request to stop or too long a silence decides, in this order and by the exact silence up to a
millisecond; and notices have no part in it. -/
theorem watch_decides_by_silence (timing : Timing) (interrupted : Bool) (steps : List Step) :
    let start : Watch := { timing, interrupted }
    let w := start.run steps
    (∀ later, w.lastOutput ≤ (w.run later).lastOutput) ∧
      (∀ verdict, w.verdict = some verdict → ∀ later, (w.run later).verdict = some verdict) ∧
      (w.verdict = none →
        (∀ step, step ≠ .poll → (w.step step).verdict = none) ∧
          Decides timing.idle (steps.findSome? Step.ending?)
            (interrupted || steps.any Step.asks) (exactSilence start steps)
            (w.step .poll).verdict) ∧
      (∀ heartbeat, (Watch.run { start with timing := { timing with heartbeat } } steps).verdict =
        w.verdict) ∧
      (∀ status, Launch.endingOf (.exited status) = ⟨status, false⟩) ∧
      Launch.endingOf .idled = ⟨124, true⟩ := by
  intro start w
  have tracks : Tracks w (Readings.run {} start steps) :=
    (tracks_start timing interrupted).run steps
  -- The first look is at a scene that is read off from the steps, and at a silence that is tracked.
  obtain ⟨intervals, status, asked⟩ := start.scene_run steps
  refine ⟨w.lastOutput_le_run, fun verdict found later => Watch.verdict_run found later,
    fun open? => ⟨fun step other => (w.verdict_step other).trans open?, ?_⟩, fun heartbeat => ?_,
    fun status => rfl, rfl⟩
  · have decides := tracks.decides open?
    rwa [intervals, status, asked] at decides
  -- Two runs that differ in the interval of notices alone are the same without notices.
  · have same := (Watch.withoutNotices_run { start with timing := { timing with heartbeat } }
      steps).trans (start.withoutNotices_run steps).symm
    have verdicts := congrArg Watch.verdict same
    exact verdicts

end DialectBench.Watching
