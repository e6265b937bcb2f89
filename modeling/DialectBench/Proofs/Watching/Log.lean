import DialectBench.Proofs.Disk.Sound
import DialectBench.Proofs.Text.Line
import DialectBench.Proofs.Watching.Silence

/-! What the log of a watched command holds: the lines of both streams and the notices, whatever the
order in which readers and supervisor come to their steps. -/

namespace DialectBench

namespace Watching

variable {w : Watch} {channel : Channel} {emitted : Bytes}

/-- The line of a stream that an entry of the log holds. -/
def LogEntry.lineOf? (channel : Channel) : LogEntry → Option Bytes
  | line other content => if other = channel then some content else none
  | notice _ => none

/-- The notice that an entry of the log holds. -/
def LogEntry.notice? : LogEntry → Option Bytes
  | line _ _ => none
  | notice content => some content

/-- What a command writes to a stream in a step. -/
def Step.contentOn (channel : Channel) : Step → Bytes
  | .emit other content => if other = channel then content else []
  | _ => []

/-- What a command writes to a stream before that is closed. -/
def written (channel : Channel) (steps : List Step) : Bytes :=
  (steps.takeWhile (· != .close channel)).flatMap (Step.contentOn channel)

/-- The line that a reader has taken and not written. -/
def Phase.held : Phase → List Bytes
  | idle => []
  | taken line => [line]
  | timed line _ => [line]
  | noted line => [line]

namespace Watch

/-- The lines of a stream in the log, the oldest first. -/
def linesOf (w : Watch) (channel : Channel) : List Bytes :=
  w.log.reverse.filterMap (LogEntry.lineOf? channel)

/-- The notices in the log, the oldest first. -/
def notices (w : Watch) : List Bytes :=
  w.log.reverse.filterMap LogEntry.notice?

/-- The lines that a reader has taken, the oldest first. -/
def got (w : Watch) (channel : Channel) : List Bytes :=
  w.linesOf channel ++ (w.reader channel).phase.held

/-- The notice of the present silence. -/
def noticeNow (w : Watch) : Bytes :=
  Text.encode (noticeText w.silence w.timing.idle)

@[simp]
theorem log_setReader (w : Watch) (channel : Channel) (reader : Reader) :
    (w.setReader channel reader).log = w.log := by
  cases channel <;> rfl

@[simp]
theorem lastNotice_setReader (w : Watch) (channel : Channel) (reader : Reader) :
    (w.setReader channel reader).lastNotice = w.lastNotice := by
  cases channel <;> rfl

/-! ### The steps that touch the log -/

/-- A look leaves the log and the time of the last notice, or it puts a notice into the log, which
only a silence within the limits and a while behind the last notice lets it do. -/
theorem look_log (w : Watch) :
    (w.look.log = w.log ∧ w.look.lastNotice = w.lastNotice) ∨
      w.look.log = .notice w.noticeNow :: w.log ∧ w.look.lastNotice = w.clock ∧
        w.timing.heartbeat ≤ w.silence ∧ w.silence ≤ w.timing.idle ∧
        w.timing.heartbeat ≤ w.clock - w.lastNotice := by
  -- The supervisor writes only in the last of its cases, behind all the others.
  unfold look
  split
  case h_1 => exact .inl ⟨rfl, rfl⟩
  case h_2 => exact .inl ⟨rfl, rfl⟩
  case h_3 =>
    by_cases stopped : w.interrupted
    · rw [if_pos stopped]
      exact .inl ⟨rfl, rfl⟩
    · rw [if_neg stopped]
      by_cases late : w.timing.idle < w.silence
      · rw [if_pos late]
        exact .inl ⟨rfl, rfl⟩
      · rw [if_neg late]
        by_cases due : w.isNoticeDue = true
        · rw [if_pos due]
          simp only [isNoticeDue, Bool.and_eq_true, decide_eq_true_eq] at due
          exact .inr ⟨rfl, rfl, due.1, Nat.not_lt.mp late, due.2⟩
        · rw [if_neg due]
          exact .inl ⟨rfl, rfl⟩

/-- A reader that writes its line puts it into the log. -/
theorem write_noted {line : Bytes} (phase : (w.reader channel).phase = .noted line) :
    (w.write channel).log = .line channel line :: w.log ∧
      (w.write channel).lastNotice = w.lastNotice ∧
      ∀ other, (w.write channel).reader other =
        if other = channel then { w.reader channel with phase := .idle } else w.reader other := by
  refine ⟨by simp only [write, phase], by simp only [write, phase, lastNotice_setReader],
    fun other => ?_⟩
  simp only [write, phase]
  cases other <;> cases channel <;> rfl

/-- A reader without a line to write leaves everything. -/
theorem write_of_not_noted (phase : ∀ line, (w.reader channel).phase ≠ .noted line) :
    w.write channel = w := by
  simp only [write]

end Watch

/-! ### The lines of a stream -/

/-- A sequence is empty or ends with a line. -/
def EndsLine (content : Bytes) : Prop :=
  content = [] ∨ ∃ front, content = front ++ [lineEnd]

/-- All that was written to a stream is in the lines that its reader has taken, which are cut as the
stream is, or is still to be taken. -/
structure Whole (w : Watch) (channel : Channel) (emitted : Bytes) : Prop where
  /-- Nothing is lost or repeated. -/
  joined : emitted = (w.got channel).flatten ++ (w.reader channel).pending
  /-- No line is split, and no two are joined. -/
  cut : w.got channel = Text.cutAfter lineEnd (w.got channel).flatten
  /-- A line without an end is the last one of a closed stream. -/
  ended : EndsLine (w.got channel).flatten ∨
    (w.reader channel).closed = true ∧ (w.reader channel).pending = []

namespace Whole

/-- A watch starts with nothing written and nothing taken. -/
theorem start (timing : Timing) (interrupted : Bool) (channel : Channel) :
    Whole { timing, interrupted } channel [] := by
  cases channel <;> exact ⟨rfl, rfl, .inl (.inl rfl)⟩

/-- What a reader has taken and what is to be taken decide alone. -/
theorem congr {v : Watch} (whole : Whole w channel emitted) (got : v.got channel = w.got channel)
    (pending : (v.reader channel).pending = (w.reader channel).pending)
    (closed : (v.reader channel).closed = (w.reader channel).closed) : Whole v channel emitted := by
  constructor
  · rw [got, pending]
    exact whole.joined
  · rw [got]
    exact whole.cut
  · rw [got, pending, closed]
    exact whole.ended

/-- A line that follows whole lines is cut off as it is taken. -/
theorem take {v : Watch} {line rest : Bytes} (whole : Whole w channel emitted)
    (next : (w.reader channel).next? = some (line, rest))
    (got : v.got channel = w.got channel ++ [line])
    (pending : (v.reader channel).pending = rest)
    (closed : (v.reader channel).closed = (w.reader channel).closed) : Whole v channel emitted := by
  have flat : (v.got channel).flatten = (w.got channel).flatten ++ line := by simp [got]
  -- There is something to be taken, so all that was taken before ends with a line.
  have some : (w.reader channel).pending ≠ [] := by
    intro none
    simp [Reader.next?, none, Text.cutOnce] at next
  have before : EndsLine (w.got channel).flatten :=
    whole.ended.resolve_right fun ended => some ended.2
  -- Behind whole lines the new one is a piece of its own.
  have behind : ∀ ys, Text.cutAfter lineEnd ((w.got channel).flatten ++ ys) =
      w.got channel ++ Text.cutAfter lineEnd ys := by
    intro ys
    rcases before with none | ⟨front, marked⟩
    · have nothing : w.got channel = [] := by
        rw [whole.cut, none]
        rfl
      rw [nothing]
      rfl
    · have again := whole.cut
      rw [marked] at again
      rw [marked, List.append_assoc, again]
      exact Text.cutAfter_append front ys
  unfold Reader.next? at next
  cases cut : Text.cutOnce lineEnd (w.reader channel).pending with
  | some parts =>
    obtain ⟨front, back⟩ := parts
    rw [cut] at next
    obtain ⟨rfl, rfl⟩ := Prod.mk.inj (Option.some.inj next)
    refine ⟨?_, ?_, .inl (.inr ⟨(w.got channel).flatten ++ front, ?_⟩)⟩
    · rw [flat, pending, whole.joined, Text.eq_append_of_cutOnce cut]
      simp
    · rw [flat, behind, Text.cutAfter_of_notMem_append (Text.notMem_of_cutOnce cut), got]
    · rw [flat, List.append_assoc]
  | none =>
    rw [cut] at next
    -- Without an end the line is all that is left, and nobody can write to the stream any more.
    dsimp only at next
    split at next
    next last =>
      obtain ⟨rfl, rfl⟩ := Prod.mk.inj (Option.some.inj next)
      refine ⟨?_, ?_, .inr ⟨?_, pending⟩⟩
      · rw [flat, pending, whole.joined, List.append_nil]
      · rw [flat, behind, Text.cutAfter_of_notMem (Text.notMem_of_cutOnce_eq_none cut) some, got]
      · rw [closed]
        exact (Bool.and_eq_true_iff.mp last).1
    next => cases next

end Whole

namespace Watch

@[simp]
theorem linesOf_setReader (w : Watch) (channel other : Channel) (reader : Reader) :
    (w.setReader other reader).linesOf channel = w.linesOf channel := by
  rw [linesOf, log_setReader, linesOf]

/-- Another reader of a stream has taken what it holds. -/
theorem got_setReader (w : Watch) (channel other : Channel) (reader : Reader) :
    (w.setReader other reader).got channel =
      if channel = other then w.linesOf channel ++ reader.phase.held else w.got channel := by
  rw [got, linesOf_setReader, reader_setReader]
  split <;> rfl

/-- A look leaves what the readers have taken. -/
theorem got_look (w : Watch) (channel : Channel) : w.look.got channel = w.got channel := by
  have lines : w.look.linesOf channel = w.linesOf channel := by
    rcases w.look_log with ⟨same, -⟩ | ⟨noted, -⟩
    · rw [linesOf, same, linesOf]
    · simp [linesOf, noted, LogEntry.lineOf?]
  rw [got, lines, w.look_keeps.2.2, got]

end Watch

namespace Whole

/-- A reader that goes on with the line that it has keeps what it has taken. -/
theorem of_phase {other : Channel} {phase : Phase} (whole : Whole w channel emitted)
    (same : phase.held = (w.reader other).phase.held) :
    Whole (w.setReader other { w.reader other with phase }) channel emitted := by
  by_cases here : channel = other
  · subst here
    refine whole.congr ?_ (by simp) (by simp)
    rw [Watch.got_setReader, if_pos rfl, same, Watch.got]
  · exact whole.congr (by simp [Watch.got_setReader, here]) (by simp [here]) (by simp [here])

/-- A step in which the command writes nothing keeps all whole. -/
theorem step_of_still {step : Step} (whole : Whole w channel emitted)
    (still : ∀ other content, step ≠ .emit other content) : Whole (w.step step) channel emitted := by
  -- The command is silent in these steps, so what it has written stays, and each of them hands it on
  -- whole.
  cases step with
  | emit other content => exact absurd rfl (still other content)
  | pass duration => exact whole.congr rfl rfl rfl
  | finish status => exact whole.congr rfl rfl rfl
  | interrupt => exact whole.congr rfl rfl rfl
  | poll =>
    have reader := w.look_keeps.2.2 channel
    exact whole.congr (w.got_look channel) (by rw [Watch.step, reader]) (by rw [Watch.step, reader])
  | close other =>
    by_cases here : channel = other
    -- Closing ends what can come, and leaves what was taken and what is waiting.
    · subst here
      have got : (w.step (.close channel)).got channel = w.got channel := by
        rw [Watch.step, Watch.got_setReader, if_pos rfl, Watch.got]
      refine ⟨?_, by rw [got]; exact whole.cut, ?_⟩ <;> rw [got]
      · simpa [Watch.step] using whole.joined
      · exact whole.ended.imp_right fun ended => by simpa [Watch.step] using ended.2
    · exact whole.congr (by simp [Watch.step, Watch.got_setReader, here]) (by simp [Watch.step, here])
        (by simp [Watch.step, here])
  | take other =>
    simp only [Watch.step, Watch.take]
    split
    next line rest phase next =>
      -- What the reader takes is what it holds from now on; the other reader is not touched.
      by_cases here : channel = other
      · subst here
        refine whole.take next ?_ (by simp) (by simp)
        rw [Watch.got_setReader, if_pos rfl, Watch.got, phase]
        simp [Phase.held]
      · exact whole.congr (by simp [Watch.got_setReader, here]) (by simp [here]) (by simp [here])
    next => exact whole
  | glance other =>
    simp only [Watch.step, Watch.glance]
    split
    next line phase => exact whole.of_phase (by rw [phase]; rfl)
    next => exact whole
  | store other =>
    simp only [Watch.step, Watch.store]
    split
    next line reading phase =>
      have noted : Whole (w.setReader other { w.reader other with phase := .noted line }) channel
          emitted := whole.of_phase (by rw [phase]; rfl)
      -- The stored time has no part in what was taken.
      exact noted.congr (by cases channel <;> rfl) (by cases channel <;> rfl)
        (by cases channel <;> rfl)
    next => exact whole
  | write other =>
    rw [Watch.step]
    by_cases noted : ∃ line, (w.reader other).phase = .noted line
    · obtain ⟨line, phase⟩ := noted
      obtain ⟨log, -, reader⟩ := Watch.write_noted phase
      by_cases here : channel = other
      · subst here
        -- The line goes from the hands of the reader to the end of the log.
        refine whole.congr ?_ (by simp [reader]) (by simp [reader])
        simp [Watch.got, Watch.linesOf, log, reader, phase, LogEntry.lineOf?, Phase.held]
      · refine whole.congr ?_ (by simp [reader, here]) (by simp [reader, here])
        simp [Watch.got, Watch.linesOf, log, reader, here, Ne.symm here, LogEntry.lineOf?]
    · rw [Watch.write_of_not_noted fun line phase => noted ⟨line, phase⟩]
      exact whole

/-- What the command writes to an open stream is to be taken. -/
theorem step_emit (whole : Whole w channel emitted) (other : Channel) (content : Bytes) :
    Whole (w.step (.emit other content)) channel
      (emitted ++ if (w.reader channel).closed then [] else
        Step.contentOn channel (.emit other content)) := by
  simp only [Watch.step, Watch.emit]
  -- Only the stream that is written to gets more, and a closed one does not.
  by_cases here : other = channel
  · subst here
    cases closed : (w.reader other).closed with
    | true => simpa using whole
    | false =>
      have ended := whole.ended.resolve_right fun ended => by simp [closed] at ended
      rw [if_neg Bool.false_ne_true, if_neg Bool.false_ne_true]
      -- What the reader has taken is not touched.
      refine ⟨?_, ?_, .inl ?_⟩ <;> rw [Watch.got_setReader, if_pos rfl, ← Watch.got]
      · simp [Step.contentOn, whole.joined]
      · exact whole.cut
      · exact ended
  · have nothing : Step.contentOn channel (.emit other content) = [] := if_neg here
    rw [nothing, ite_self, List.append_nil]
    split
    · exact whole
    · exact whole.congr (by simp [Watch.got_setReader, Ne.symm here]) (by simp [Ne.symm here])
        (by simp [Ne.symm here])

/-- Every step keeps all whole, with what the command writes in it. -/
theorem step (whole : Whole w channel emitted) (step : Step) :
    Whole (w.step step) channel
      (emitted ++ if (w.reader channel).closed then [] else step.contentOn channel) := by
  -- A step writes to a stream, or it is one of the silent ones.
  by_cases writes : ∃ other content, step = .emit other content
  · obtain ⟨other, content, rfl⟩ := writes
    exact whole.step_emit other content
  · have nothing : step.contentOn channel = [] := by
      cases step with
      | emit other content => exact absurd ⟨other, content, rfl⟩ writes
      | _ => rfl
    rw [nothing, ite_self, List.append_nil]
    exact whole.step_of_still fun other content same => writes ⟨other, content, same⟩

end Whole

/-- A stream is closed by the step that closes it, and stays closed. -/
theorem Watch.closed_step (w : Watch) (channel : Channel) (step : Step) :
    ((w.step step).reader channel).closed =
      ((w.reader channel).closed || step == .close channel) := by
  -- Only the closing of this very stream changes its mark.
  cases step with
  | poll => simp [Watch.step, w.look_keeps.2.2]
  | emit other content =>
    simp only [Watch.step, emit]
    split
    · simp
    · by_cases here : channel = other <;> simp [here]
  | close other =>
    by_cases here : channel = other
    · simp [Watch.step, here]
    · simp [Watch.step, here, Ne.symm here]
  | take other =>
    simp only [Watch.step, take]
    split
    · by_cases here : channel = other <;> simp [here]
    · simp
  | glance other =>
    simp only [Watch.step, glance]
    split
    · by_cases here : channel = other <;> simp [here]
    · simp
  | store other =>
    simp only [Watch.step, store]
    split
    · cases channel <;> cases other <;> simp [setReader, Watch.reader]
    · simp
  | write other =>
    by_cases noted : ∃ line, (w.reader other).phase = .noted line
    · obtain ⟨line, phase⟩ := noted
      obtain ⟨-, -, reader⟩ := write_noted phase
      by_cases here : channel = other <;> simp [Watch.step, reader, here]
    · simp [Watch.step, write_of_not_noted fun line phase => noted ⟨line, phase⟩]
  | _ => simp [Watch.step, Watch.reader]

/-- A whole run keeps all whole, with what the command writes to a stream that is still open. -/
theorem Whole.run (whole : Whole w channel emitted) (steps : List Step) :
    Whole (w.run steps) channel
      (emitted ++ if (w.reader channel).closed then [] else written channel steps) := by
  -- What is written goes to the waiting part first, so it is added from step to step.
  induction steps generalizing w emitted with
  | nil => simpa [written, Watch.run] using whole
  | cons step steps ih =>
    have rest := ih (whole.step step)
    rw [List.append_assoc] at rest
    -- What is written in the first step and behind it is what is written up to the closing.
    have same : ((if (w.reader channel).closed then [] else step.contentOn channel) ++
        if ((w.step step).reader channel).closed then [] else written channel steps) =
        if (w.reader channel).closed then [] else written channel (step :: steps) := by
      rw [w.closed_step]
      cases closed : (w.reader channel).closed with
      | true => simp
      | false =>
        by_cases closes : step = .close channel
        · simp [closes, written, Step.contentOn]
        · simp [closes, written]
    rwa [same] at rest

/-! ### The notices -/

namespace Watch

end Watch

end Watching

end DialectBench
