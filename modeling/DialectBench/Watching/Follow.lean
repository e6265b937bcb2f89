import DialectBench.Command.Execution

/-! The watch over one execution: the supervisor looks at regular times, and the readers take every
line as soon as it is there. -/

namespace DialectBench.Watching

/-- Something that happens at a time. -/
structure Happening where
  /-- When it happens. -/
  time : Nat
  /-- What happens. -/
  steps : List Step
  deriving DecidableEq, Repr

/-- The steps in which a reader deals with a line. -/
def lineSteps (channel : Channel) : List Step :=
  [.take channel, .glance channel, .store channel, .write channel]

/-- The steps in which readers deal with something that is written. -/
def emissionSteps (emission : Emission) : List Step :=
  let lines := emission.content.count lineEnd
  .emit emission.channel emission.content
    :: (List.replicate lines (lineSteps emission.channel)).flatten

/-- Something written, as it happens. -/
def Happening.ofEmission (emission : Emission) : Happening :=
  ⟨emission.time, emissionSteps emission⟩

/-- The streams are closed, and the readers deal with lines without an end. -/
def closeSteps : List Step :=
  [.close .out, .close .err] ++ lineSteps .out ++ lineSteps .err

namespace Watch

/-- A watch at a later time. -/
def upTo (w : Watch) (time : Nat) : Watch :=
  w.step (.pass (time - w.clock))

/-- A watch after something that happens. -/
def meet (w : Watch) (happening : Happening) : Watch :=
  (w.upTo happening.time).run happening.steps

/-- A watch after all that happens up to a time, and what happens later. -/
def meetUntil (w : Watch) (time : Nat) : List Happening → Watch × List Happening
  | [] => (w.upTo time, [])
  | happening :: rest =>
    if happening.time ≤ time then (w.meet happening).meetUntil time rest
    else (w.upTo time, happening :: rest)

/-- A watch after so many looks of the supervisor at most, the first one at a time; the supervisor
stops looking when it has found the end. -/
def attend : Nat → Watch → Nat → List Happening → Watch × List Happening
  | 0, w, _, happenings => (w, happenings)
  | looks + 1, w, time, happenings =>
    let (w, rest) := w.meetUntil time happenings
    let w := w.step .poll
    if w.verdict.isSome then (w, rest)
    -- Looks are never closer than a millisecond, so a bounded number of them passes the end.
    else attend looks w (time + max w.timing.poll millisecond) rest

/-- What a command has written and goes on writing when the supervisor has found the end. -/
def lateEmissions (execution : Execution) (w : Watch) : List Emission :=
  execution.emissions.filter fun emission =>
    w.clock < emission.time && emission.detached

/-- A watch in which the readers have come to the end of their streams, or have been left alone
when the time for that was over. -/
def drain (execution : Execution) (w : Watch) : Watch :=
  -- A command that was stopped holds its streams open no longer than until then.
  let gone := min w.clock execution.finish
  let closing := execution.closing gone
  let deadline := w.clock + w.timing.grace
  let late := (lateEmissions execution w).map Happening.ofEmission
  -- What is written after the deadline is read by nobody.
  let (w, _) := w.meetUntil (min (max w.clock closing) deadline) late
  if closing ≤ deadline then w.run closeSteps
  else
    { w with events :=
        .warning "output stream still open after grace period; detaching reader" :: w.events }

/-- What happens in an execution. -/
def happenings (execution : Execution) : List Happening :=
  let ending : Happening := ⟨execution.finish, [.finish execution.status]⟩
  (execution.emissions.map Happening.ofEmission ++ [ending]).mergeSort fun a b =>
    a.time ≤ b.time

/-- The watch over an execution at the time of the verdict. -/
def attended (timing : Timing) (interrupted : Bool) (execution : Execution) : Watch :=
  let start : Watch := { timing, interrupted }
  -- One look at the start, one per interval, and one that finds the end.
  let looks := execution.finish / max timing.poll millisecond + 2
  (attend looks start 0 (happenings execution)).1

/-- The watch over an execution from its start to its end. -/
def follow (timing : Timing) (interrupted : Bool) (execution : Execution) : Watch :=
  drain execution (attended timing interrupted execution)

end Watch

end DialectBench.Watching
