import DialectBench.Event

/-! How long a watched command may be silent, and how often its silence is noted. -/

namespace DialectBench.Watching

/-- A second in nanoseconds. -/
def second : Nat := 1000000000

/-- A millisecond in nanoseconds. -/
def millisecond : Nat := 1000000

/-- The intervals of a watch in nanoseconds, and whether the output is shown as well. -/
structure Timing where
  /-- The longest silence. -/
  idle : Nat
  /-- The silence after which a notice is written, and the time between two notices. -/
  heartbeat : Nat
  /-- The time between two looks at the command. -/
  poll : Nat
  /-- The time that the streams may stay open after the command. -/
  grace : Nat
  /-- The output is shown as well. -/
  echo : Bool
  deriving DecidableEq, Repr

/-- The interval between notices: what is asked for, if it is positive and shorter than the longest
silence, and else half of the longest silence, kept between 10 and 60 seconds if that is shorter. -/
def heartbeatFor (idle : Nat) (requested : Option Nat) : Nat :=
  let usual := max (10 * second) (min (60 * second) (idle / 2))
  let fallback := if usual < idle then usual else idle / 2
  match requested with
  | some interval => if 0 < interval && interval < idle then interval else fallback
  | none => fallback

/-- A number of seconds without its sign. -/
def secondsOf (count : Int) : Nat := count.toNat * second

/-- The intervals for a number of seconds; what is not positive counts as one second. -/
def Timing.ofSeconds (idle : Int) (heartbeat : Option Int) : Timing :=
  let longest := max second (if idle ≤ 0 then second else secondsOf idle)
  let requested := (heartbeat.filter fun count => 0 < count).map secondsOf
  { idle := longest, heartbeat := heartbeatFor longest requested, poll := second,
    grace := 5 * second, echo := true }

/-- What is told about a number of seconds that cannot be used. -/
def warningsFor (idle : Int) : List Event :=
  if idle ≤ 0 then [.warning "idle timeout must be positive; using 1s"] else []

/-- The exit code of a command that was silent for too long. -/
def idleCode : Int := 124

/-- The exit code of a command that the operator stopped. -/
def interruptedCode : Int := 130

end DialectBench.Watching
