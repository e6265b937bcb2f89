import DialectBench.Text.Line
import DialectBench.Text.Utf8
import DialectBench.Watching.Timing

/-! A watch over a command, step by step: two readers put the lines of the command into a log, and
a supervisor looks at the command from time to time. Any order of steps is a possible run. -/

namespace DialectBench.Watching

/-- A stream of output of a command. -/
inductive Channel where
  /-- Standard output. -/
  | out
  /-- Standard error. -/
  | err
  deriving DecidableEq, Repr

/-- How far a reader has come with a line. -/
inductive Phase where
  /-- It has no line. -/
  | idle
  /-- It has taken a line. -/
  | taken (line : Bytes)
  /-- It has read the clock after taking a line. -/
  | timed (line : Bytes) (reading : Nat)
  /-- It has stored the time of a line. -/
  | noted (line : Bytes)
  deriving DecidableEq, Repr

/-- A reader and its stream. -/
structure Reader where
  /-- What the command has written and the reader has not taken. -/
  pending : Bytes := []
  /-- Nobody can write to the stream any more. -/
  closed : Bool := false
  /-- How far the reader has come. -/
  phase : Phase := .idle
  deriving DecidableEq, Repr

/-- The byte that ends a line. -/
def lineEnd : UInt8 := 10

/-- The next line of a stream and what follows it; without its end a line is complete only when the
stream is closed. -/
def Reader.next? (reader : Reader) : Option (Bytes × Bytes) :=
  match Text.cutOnce lineEnd reader.pending with
  | some (front, rest) => some (front ++ [lineEnd], rest)
  | none =>
    if reader.closed && !reader.pending.isEmpty then some (reader.pending, []) else none

/-- How a watched command ended. -/
inductive Verdict where
  /-- By itself. -/
  | exited (status : Int)
  /-- The operator stopped it. -/
  | interrupted
  /-- It was silent for too long. -/
  | idled
  deriving DecidableEq, Repr

/-- The exit code that stands for an end. -/
def Verdict.exitCode : Verdict → Int
  | exited status => status
  | interrupted => interruptedCode
  | idled => idleCode

/-- Something that was written to the log. -/
inductive LogEntry where
  /-- A line of a stream. -/
  | line (channel : Channel) (content : Bytes)
  /-- A notice of silence. -/
  | notice (content : Bytes)
  deriving DecidableEq, Repr

/-- The bytes of an entry of the log. -/
def LogEntry.content : LogEntry → Bytes
  | line _ content => content
  | notice content => content

/-- A watch; times are counted in nanoseconds from its start. -/
structure Watch where
  /-- The intervals. -/
  timing : Timing
  /-- The present time. -/
  clock : Nat := 0
  /-- The last time that a reader has stored, in milliseconds. -/
  lastOutput : Nat := 0
  /-- The time of the last notice. -/
  lastNotice : Nat := 0
  /-- The reader of standard output. -/
  out : Reader := {}
  /-- The reader of standard error. -/
  err : Reader := {}
  /-- What was written to the log, the newest first. -/
  log : List LogEntry := []
  /-- The exit status of the command, when it has ended. -/
  status : Option Int := none
  /-- The operator has asked to stop. -/
  interrupted : Bool := false
  /-- What the supervisor has found. -/
  verdict : Option Verdict := none
  /-- What the operator was told, the newest first. -/
  events : List Event := []
  deriving DecidableEq, Repr

/-- Something that happens during a watch. -/
inductive Step where
  /-- Time goes by. -/
  | pass (duration : Nat)
  /-- The command writes. -/
  | emit (channel : Channel) (content : Bytes)
  /-- A stream is closed. -/
  | close (channel : Channel)
  /-- The command ends. -/
  | finish (status : Int)
  /-- The operator asks to stop. -/
  | interrupt
  /-- A reader takes a line. -/
  | take (channel : Channel)
  /-- A reader reads the clock. -/
  | glance (channel : Channel)
  /-- A reader stores what it has read from the clock. -/
  | store (channel : Channel)
  /-- A reader writes its line to the log. -/
  | write (channel : Channel)
  /-- The supervisor looks at the command. -/
  | poll
  deriving DecidableEq, Repr

namespace Watch

/-- The reader of a stream. -/
def reader (w : Watch) : Channel → Reader
  | .out => w.out
  | .err => w.err

/-- A watch with another reader of a stream. -/
def setReader (w : Watch) (channel : Channel) (reader : Reader) : Watch :=
  match channel with
  | .out => { w with out := reader }
  | .err => { w with err := reader }

/-- The time since the last output that was stored. -/
def silence (w : Watch) : Nat :=
  w.clock - w.lastOutput * millisecond

/-- The notice of a silence. -/
def noticeText (silence idle : Nat) : String :=
  "[idle-watchdog] Waiting " ++ toString (silence / second) ++ "s without output (timeout "
    ++ toString (idle / second) ++ "s).\n"

/-- A notice is due. -/
def isNoticeDue (w : Watch) : Bool :=
  w.timing.heartbeat ≤ w.silence && w.timing.heartbeat ≤ w.clock - w.lastNotice

/-- A watch after a notice. -/
def notify (w : Watch) : Watch :=
  { w with
    log := .notice (Text.encode (noticeText w.silence w.timing.idle)) :: w.log
    lastNotice := w.clock
    events := .warning "still waiting for output" :: w.events }

/-- A watch after the supervisor has stopped a silent command. -/
def expire (w : Watch) : Watch :=
  { w with
    verdict := some .idled
    events := .error "command idle for more than the timeout; terminated" :: w.events }

/-- A watch after the supervisor has looked: an end comes before a request to stop, a request to
stop before silence, and silence before a notice. -/
def look (w : Watch) : Watch :=
  match w.verdict, w.status with
  | some _, _ => w
  | none, some status => { w with verdict := some (.exited status) }
  | none, none =>
    if w.interrupted then { w with verdict := some .interrupted }
    -- A silence of exactly the limit is not too long yet.
    else if w.timing.idle < w.silence then w.expire
    else if w.isNoticeDue then w.notify
    else w

/-- A watch after a reader has taken a line, if it has none and one is complete. -/
def take (w : Watch) (channel : Channel) : Watch :=
  let reader := w.reader channel
  match reader.phase, reader.next? with
  | .idle, some (line, rest) =>
    w.setReader channel { reader with pending := rest, phase := .taken line }
  | _, _ => w

/-- A watch after a reader with a line has read the clock in whole milliseconds. -/
def glance (w : Watch) (channel : Channel) : Watch :=
  let reader := w.reader channel
  match reader.phase with
  | .taken line =>
    w.setReader channel { reader with phase := .timed line (w.clock / millisecond) }
  | _ => w

/-- A watch after a reader has stored its time; an earlier time replaces no later one. -/
def store (w : Watch) (channel : Channel) : Watch :=
  let reader := w.reader channel
  match reader.phase with
  | .timed line reading =>
    { w.setReader channel { reader with phase := .noted line } with
      -- The other reader may have stored a later time since this one looked.
      lastOutput := max w.lastOutput reading }
  | _ => w

/-- A watch after a reader has written its line. -/
def write (w : Watch) (channel : Channel) : Watch :=
  let reader := w.reader channel
  match reader.phase with
  | .noted line =>
    { w.setReader channel { reader with phase := .idle } with
      log := .line channel line :: w.log }
  | _ => w

/-- A watch after the command has written. -/
def emit (w : Watch) (channel : Channel) (content : Bytes) : Watch :=
  let reader := w.reader channel
  if reader.closed then w
  else w.setReader channel { reader with pending := reader.pending ++ content }

/-- A watch after a step; a step that is not possible changes nothing. -/
def step (w : Watch) : Step → Watch
  | .pass duration => { w with clock := w.clock + duration }
  | .emit channel content => w.emit channel content
  | .close channel => w.setReader channel { w.reader channel with closed := true }
  | .finish status => { w with status := w.status.or (some status) }
  | .interrupt => { w with interrupted := true }
  | .take channel => w.take channel
  | .glance channel => w.glance channel
  | .store channel => w.store channel
  | .write channel => w.write channel
  | .poll => w.look

/-- A watch after several steps. -/
def run (w : Watch) (steps : List Step) : Watch :=
  steps.foldl step w

/-- What the log has got. -/
def logged (w : Watch) : Bytes :=
  w.log.reverse.flatMap LogEntry.content

/-- What is shown on standard output if the output is shown as well: the lines without notices. -/
def shown (w : Watch) : Bytes :=
  if w.timing.echo then
    w.log.reverse.flatMap fun entry =>
      match entry with
      | .line _ content => content
      | .notice _ => []
  else []

end Watch

end DialectBench.Watching
