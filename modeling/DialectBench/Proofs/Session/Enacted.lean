import DialectBench.Proofs.Session.Calls
import Mathlib.Data.List.Forall2

/-! Actions that make the calls of a script, as long as their calls do no harm. -/

namespace DialectBench.Action

variable {α β : Type} {harmless : Exchange → Prop} {alike : Call → Call → Prop}
  {before : Scene → Prop} {action : Action α} {calls more all : List Call}
  {after : Except Failure α → Scene → Prop}

/-- A value is given back that is of some kind in the world that is left. -/
def Gives (fine : α → Scene → Prop) : Except Failure α → Scene → Prop
  | .ok value, scene => fine value scene
  | .error _, _ => False

/-- In a world of some kind an action makes calls like those of a script, and what comes of it and of the
world is of some kind, as long as its calls do no harm. -/
structure Enacts (harmless : Exchange → Prop) (alike : Call → Call → Prop) (before : Scene → Prop)
    (action : Action α) (script : List Call) (after : Except Failure α → Scene → Prop) : Prop where
  /-- Calls are all that leads from the session before to the one behind. -/
  leads : ∀ s : Session, ∃ made, s.Leads made (action.after s)
  /-- Without harm the calls are those of the script. -/
  does : ∀ s : Session, before s.scene → (∀ exchange ∈ action.trace s, harmless exchange) →
    List.Forall₂ alike script ((action.trace s).map Exchange.call) ∧
      after (action.outcome s) (action.after s).scene

namespace Enacts

/-- The only call of an action is the one that leads to the session behind it. -/
theorem of_single {call : Call} (made : Session → Exchange)
    (led : ∀ s : Session, s.Leads [made s] (action.after s)) (same : ∀ s, alike call (made s).call)
    (settles : ∀ s, before s.scene → harmless (made s) →
      after (action.outcome s) (action.after s).scene) :
    Enacts harmless alike before action [call] after where
  leads s := ⟨_, led s⟩
  does s here harms := by
    rw [trace, (led s).since_eq] at harms ⊢
    exact ⟨.cons (same s) .nil, settles s here (harms _ (List.mem_singleton_self _))⟩

/-- What is done in worlds of a kind is done in those of a narrower kind. -/
theorem narrow {narrower : Scene → Prop} (enacts : Enacts harmless alike before action calls after)
    (narrows : ∀ scene, narrower scene → before scene) :
    Enacts harmless alike narrower action calls after :=
  ⟨enacts.leads, fun s here => enacts.does s (narrows _ here)⟩

/-- A value of some kind is one of a wider kind. -/
theorem widen {fine wider : α → Scene → Prop}
    (enacts : Enacts harmless alike before action calls (Gives fine))
    (widens : ∀ value scene, fine value scene → wider value scene) :
    Enacts harmless alike before action calls (Gives wider) where
  leads := enacts.leads
  does s here harms := by
    refine (enacts.does s here harms).imp_right fun reached => ?_
    cases outcome : action.outcome s with
    | ok value =>
      rw [outcome] at reached
      exact widens value _ reached
    | error failure =>
      rw [outcome] at reached
      exact reached

/-- Quiet work makes no calls. -/
theorem of_quiet (quiet : action.Quiet)
    (leaves : ∀ s : Session, before s.scene → after (action.outcome s) (action.after s).scene) :
    Enacts harmless alike before action [] after where
  leads s := ⟨[], quiet.leads s⟩
  does s here _ := by
    rw [trace, (quiet.leads s).since_eq]
    exact ⟨.nil, leaves s here⟩

/-- What never fails and leaves the world alone makes no calls. -/
theorem of_still (quiet : action.Quiet) (still : ∀ s, (action.after s).scene = s.scene)
    (passed : ∀ s, ∃ value, action.outcome s = .ok value) :
    Enacts harmless alike before action [] (Gives fun _ => before) :=
  of_quiet quiet fun s here => by
    obtain ⟨value, same⟩ := passed s
    rw [same, still s]
    exact here

/-- A value is given back. -/
theorem pure (value : α) (gives : ∀ scene, before scene → after (.ok value) scene) :
    Enacts harmless alike before (pure value) [] after :=
  of_quiet (.pure value) fun s here => gives s.scene here

/-- A command that is run is the only call. -/
theorem run {after : Except Failure Output → Scene → Prop} (runner : Runner) (command : Command)
    (same : alike (.run command) (.run command))
    (settles : ∀ outcome here there, before here →
      harmless ⟨.run command, .output outcome, here, there⟩ → after outcome there) :
    Enacts harmless alike before (run runner command) [.run command] after := by
  refine of_single (fun s => ⟨.run command, .output (runner.run s.calls command s.scene).outcome,
    s.scene, settled (runner.run s.calls command s.scene) s⟩) (fun s => ?_) (fun _ => same)
    fun s here harms => ?_
  · rw [after_run]
    exact ⟨rfl, rfl, fun asked => by simp [settled, asked], rfl⟩
  · rw [after_run, outcome_run]
    exact settles _ _ _ here harms

/-- A command that is watched is the only call. -/
theorem stream {after : Except Failure Ending → Scene → Prop} (runner : Runner) (command : Command)
    (log : Path) (timing : Watching.Timing) {call : Call}
    (same : alike call (.stream command log timing.idle))
    (settles : ∀ outcome here there, before here →
      harmless ⟨.stream command log timing.idle, .ending outcome, here, there⟩ → after outcome there) :
    Enacts harmless alike before (stream runner command log timing) [call] after := by
  refine of_single (fun s => ⟨.stream command log timing.idle,
    .ending (runner.stream s.calls command log timing s.scene).outcome, s.scene,
    settled (runner.stream s.calls command log timing s.scene) s⟩) (fun s => ?_) (fun _ => same)
    fun s here harms => ?_
  · rw [after_stream]
    exact ⟨rfl, rfl, fun asked => by simp [settled, asked], rfl⟩
  · rw [after_stream, outcome_stream]
    exact settles _ _ _ here harms

/-- Where no world of the kind is, an action only has to lead through its calls. -/
theorem unreached (leads : ∀ s : Session, ∃ made, s.Leads made (action.after s))
    (never : ∀ scene, ¬ before scene) : Enacts harmless alike before action calls after where
  leads := leads
  does s here _ := absurd here (never s.scene)

/-- After an action that succeeds the next one makes its calls. -/
theorem bind {fine : α → Scene → Prop} {next : α → Action β} {last : Except Failure β → Scene → Prop}
    (first : Enacts harmless alike before action calls (Gives fine))
    (second : ∀ value, Enacts harmless alike (fine value) (next value) more last)
    (same : calls ++ more = all) : Enacts harmless alike before (action >>= next) all last where
  leads s := by
    obtain ⟨early, led⟩ := first.leads s
    rw [after_bind]
    cases action.outcome s with
    | error failure => exact ⟨early, led⟩
    | ok value =>
      obtain ⟨late, goes⟩ := (second value).leads (action.after s)
      exact ⟨early ++ late, led.trans goes⟩
  does s here harms := by
    cases outcome : action.outcome s with
    | error failure =>
      -- Without harm there is no such failure.
      rw [trace_bind_of_error outcome] at harms
      have reached := (first.does s here harms).2
      rw [outcome] at reached
      exact reached.elim
    | ok value =>
      obtain ⟨early, led⟩ := first.leads s
      obtain ⟨late, goes⟩ := (second value).leads (action.after s)
      rw [trace_bind_of_ok outcome led goes] at harms ⊢
      obtain ⟨mine, others⟩ := List.forall_mem_append.mp harms
      obtain ⟨made, reached⟩ := first.does s here mine
      rw [outcome] at reached
      obtain ⟨also, ends⟩ := (second value).does _ reached others
      rw [after_bind_of_ok outcome, outcome_bind_of_ok outcome, List.map_append, ← same]
      exact ⟨List.rel_append made also, ends⟩

/-- What comes of an attempt is a success of its own. -/
theorem attempt (enacts : Enacts harmless alike before action calls after) :
    Enacts harmless alike before (attempt action) calls (Gives after) where
  leads s := by
    rw [after_attempt]
    exact enacts.leads s
  does s here harms := by
    rw [trace, after_attempt] at harms ⊢
    rw [outcome_attempt]
    exact enacts.does s here harms

/-- A step around an action that succeeds changes nothing. -/
theorem within {fine : α → Scene → Prop}
    (enacts : Enacts harmless alike before action calls (Gives fine)) (step : Fault) :
    Enacts harmless alike before (within step action) calls (Gives fine) where
  leads s := by
    rw [after_within]
    exact enacts.leads s
  does s here harms := by
    rw [trace, after_within] at harms ⊢
    rw [outcome_within]
    obtain ⟨made, reached⟩ := enacts.does s here harms
    refine ⟨made, ?_⟩
    -- A failure is ruled out, so there is none to be named.
    cases outcome : action.outcome s with
    | ok value => rwa [outcome] at reached
    | error failure =>
      rw [outcome] at reached
      exact reached.elim

end Enacts

end DialectBench.Action
