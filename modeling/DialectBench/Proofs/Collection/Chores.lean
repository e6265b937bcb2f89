import DialectBench.Proofs.Collection.Progress
import DialectBench.Proofs.Collection.Prune

/-! Collections that are made and removed one after the other. -/

namespace DialectBench

open Disk Action

/-- A call that makes a collection or removes one. -/
inductive Chore where
  /-- Collecting what is asked for. -/
  | collect (request : CollectionOrder)
  /-- Removing the collection in a directory. -/
  | prune (directory : Path)
  deriving DecidableEq, Repr

namespace Chore

/-- The directory of the collection. -/
def directory : Chore → Path
  | collect request => Collection.directoryOf request
  | prune directory => directory

/-- Does a chore; whatever comes of it, others can be done. -/
def perform : Chore → Action Unit
  | collect request => do
    let _ ← Action.attempt (Collection.collect request)
    return ()
  | prune directory => do
    let _ ← Action.attempt (Cleanup.dropCollection directory)
    return ()

/-- Does chores in turn. -/
def performAll : List Chore → Action Unit
  | [] => return ()
  | chore :: chores => do
    chore.perform
    performAll chores

end Chore

/-- A chore with the session in which it was begun. -/
structure Stint where
  /-- What is done. -/
  chore : Chore
  /-- The session before. -/
  session : Session

namespace Stint

/-- The place of the directory of the collection. -/
def place (stint : Stint) : Location :=
  stint.session.scene.disk.landing stint.chore.directory

/-- The place of the workspace of a request. -/
def home (stint : Stint) (request : CollectionOrder) : Location :=
  stint.session.scene.disk.landing request.root

/-- A directory was made for a collection. -/
def Creates (stint : Stint) (request : CollectionOrder) : Prop :=
  stint.chore = .collect request ∧
    (Collection.makeDirectory (Collection.directoryOf request)).outcome stint.session = .ok ()

end Stint

/-- The chores with the sessions in which they are begun. -/
def stints (s : Session) : List Chore → List Stint
  | [] => []
  | chore :: chores => ⟨chore, s⟩ :: stints (chore.perform.after s) chores

/-- Neither of two places lies in the other one. -/
def Aloof (a b : Location) : Prop := ¬ a <+: b ∧ ¬ b <+: a

instance (a b : Location) : Decidable (Aloof a b) :=
  inferInstanceAs (Decidable (¬ a <+: b ∧ ¬ b <+: a))

/-- A place that lies in none of two lies in nothing below the other one. -/
theorem Aloof.outside {a b : Location} (aloof : Aloof a b) (names : List String) :
    ¬ a <+: b ++ names := by
  intro inside
  rcases List.prefix_or_prefix_of_prefix inside (List.prefix_append b names) with above | below
  · exact aloof.1 above
  · exact aloof.2 below

/-- Of two places that lie in none of each other the order does not matter. -/
theorem Aloof.symm {a b : Location} (aloof : Aloof a b) : Aloof b a := ⟨aloof.2, aloof.1⟩

/-- A tree without links in which work can go on. -/
structure Disk.Steady (d e : Disk) : Prop where
  /-- The entries fit together. -/
  sound : e.Sound
  /-- There are no links. -/
  linkless : e.Linkless []
  /-- The current directory is the same. -/
  current : e.current = d.current

/-- What is left of a tree in which work can go on is such a tree. -/
theorem Disk.Steady.thin {d e f : Disk} {lost : Location → Prop} (steady : d.Steady e)
    (thins : e.Thins lost f) (sound : f.Sound) : d.Steady f :=
  ⟨sound, fun names target seen => steady.linkless names target (thins.within _ _ seen),
    thins.current.trans steady.current⟩

namespace Collection

variable {request : CollectionOrder} {s : Session} {home place : Location} {made : List Location}

/-- Everything in a tree lies below the root. -/
theorem linkless_below {d : Disk} (linkless : d.Linkless []) (place : Location) :
    d.Linkless place := fun names target => linkless (place ++ names) target

/-- The directory that is made for a collection is where the moves of its path lead. -/
theorem Established.landing_eq (paves : (prepareParent (directoryOf request)).Paves
      (directoryOf request) s made)
    (established : Established (directoryOf request) s made place)
    (linkless : s.scene.disk.Linkless []) :
    place = s.scene.disk.landing (directoryOf request) := by
  have makes := established.makes paves
  rw [established.founded.leads.landing_eq (makes.linkless linkless)]
  exact landing_congr makes.current_eq

end Collection

namespace Stint

/-- What a chore has done to the files at some moment of it. -/
def Moment (stint : Stint) (e : Disk) : Prop :=
  match stint.chore with
  | .collect request =>
    (stint.Creates request ∧ stint.session.scene.disk.view stint.place = none ∧
      Collection.Underway request stint.session (stint.home request) stint.place e) ∨
    (¬ stint.Creates request ∧
      ∀ other, e.content? other = stint.session.scene.disk.content? other)
  | .prune _ => Collection.Unsealing stint.session.scene.disk stint.place e

/-- The directory of a collection and the workspace lie in none of each other, and a directory that is
removed is not the root. -/
def Clear (stint : Stint) : Prop :=
  match stint.chore with
  | .collect request => Aloof stint.place (stint.home request)
  | .prune _ => stint.place ≠ []

open Collection

variable {stint : Stint}

/-- Removing a collection is quiet. -/
theorem quiet_dropCollection (directory : Path) : (Cleanup.dropCollection directory).Quiet :=
  ((quiet_look _).bind fun _ => (quiet_allowed _ _).bind fun _ => .perform _).bind fun _ =>
    (quiet_removeIfPresent directory).bind fun _ => .pure _

end Stint

end DialectBench
