import DialectBench.Proofs.Disk.Lead

/-! Where a path leads in a tree without links: its moves tell. -/

namespace DialectBench

/-- The place that a step leads to without links. -/
def Step.move (place : Location) : Step → Location
  | .here => place
  | .up => place.dropLast
  | .down name => place ++ [name]

namespace Disk

/-- The place that the moves of a path lead to without links. -/
def landing (d : Disk) (p : Path) : Location :=
  p.moves.foldl Step.move (d.start p)

variable {d e : Disk} {p : Path} {place goal : Location} {steps : List Step} {budget left : Nat}

/-- Steps that stay lead nowhere else. -/
theorem foldl_filter_isMove (steps : List Step) (place : Location) :
    (steps.filter Step.isMove).foldl Step.move place = steps.foldl Step.move place := by
  induction steps generalizing place with
  | nil => rfl
  | cons step steps ih =>
    cases step with
    | here => exact ih place
    | up | down => exact ih _

/-- Without links a way leads where its steps tell. -/
theorem Goes.landing (goes : d.Goes budget place steps left goal) (linkless : d.Linkless []) :
    goal = steps.foldl Step.move place := by
  induction goes with
  | done => rfl
  | here _ _ ih => exact ih
  | up _ _ ih => exact ih
  | down _ _ _ _ ih => exact ih
  | link _ there _ _ => exact absurd there (linkless _ _)

/-- A path leads where its moves tell. -/
theorem Leads.landing_eq (leads : d.Leads p place) (linkless : d.Linkless []) :
    place = d.landing p := by
  obtain ⟨left, goes⟩ := leads.goes
  rw [goes.landing linkless, Disk.landing, Path.moves, foldl_filter_isMove]

/-- What is found at the end of a path is where its moves tell. -/
theorem landing_of_resolve {spot : Spot} (resolved : d.resolve p false = .ok spot)
    (linkless : d.Linkless []) : spot = ⟨d.landing p, d.find? (d.landing p)⟩ := by
  have named := isNamed_of_resolve resolved
  rw [resolve_eq named] at resolved
  obtain ⟨found, ⟨left, goes⟩ | ⟨outer, name, last, ⟨front, left, split, goes⟩, -⟩⟩ :=
    goes_or_ends resolved
  · have same := goes.landing linkless
    rw [← foldl_filter_isMove] at same
    rw [← Path.moves, ← Disk.landing] at same
    rw [← same, ← found]
  · have same : spot.location = d.landing p := by
      rw [last, Disk.landing, Path.moves, foldl_filter_isMove, split, List.foldl_append,
        ← goes.landing linkless]
      rfl
    rw [← same, ← found]

/-- Where a path lands is decided by the current directory. -/
theorem landing_congr (same : e.current = d.current) : e.landing p = d.landing p := by
  rw [landing, landing, start, start, same]

/-- An entry directly below a path lands directly below it. -/
theorem landing_of_moves {inner : Path} {name : String} (start : inner.isAbsolute = p.isAbsolute)
    (moves : inner.moves = p.moves ++ [.down name]) : d.landing inner = d.landing p ++ [name] := by
  rw [landing, landing, Disk.start, Disk.start, start, moves, List.foldl_append]
  rfl

end Disk

end DialectBench
