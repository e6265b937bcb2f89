import DialectBench.Proofs.Disk.Lead

/-! What a path is read by depends on the places alone that are looked at on its way. -/

namespace DialectBench

/-- A spot without the time of a directory. -/
def Spot.untimed (spot : Spot) : Spot :=
  { spot with node := spot.node.map Node.untimed }

namespace Disk

/-- The places that are looked at when steps are followed from a place; from a link it goes on as told. -/
def trailWith (d : Disk) (onward : Location → List Step → List Location) (place : Location) :
    List Step → List Location
  | [] => [place]
  | step :: rest =>
    match d.view place with
    | some (.directory _) =>
      match step with
      | .here => place :: d.trailWith onward place rest
      | .up => place :: d.trailWith onward place.dropLast rest
      | .down name =>
        match d.view (place ++ [name]) with
        | some (.link target) =>
          place :: (place ++ [name]) ::
            onward (if target.isAbsolute then [] else place) (target.steps ++ rest)
        | none => [place, place ++ [name]]
        | some _ => place :: d.trailWith onward (place ++ [name]) rest
    | _ => [place]

/-- The places that are looked at when steps are followed from a place, with some links allowed. -/
def trailFrom (d : Disk) : Nat → Location → List Step → List Location
  | 0 => d.trailWith fun _ _ => []
  | budget + 1 => d.trailWith (d.trailFrom budget)

/-- The places that are looked at when a path is followed to its end. -/
def trail (d : Disk) (p : Path) : List Location :=
  d.trailFrom linkLimit (d.start p) p.steps

variable {d e : Disk} {p : Path} {place goal : Location} {steps rest : List Step} {step : Step}
  {budget : Nat} {spot : Spot}

/-- Without a step only the place itself is looked at. -/
theorem trailFrom_nil (d : Disk) (budget : Nat) (place : Location) :
    d.trailFrom budget place [] = [place] := by
  cases budget <;> rfl

/-- A step looks at the place where it starts, and one down at the entry that it leads to. -/
theorem trailFrom_cons (d : Disk) (budget : Nat) (place : Location) (step : Step)
    (rest : List Step) :
    d.trailFrom budget place (step :: rest) =
      match d.view place with
      | some (.directory _) =>
        match step with
        | .here => place :: d.trailFrom budget place rest
        | .up => place :: d.trailFrom budget place.dropLast rest
        | .down name =>
          match d.view (place ++ [name]) with
          | some (.link target) =>
            place :: (place ++ [name]) ::
              match budget with
              | 0 => []
              | budget + 1 =>
                d.trailFrom budget (if target.isAbsolute then [] else place) (target.steps ++ rest)
          | none => [place, place ++ [name]]
          | some _ => place :: d.trailFrom budget (place ++ [name]) rest
      | _ => [place] := by
  cases budget <;> rfl

/-- The place where a way starts is looked at. -/
theorem mem_trailFrom_self (d : Disk) (budget : Nat) (place : Location) (steps : List Step) :
    place ∈ d.trailFrom budget place steps := by
  cases steps with
  | nil => simp [trailFrom_nil]
  | cons step rest =>
    rw [trailFrom_cons]
    -- Whatever is seen, the place comes first.
    split
    · split
      · simp
      · simp
      · split <;> simp
    · simp

/-- When links are followed to the end, what is seen decides the way. -/
theorem follow_cons_view (d : Disk) (budget : Nat) (place : Location) (step : Step)
    (rest : List Step) :
    d.follow true budget place (step :: rest) =
      match d.view place with
      | some (.directory _) =>
        match step with
        | .here => d.follow true budget place rest
        | .up => d.follow true budget place.dropLast rest
        | .down name =>
          match d.view (place ++ [name]) with
          | some (.link target) =>
            match budget with
            | 0 => .error .tooManyLinks
            | budget + 1 =>
              d.follow true budget (if target.isAbsolute then [] else place) (target.steps ++ rest)
          | none => if rest = [] then .ok ⟨place ++ [name], none⟩ else .error .notFound
          | some _ => d.follow true budget (place ++ [name]) rest
      | some _ => .error .notADirectory
      | none => .error .notFound := by
  rw [follow_cons]
  unfold view
  -- The time of a directory is all that is not seen.
  cases d.find? place with
  | none => rfl
  | some node =>
    cases node with
    | file | link => rfl
    | directory =>
      cases step with
      | here | up => rfl
      | down name =>
        dsimp only [Option.map_some, Node.untimed]
        cases d.find? (place ++ [name]) with
        | none => rfl
        | some node =>
          cases node with
          | file | directory => rfl
          | link target =>
            dsimp only
            rw [if_neg (by simp)]
            cases budget <;> rfl

/-- Steps lead to the same spot, past the same places, in a tree in which the same is seen all along the
way. -/
theorem way_congr (same : ∀ inner ∈ d.trailFrom budget place steps, e.view inner = d.view inner) :
    (e.follow true budget place steps).map Spot.untimed =
        (d.follow true budget place steps).map Spot.untimed ∧
      e.trailFrom budget place steps = d.trailFrom budget place steps := by
  -- Behind a link fewer of them are left, and behind any other step fewer steps.
  induction budget using Nat.strongRecOn generalizing place steps with
  | ind budget fewer =>
    induction steps generalizing place with
    | nil =>
      rw [follow_nil, follow_nil, trailFrom_nil, trailFrom_nil]
      exact ⟨congrArg Except.ok (congrArg (Spot.mk place) (same place (by simp [trailFrom_nil]))), rfl⟩
    | cons step rest ih =>
      have own := same place (mem_trailFrom_self d budget place _)
      rw [trailFrom_cons] at same
      rw [follow_cons_view, follow_cons_view, trailFrom_cons, trailFrom_cons, own]
      split at same
      next time stands =>
        rw [stands]
        split at same
        · exact (ih fun inner member => same inner (List.mem_cons_of_mem _ member)).imp_right
            (congrArg (place :: ·))
        · exact (ih fun inner member => same inner (List.mem_cons_of_mem _ member)).imp_right
            (congrArg (place :: ·))
        next name =>
          -- What the step leads to is looked at, too.
          have next : e.view (place ++ [name]) = d.view (place ++ [name]) := by
            refine same _ ?_
            split
            · simp
            · simp
            · exact List.mem_cons_of_mem _ (mem_trailFrom_self d budget _ rest)
          dsimp only
          rw [next]
          split at same
          next target there =>
            cases budget with
            | zero => exact ⟨rfl, rfl⟩
            | succ budget =>
              exact (fewer budget (Nat.lt_succ_self _) fun inner member =>
                same inner (List.mem_cons_of_mem _ (List.mem_cons_of_mem _ member))).imp_right
                  (congrArg fun onward => place :: (place ++ [name]) :: onward)
          next free => exact ⟨rfl, rfl⟩
          next node solid there =>
            cases node with
            | link target => exact absurd rfl (solid target)
            | file | directory =>
              exact (ih fun inner member => same inner (List.mem_cons_of_mem _ member)).imp_right
                (congrArg (place :: ·))
      next other =>
        split
        next time stands => exact absurd stands (other time)
        · exact ⟨rfl, rfl⟩
        · exact ⟨rfl, rfl⟩

/-- On the way to an entry something is everywhere. -/
theorem view_ne_none_of_follow {node : Node}
    (followed : d.follow true budget place steps = .ok ⟨goal, some node⟩) :
    ∀ inner ∈ d.trailFrom budget place steps, d.view inner ≠ none := by
  induction budget using Nat.strongRecOn generalizing place steps with
  | ind budget fewer =>
    induction steps generalizing place with
    | nil =>
      rw [follow_nil] at followed
      obtain ⟨rfl, found⟩ := Spot.mk.inj (Except.ok.inj followed)
      rw [trailFrom_nil, List.forall_mem_singleton, ne_eq, view_eq_none, found]
      simp
    | cons step rest ih =>
      obtain ⟨stands, strides⟩ := strides_of_follow followed
      have seen := view_eq_directory.mpr stands
      have own : d.view place ≠ none := by simp [seen]
      rw [trailFrom_cons, seen]
      cases strides with
      | here onward => exact List.forall_mem_cons.mpr ⟨own, ih onward⟩
      | up onward => exact List.forall_mem_cons.mpr ⟨own, ih onward⟩
      | halt _ kept => cases kept
      | @down _ _ name entry _ _ there solid onward =>
        obtain ⟨next, firm⟩ := view_of_find? there solid
        dsimp only
        rw [next]
        cases entry with
        | link target => exact absurd rfl (solid target)
        | file | directory => exact List.forall_mem_cons.mpr ⟨own, ih onward⟩
      | @link budget _ name target _ _ there _ onward =>
        have next := view_eq_link.mpr there
        dsimp only
        rw [next]
        exact List.forall_mem_cons.mpr ⟨own, List.forall_mem_cons.mpr
          ⟨by simp [next], fewer budget (Nat.lt_succ_self _) onward⟩⟩

section Paths

variable (current : e.current = d.current) (same : ∀ inner ∈ d.trail p, e.view inner = d.view inner)
include current same

/-- A path leads to the same spot in a tree in which the same is seen all along its way. -/
theorem resolve_congr : (e.resolve p true).map Spot.untimed = (d.resolve p true).map Spot.untimed := by
  by_cases named : p.IsNamed
  · have start : e.start p = d.start p := by rw [start, start, current]
    rw [resolve_eq named, resolve_eq named, start]
    exact (way_congr same).1
  · have empty : p.text.isEmpty = true := by
      rw [String.isEmpty_iff, ← String.ofList_toList (s := p.text), not_not.mp named]
    simp [resolve, empty]

/-- A path passes the same places in a tree in which the same is seen at them. -/
theorem trail_congr : e.trail p = d.trail p := by
  have start : e.start p = d.start p := by rw [start, start, current]
  rw [trail, start]
  exact (way_congr same).2

/-- A path leads to the same directory in a tree in which the same is seen all along its way. -/
theorem leads_congr (leads : d.Leads p place) : e.Leads p place := by
  have alike := resolve_congr current same
  rw [leads.resolved] at alike
  cases resolved : e.resolve p true with
  | error refusal =>
    rw [resolved] at alike
    cases alike
  | ok spot =>
    rw [resolved] at alike
    obtain ⟨goal, node⟩ := spot
    obtain ⟨rfl, nodes⟩ := Spot.mk.inj (Except.ok.inj alike)
    -- A directory is told from everything else, whatever its time.
    have seen : node.map Node.untimed = some (.directory 0) :=
      nodes.trans (view_eq_directory.mpr leads.stands)
    obtain ⟨found, rfl, untimed⟩ := Option.map_eq_some_iff.mp seen
    rw [← directory?_eq_some, directory?, entry_eq_ok.mpr resolved]
    cases found with
    | directory => rfl
    | file | link => cases untimed

/-- A file is read alike in a tree in which the same is seen all along the way to it. -/
theorem read_congr : e.read p = d.read p := by
  have alike := resolve_congr current same
  unfold read entry
  -- Times of directories are no part of what is read.
  cases one : d.resolve p true with
  | error refusal =>
    rw [one] at alike
    cases other : e.resolve p true with
    | error failure =>
      rw [other] at alike
      obtain rfl := Except.error.inj alike
      rfl
    | ok spot =>
      rw [other] at alike
      cases alike
  | ok spot =>
    rw [one] at alike
    cases other : e.resolve p true with
    | error failure =>
      rw [other] at alike
      cases alike
    | ok found =>
      rw [other] at alike
      obtain ⟨place, node⟩ := spot
      obtain ⟨goal, entry⟩ := found
      obtain ⟨rfl, nodes⟩ := Spot.mk.inj (Except.ok.inj alike)
      cases node with
      | none =>
        cases entry with
        | none => rfl
        | some entry => cases nodes
      | some node =>
        cases entry with
        | none => cases nodes
        | some entry => cases node <;> cases entry <;> simp_all [Node.untimed]

/-- A text is read alike in a tree in which the same is seen all along the way to it. -/
theorem readText_congr : e.readText p = d.readText p := by
  rw [readText, readText, read_congr current same]

end Paths

/-- On the way to a file that can be read something is everywhere. -/
theorem view_ne_none_of_read {content : Bytes} (read : d.read p = .ok content) :
    ∀ inner ∈ d.trail p, d.view inner ≠ none := by
  unfold Disk.read at read
  split at read
  next place content mode time found =>
    have resolved := entry_eq_ok.mp found
    rw [resolve_eq (isNamed_of_resolve resolved)] at resolved
    exact view_ne_none_of_follow resolved
  · cases read
  · cases read

end Disk

end DialectBench
