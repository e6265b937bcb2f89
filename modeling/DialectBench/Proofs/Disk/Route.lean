import DialectBench.Proofs.Disk.Sound

/-! Ways through a file tree, links included, and where paths lead. -/

namespace DialectBench

namespace Disk

/-- A way through a tree: from a place with some links still allowed, by steps, to a place with the
links that are left. -/
inductive Goes (d : Disk) : Nat → Location → List Step → Nat → Location → Prop where
  /-- No step is left. -/
  | done {budget : Nat} {place : Location} : Goes d budget place [] budget place
  /-- Staying in a directory. -/
  | here {budget left : Nat} {place goal : Location} {rest : List Step}
      (stands : d.isDirectoryAt place = true) (onward : Goes d budget place rest left goal) :
      Goes d budget place (.here :: rest) left goal
  /-- Going to the directory above. -/
  | up {budget left : Nat} {place goal : Location} {rest : List Step}
      (stands : d.isDirectoryAt place = true) (onward : Goes d budget place.dropLast rest left goal) :
      Goes d budget place (.up :: rest) left goal
  /-- Going to an entry that is no link. -/
  | down {budget left : Nat} {place goal : Location} {name : String} {node : Node}
      {rest : List Step} (stands : d.isDirectoryAt place = true)
      (there : d.view (place ++ [name]) = some node) (solid : ∀ target, node ≠ .link target)
      (onward : Goes d budget (place ++ [name]) rest left goal) :
      Goes d budget place (.down name :: rest) left goal
  /-- Going where a link leads. -/
  | link {budget left : Nat} {place goal : Location} {name : String} {target : Path}
      {rest : List Step} (stands : d.isDirectoryAt place = true)
      (there : d.view (place ++ [name]) = some (.link target))
      (onward : Goes d budget (if target.isAbsolute then [] else place) (target.steps ++ rest)
        left goal) :
      Goes d (budget + 1) place (.down name :: rest) left goal

variable {d e : Disk} {last : Bool} {budget left : Nat} {place goal : Location}
  {steps rest : List Step}

section Steps

/-- A step to the place itself is taken in a directory. -/
theorem follow_here (stands : d.isDirectoryAt place = true) :
    d.follow last budget place (.here :: rest) = d.follow last budget place rest := by
  obtain ⟨modified, found⟩ := find?_of_isDirectoryAt stands
  rw [follow_cons, found]

/-- Steps that stay in a directory lead to it. -/
theorem follow_replicate (stands : d.isDirectoryAt place = true) (count : Nat) :
    d.follow last budget place (List.replicate count .here) = .ok ⟨place, d.find? place⟩ := by
  induction count with
  | zero => rw [List.replicate_zero, follow_nil]
  | succ count ih => rw [List.replicate_succ, follow_here stands, ih]

/-- A step up is taken in a directory. -/
theorem follow_up (stands : d.isDirectoryAt place = true) :
    d.follow last budget place (.up :: rest) = d.follow last budget place.dropLast rest := by
  obtain ⟨modified, found⟩ := find?_of_isDirectoryAt stands
  rw [follow_cons, found]

/-- What is seen and is no link is found, and is no link there either. -/
theorem find?_of_view {node : Node} (there : d.view place = some node)
    (solid : ∀ target, node ≠ .link target) :
    ∃ found, d.find? place = some found ∧ found.untimed = node ∧
      ∀ target, found ≠ .link target := by
  unfold view at there
  obtain ⟨found, same, rfl⟩ := Option.map_eq_some_iff.mp there
  refine ⟨found, same, rfl, ?_⟩
  rintro target rfl
  exact solid target rfl

/-- A link that is not what is asked for is followed. -/
theorem follow_link {name : String} {target : Path} (stands : d.isDirectoryAt place = true)
    (there : d.view (place ++ [name]) = some (.link target)) (through : rest ≠ [] ∨ last = true) :
    d.follow last (budget + 1) place (.down name :: rest) =
      d.follow last budget (if target.isAbsolute then [] else place) (target.steps ++ rest) := by
  obtain ⟨modified, found⟩ := find?_of_isDirectoryAt stands
  -- There are more steps, or the link at the end counts as well.
  have followed : (rest = [] && !last) = false := by
    rcases through with some | told
    · simp [some]
    · simp [told]
  rw [follow_cons, found]
  dsimp only
  rw [view_eq_link.mp there]
  dsimp only
  rw [if_neg (by simpa using followed)]

/-- A way that leads somewhere is followed, and the steps behind it from there. -/
theorem Goes.follow_append (goes : d.Goes budget place steps left goal)
    (through : rest ≠ [] ∨ last = true) :
    d.follow last budget place (steps ++ rest) = d.follow last left goal rest := by
  -- Each kind of step is followed by its own rule.
  induction goes with
  | done => rfl
  | here stands _ ih => rw [List.cons_append, follow_here stands, ih]
  | up stands _ ih => rw [List.cons_append, follow_up stands, ih]
  | down stands there solid _ ih =>
    obtain ⟨modified, found⟩ := find?_of_isDirectoryAt stands
    obtain ⟨node, seen, -, firm⟩ := find?_of_view there solid
    rw [List.cons_append, follow_down found seen firm, ih]
  | link stands there _ ih =>
    have onward : ∀ {front : List Step}, front ++ rest ≠ [] ∨ last = true := by
      intro front
      rcases through with some | told
      · exact Or.inl (by simp [some])
      · exact Or.inr told
    rw [List.cons_append, follow_link stands there onward, ← List.append_assoc, ih]

/-- A way that leads somewhere is followed to its end. -/
theorem Goes.follow_eq (goes : d.Goes budget place steps left goal) :
    d.follow true budget place steps = .ok ⟨goal, d.find? goal⟩ := by
  have whole : d.follow true budget place (steps ++ []) = d.follow true left goal [] :=
    goes.follow_append (Or.inr rfl)
  rwa [List.append_nil, follow_nil] at whole

/-- A directory is seen where one is found. -/
theorem isDirectoryAt_of_find? {modified : Int} (found : d.find? place = some (.directory modified)) :
    d.isDirectoryAt place = true := by
  rw [isDirectoryAt, found]
  rfl

/-- An entry that is found and no link is seen, and is no link there either. -/
theorem view_of_find? {node : Node} (found : d.find? place = some node)
    (solid : ∀ target, node ≠ .link target) :
    d.view place = some node.untimed ∧ ∀ target, node.untimed ≠ .link target := by
  refine ⟨by rw [view, found]; rfl, fun target => ?_⟩
  cases node with
  | file | directory => simp [Node.untimed]
  | link other => exact absurd rfl (solid other)

/-- What comes behind a step from a directory that leads on to some spot. -/
inductive Strides (d : Disk) (last : Bool) :
    Nat → Location → Step → List Step → Spot → Prop where
  /-- The others go on from the same place. -/
  | here {budget : Nat} {place : Location} {rest : List Step} {spot : Spot}
      (onward : d.follow last budget place rest = .ok spot) :
      Strides d last budget place .here rest spot
  /-- The others go on from the directory above. -/
  | up {budget : Nat} {place : Location} {rest : List Step} {spot : Spot}
      (onward : d.follow last budget place.dropLast rest = .ok spot) :
      Strides d last budget place .up rest spot
  /-- A link is what is asked for. -/
  | halt {budget : Nat} {place : Location} {name : String} {target : Path}
      (there : d.find? (place ++ [name]) = some (.link target)) (kept : last = false) :
      Strides d last budget place (.down name) [] ⟨place ++ [name], some (.link target)⟩
  /-- The others go on from where a link leads. -/
  | link {budget : Nat} {place : Location} {name : String} {target : Path} {rest : List Step}
      {spot : Spot} (there : d.find? (place ++ [name]) = some (.link target))
      (through : rest ≠ [] ∨ last = true)
      (onward : d.follow last budget (if target.isAbsolute then [] else place)
        (target.steps ++ rest) = .ok spot) :
      Strides d last (budget + 1) place (.down name) rest spot
  /-- Nothing is where the last step leads. -/
  | vacant {budget : Nat} {place : Location} {name : String}
      (there : d.find? (place ++ [name]) = none) :
      Strides d last budget place (.down name) [] ⟨place ++ [name], none⟩
  /-- The others go on from an entry that is no link. -/
  | down {budget : Nat} {place : Location} {name : String} {node : Node} {rest : List Step}
      {spot : Spot} (there : d.find? (place ++ [name]) = some node)
      (solid : ∀ target, node ≠ .link target)
      (onward : d.follow last budget (place ++ [name]) rest = .ok spot) :
      Strides d last budget place (.down name) rest spot

/-- A step that is followed starts in a directory and leads on. -/
theorem strides_of_follow {step : Step} {spot : Spot}
    (followed : d.follow last budget place (step :: rest) = .ok spot) :
    d.isDirectoryAt place = true ∧ d.Strides last budget place step rest spot := by
  -- The steps are told apart as the definition does, and a place that is no directory has none.
  rw [follow_cons] at followed
  split at followed
  next modified found =>
    refine ⟨isDirectoryAt_of_find? found, ?_⟩
    cases step with
    | here => exact .here followed
    | up => exact .up followed
    | down name =>
      dsimp only at followed
      split at followed
      -- A link is halted at if it is the last and not asked for, and followed if any may still be.
      next target there =>
        split at followed
        next asked =>
          obtain rfl := Except.ok.inj followed
          simp only [Bool.and_eq_true, decide_eq_true_eq, Bool.not_eq_true'] at asked
          obtain ⟨rfl, kept⟩ := asked
          exact .halt there kept
        next through =>
          cases budget with
          | zero => simp at followed
          | succ budget =>
            refine .link there ?_ followed
            simpa [Decidable.not_and_iff_or_not, imp_iff_not_or] using through
      -- A name that is missing can only be the last.
      next there =>
        split at followed
        next none =>
          subst none
          obtain rfl := Except.ok.inj followed
          exact .vacant there
        · simp at followed
      next node solid there =>
        exact .down there solid followed
  · simp at followed
  · simp at followed

/-- A way that is followed to an entry leads there. -/
theorem goes_of_follow {node : Node}
    (followed : d.follow true budget place steps = .ok ⟨goal, some node⟩) :
    (∃ left, d.Goes budget place steps left goal) ∧ d.find? goal = some node := by
  -- Behind a link fewer of them are left, and behind any other step fewer steps.
  induction budget using Nat.strongRecOn generalizing place steps with
  | ind budget fewer =>
    induction steps generalizing place with
    | nil =>
      rw [follow_nil] at followed
      obtain ⟨rfl, found⟩ := Spot.mk.inj (Except.ok.inj followed)
      exact ⟨⟨_, .done⟩, found⟩
    | cons step rest ih =>
      obtain ⟨stands, strides⟩ := strides_of_follow followed
      cases strides with
      | here onward =>
        obtain ⟨⟨left, goes⟩, found⟩ := ih onward
        exact ⟨⟨left, goes.here stands⟩, found⟩
      | up onward =>
        obtain ⟨⟨left, goes⟩, found⟩ := ih onward
        exact ⟨⟨left, goes.up stands⟩, found⟩
      | halt _ kept => simp at kept
      | link there _ onward =>
        obtain ⟨⟨left, goes⟩, found⟩ := fewer _ (Nat.lt_succ_self _) onward
        exact ⟨⟨left, goes.link stands (view_eq_link.mpr there)⟩, found⟩
      | down there solid onward =>
        obtain ⟨⟨left, goes⟩, found⟩ := ih onward
        obtain ⟨seen, firm⟩ := view_of_find? there solid
        exact ⟨⟨left, goes.down stands seen firm⟩, found⟩

/-- A way to where an entry is to be made: it leads to a directory, and a name is left. -/
structure Ends (d : Disk) (budget : Nat) (place : Location) (steps : List Step) (outer : Location)
    (name : String) : Prop where
  /-- The name is the last step, and the others lead to the directory. -/
  split : ∃ front left, steps = front ++ [.down name] ∧ d.Goes budget place front left outer
  /-- It is a directory. -/
  stands : d.isDirectoryAt outer = true

/-- A way on which a link at its end is not followed leads to an entry, or to a directory in which a
name is looked for. -/
theorem goes_or_ends {spot : Spot} (followed : d.follow false budget place steps = .ok spot) :
    spot.node = d.find? spot.location ∧
      ((∃ left, d.Goes budget place steps left spot.location) ∨
        ∃ outer name, spot.location = outer ++ [name] ∧ d.Ends budget place steps outer name) := by
  -- A step in front of a way leaves its end as it is.
  have extend {step : Step} {rest : List Step} {budget start : Nat} {place next : Location}
      (stands : d.isDirectoryAt place = true)
      (front : ∀ {front left goal}, d.Goes start next front left goal →
        d.Goes budget place (step :: front) left goal)
      (behind : (∃ left, d.Goes start next rest left spot.location) ∨
        ∃ outer name, spot.location = outer ++ [name] ∧ d.Ends start next rest outer name) :
      (∃ left, d.Goes budget place (step :: rest) left spot.location) ∨
        ∃ outer name, spot.location = outer ++ [name] ∧
          d.Ends budget place (step :: rest) outer name := by
    rcases behind with ⟨left, goes⟩ | ⟨outer, name, last, ⟨steps, left, rfl, goes⟩, inner⟩
    · exact Or.inl ⟨left, front goes⟩
    · exact Or.inr ⟨outer, name, last, ⟨step :: steps, left, rfl, front goes⟩, inner⟩
  -- Links are counted down as above, and the steps behind them are fewer.
  induction budget using Nat.strongRecOn generalizing place steps with
  | ind budget fewer =>
    induction steps generalizing place with
    | nil =>
      rw [follow_nil] at followed
      obtain rfl := Except.ok.inj followed
      exact ⟨rfl, Or.inl ⟨_, .done⟩⟩
    | cons step rest ih =>
      obtain ⟨stands, strides⟩ := strides_of_follow followed
      cases strides with
      | here onward => exact ⟨(ih onward).1, extend stands (.here stands) (ih onward).2⟩
      | up onward => exact ⟨(ih onward).1, extend stands (.up stands) (ih onward).2⟩
      | @halt _ _ name _ there =>
        exact ⟨there.symm, Or.inr ⟨place, name, rfl, ⟨[], _, rfl, .done⟩, stands⟩⟩
      | @vacant _ _ name there =>
        exact ⟨there.symm, Or.inr ⟨place, name, rfl, ⟨[], _, rfl, .done⟩, stands⟩⟩
      | down there solid onward =>
        obtain ⟨seen, firm⟩ := view_of_find? there solid
        exact ⟨(ih onward).1, extend stands (.down stands seen firm) (ih onward).2⟩
      | @link budget _ name target _ _ there through onward =>
        have some : rest ≠ [] := by simpa using through
        obtain ⟨found, behind⟩ := fewer _ (Nat.lt_succ_self _) onward
        refine ⟨found, ?_⟩
        rcases behind with ⟨left, goes⟩ | ⟨outer, last, same, ⟨front, left, split, goes⟩, inner⟩
        · exact Or.inl ⟨left, goes.link stands (view_eq_link.mpr there)⟩
        · -- The last of the steps is one of those behind the link.
          obtain ⟨others, final, rfl⟩ := (List.eq_nil_or_concat rest).resolve_left some
          rw [List.concat_eq_append] at split ⊢
          rw [← List.append_assoc] at split
          obtain ⟨rfl, ends⟩ := List.append_inj' split rfl
          obtain rfl := (List.cons.inj ends).1
          exact Or.inr ⟨outer, last, same,
            ⟨.down name :: others, left, rfl, goes.link stands (view_eq_link.mpr there)⟩, inner⟩

/-- A way that leads to an entry leads to one also when a link at its end is not followed. -/
theorem Goes.follow_false (goes : d.Goes budget place steps left goal)
    (there : d.find? goal ≠ none) :
    ∃ spot, d.follow false budget place steps = .ok spot ∧ spot.node ≠ none := by
  -- Only the last step of the way can be a link that is not followed.
  induction goes with
  | done => exact ⟨_, by rw [follow_nil], there⟩
  | here stands _ ih => rw [follow_here stands]; exact ih there
  | up stands _ ih => rw [follow_up stands]; exact ih there
  | down stands seen solid _ ih =>
    obtain ⟨modified, found⟩ := find?_of_isDirectoryAt stands
    obtain ⟨node, entry, -, firm⟩ := find?_of_view seen solid
    rw [follow_down found entry firm]
    exact ih there
  | @link budget left place goal name target rest stands seen _ ih =>
    by_cases last : rest = []
    · -- The link itself is what is found.
      obtain ⟨modified, found⟩ := find?_of_isDirectoryAt stands
      refine ⟨⟨place ++ [name], some (.link target)⟩, ?_, by simp⟩
      rw [follow_cons, found]
      dsimp only
      rw [view_eq_link.mp seen]
      simp [last]
    · rw [follow_link stands seen (Or.inl last)]
      exact ih there

end Steps

section Routes

/-- Two ways in turn are one. -/
theorem Goes.trans {middle : Location} {between : Nat}
    (first : d.Goes budget place steps between middle)
    (second : d.Goes between middle rest left goal) :
    d.Goes budget place (steps ++ rest) left goal := by
  -- The steps of the first way are taken before the second one begins.
  induction first with
  | done => exact second
  | here stands _ ih => exact (ih second).here stands
  | up stands _ ih => exact (ih second).up stands
  | down stands seen solid _ ih => exact (ih second).down stands seen solid
  | link stands seen _ ih =>
    have onward := ih second
    rw [List.append_assoc] at onward
    exact onward.link stands seen

/-- A way by two lists of steps passes a place in between. -/
theorem Goes.split (goes : d.Goes budget place (steps ++ rest) left goal) :
    ∃ between middle, d.Goes budget place steps between middle ∧
      d.Goes between middle rest left goal := by
  generalize whole : steps ++ rest = all at goes
  -- The cases are those of the first step; before it nothing has been passed.
  induction goes generalizing steps with
  | done =>
    obtain ⟨rfl, rfl⟩ := List.append_eq_nil_iff.mp whole
    exact ⟨_, _, .done, .done⟩
  | here stands onward ih =>
    cases steps with
    | nil =>
      obtain rfl : rest = _ := whole
      exact ⟨_, _, .done, onward.here stands⟩
    | cons step steps =>
      obtain ⟨rfl, rfl⟩ := List.cons.inj whole
      obtain ⟨between, middle, first, second⟩ := ih rfl
      exact ⟨between, middle, first.here stands, second⟩
  | up stands onward ih =>
    cases steps with
    | nil =>
      obtain rfl : rest = _ := whole
      exact ⟨_, _, .done, onward.up stands⟩
    | cons step steps =>
      obtain ⟨rfl, rfl⟩ := List.cons.inj whole
      obtain ⟨between, middle, first, second⟩ := ih rfl
      exact ⟨between, middle, first.up stands, second⟩
  | down stands seen solid onward ih =>
    cases steps with
    | nil =>
      obtain rfl : rest = _ := whole
      exact ⟨_, _, .done, onward.down stands seen solid⟩
    | cons step steps =>
      obtain ⟨rfl, rfl⟩ := List.cons.inj whole
      obtain ⟨between, middle, first, second⟩ := ih rfl
      exact ⟨between, middle, first.down stands seen solid, second⟩
  | link stands seen onward ih =>
    cases steps with
    | nil =>
      obtain rfl : rest = _ := whole
      exact ⟨_, _, .done, onward.link stands seen⟩
    | cons step steps =>
      obtain ⟨rfl, rfl⟩ := List.cons.inj whole
      obtain ⟨between, middle, first, second⟩ := ih (List.append_assoc _ _ _)
      exact ⟨between, middle, first.link stands seen, second⟩

/-- A way that makes a step starts in a directory. -/
theorem Goes.isDirectoryAt {step : Step} (goes : d.Goes budget place (step :: steps) left goal) :
    d.isDirectoryAt place = true := by
  cases goes <;> assumption

/-- A way whose first step goes down starts where something of that name is. -/
theorem Goes.view_ne_none {name : String}
    (goes : d.Goes budget place (.down name :: steps) left goal) :
    d.view (place ++ [name]) ≠ none := by
  cases goes with
  | down _ there => simp [there]
  | link _ there => simp [there]

/-- A way leads to one place only. -/
theorem Goes.unique {other : Location} {spare : Nat}
    (goes : d.Goes budget place steps left goal) (again : d.Goes budget place steps spare other) :
    goal = other := by
  have same := goes.follow_eq.symm.trans again.follow_eq
  exact (Spot.mk.inj (Except.ok.inj same)).1

/-- Everything that is seen in one tree is seen in another one, too. -/
def Within (d e : Disk) : Prop :=
  ∀ place node, d.view place = some node → e.view place = some node

/-- A tree is within itself. -/
theorem Within.refl (d : Disk) : d.Within d := fun _ _ seen => seen

/-- What is within a tree that is within another one is within that one. -/
theorem Within.trans {f : Disk} (first : d.Within e) (second : e.Within f) : d.Within f :=
  fun place node seen => second place node (first place node seen)

/-- A directory stays one in a tree with more in it. -/
theorem Within.isDirectoryAt (within : d.Within e) (stands : d.isDirectoryAt place = true) :
    e.isDirectoryAt place = true :=
  view_eq_directory.mp (within _ _ (view_eq_directory.mpr stands))

/-- A way through a tree is one through a tree with more in it. -/
theorem Goes.mono (goes : d.Goes budget place steps left goal) (within : d.Within e) :
    e.Goes budget place steps left goal := by
  induction goes with
  | done => exact .done
  | here stands _ ih => exact ih.here (within.isDirectoryAt stands)
  | up stands _ ih => exact ih.up (within.isDirectoryAt stands)
  | down stands seen solid _ ih =>
    exact ih.down (within.isDirectoryAt stands) (within _ _ seen) solid
  | link stands seen _ ih => exact ih.link (within.isDirectoryAt stands) (within _ _ seen)

/-- Steps that stay in a directory lead nowhere else. -/
theorem goes_replicate (stands : d.isDirectoryAt place = true) (count : Nat) :
    d.Goes budget place (List.replicate count .here) budget place := by
  induction count with
  | zero => exact .done
  | succ count ih => exact ih.here stands

/-- Before the first move of a list of steps there are only steps that stay. -/
theorem exists_move {move : Step} (first : steps.filter Step.isMove = move :: rest) :
    ∃ count behind, steps = List.replicate count .here ++ move :: behind ∧
      behind.filter Step.isMove = rest := by
  induction steps with
  | nil => simp at first
  | cons step steps ih =>
    -- A step that stays goes to the front, and any other one is the move.
    cases step with
    | here =>
      rw [List.filter_cons_of_neg (by simp)] at first
      obtain ⟨count, behind, rfl, same⟩ := ih first
      exact ⟨count + 1, behind, rfl, same⟩
    | up | down =>
      rw [List.filter_cons_of_pos (by simp)] at first
      obtain ⟨rfl, same⟩ := List.cons.inj first
      exact ⟨0, steps, rfl, same⟩

/-- Steps without a move stay. -/
theorem eq_replicate_of_filter (still : steps.filter Step.isMove = []) :
    ∃ count, steps = List.replicate count .here := by
  refine ⟨steps.length, List.eq_replicate_iff.mpr ⟨rfl, fun step member => ?_⟩⟩
  have none := List.filter_eq_nil_iff.mp still step member
  cases step <;> simp at none ⊢

/-- Behind the last move of a list of steps there are only steps that stay. -/
theorem exists_last_move {move : Step} (last : steps.filter Step.isMove = rest ++ [move]) :
    ∃ front count, steps = front ++ move :: List.replicate count .here ∧
      front.filter Step.isMove = rest := by
  -- The moves are counted off from the front, each with the steps that stay in front of it.
  induction rest generalizing steps with
  | nil =>
    obtain ⟨early, behind, rfl, none⟩ := exists_move last
    obtain ⟨count, rfl⟩ := eq_replicate_of_filter none
    exact ⟨_, count, rfl, by simp⟩
  | cons first rest ih =>
    obtain ⟨early, behind, rfl, same⟩ := exists_move last
    obtain ⟨front, count, rfl, others⟩ := ih same
    -- The first move is one of the moves that are left when the others are taken away.
    have move : first.isMove = true := by
      have member : first ∈ (List.replicate early Step.here ++
          first :: (front ++ move :: List.replicate count Step.here)).filter Step.isMove := by
        rw [last]
        simp
      exact (List.mem_filter.mp member).2
    refine ⟨List.replicate early .here ++ first :: front, count, by simp, ?_⟩
    rw [List.filter_append, List.filter_cons_of_pos move, others]
    simp

/-- A way to a directory is decided by its moves. -/
theorem Goes.congr (goes : d.Goes budget place steps left goal) {others : List Step}
    (same : others.filter Step.isMove = steps.filter Step.isMove)
    (stands : d.isDirectoryAt goal = true) : d.Goes budget place others left goal := by
  -- The steps that stay are taken where the way stands before its next move.
  induction goes generalizing others with
  | done =>
    obtain ⟨count, rfl⟩ := eq_replicate_of_filter same
    exact goes_replicate stands count
  | here _ _ ih => exact ih (by simpa using same) stands
  | up inner _ ih =>
    rw [List.filter_cons_of_pos (by simp)] at same
    obtain ⟨count, behind, rfl, onward⟩ := exists_move same
    exact (goes_replicate inner count).trans ((ih onward stands).up inner)
  | down inner seen solid _ ih =>
    rw [List.filter_cons_of_pos (by simp)] at same
    obtain ⟨count, behind, rfl, onward⟩ := exists_move same
    exact (goes_replicate inner count).trans ((ih onward stands).down inner seen solid)
  | link inner seen _ ih =>
    rw [List.filter_cons_of_pos (by simp)] at same
    obtain ⟨count, behind, rfl, onward⟩ := exists_move same
    refine (goes_replicate inner count).trans ((ih ?_ stands).link inner seen)
    rw [List.filter_append, List.filter_append, onward]

/-- Every path makes a step. -/
theorem steps_ne_nil (p : Path) : p.steps ≠ [] := by
  rw [Path.steps, List.splitOn_eq_splitOnP]
  simp [List.splitOnP_ne_nil]

/-- In a sound tree the directory above one is a directory. -/
theorem Sound.isDirectoryAt_dropLast (sound : d.Sound) (stands : d.isDirectoryAt place = true) :
    d.isDirectoryAt place.dropLast = true := by
  by_cases root : place = []
  · simp [root]
  · refine sound.housed place (mem_places root ?_)
    rw [view_eq_directory.mpr stands]
    simp

/-- In a sound tree a way that makes a step leads to an entry. -/
theorem Goes.find?_ne_none (goes : d.Goes budget place steps left goal) (sound : d.Sound)
    (some : steps ≠ []) : d.find? goal ≠ none := by
  -- Only an entry can be a directory.
  have found {place : Location} (stands : d.isDirectoryAt place = true) :
      d.find? place ≠ none := by
    obtain ⟨modified, same⟩ := find?_of_isDirectoryAt stands
    simp [same]
  -- A way that goes on has its end behind the first step, and one that stops has it there.
  induction goes with
  | done => exact absurd rfl some
  | here stands onward ih =>
    cases onward with
    | done => exact found stands
    | _ => exact ih (by simp)
  | up stands onward ih =>
    cases onward with
    | done => exact found (sound.isDirectoryAt_dropLast stands)
    | _ => exact ih (by simp)
  | down stands seen solid onward ih =>
    cases onward with
    | done =>
      obtain ⟨node, same, -⟩ := find?_of_view seen solid
      simp [same]
    | _ => exact ih (by simp)
  | link _ _ _ ih => exact ih (by simp [steps_ne_nil])

end Routes

end Disk

end DialectBench
