import DialectBench.Proofs.Disk.Writing

/-! Trees in which more was made: what was there is still seen, and no link is new. -/

namespace DialectBench

namespace Disk

variable {d e f : Disk} {p : Path} {place goal : Location} {steps : List Step} {front : List Step}
  {name : String} {names : List String} {budget : Nat} {spot : Spot}

/-- A tree with more in it: all that was there is still seen, and no link is new. -/
structure Grows (d e : Disk) : Prop where
  /-- Its entries fit together. -/
  sound : e.Sound
  /-- The current directory is the same. -/
  current : e.current = d.current
  /-- All that was there is still seen. -/
  within : d.Within e
  /-- No link is new. -/
  linked : ∀ place target, e.view place = some (.link target) → d.view place = some (.link target)

/-- A sound tree has grown by nothing. -/
theorem Grows.refl (sound : d.Sound) : d.Grows d := ⟨sound, rfl, .refl d, fun _ _ => id⟩

/-- What has grown twice has grown. -/
theorem Grows.trans (one : d.Grows e) (other : e.Grows f) : d.Grows f :=
  ⟨other.sound, other.current.trans one.current, one.within.trans other.within,
    fun place target seen => one.linked place target (other.linked place target seen)⟩

/-- New directories let a tree grow. -/
theorem Makes.grows {places : List Location} (makes : d.Makes places e) (sound : d.Sound) :
    d.Grows e where
  sound := makes.sound sound
  current := makes.current_eq
  within := makes.within
  linked place target seen := by
    rw [makes.view_eq] at seen
    split at seen
    · simp at seen
    · exact seen

/-- Steps that lead to an entry lead to one at the same place in a tree with more in it. -/
theorem follow_mono {last : Bool} {node : Node} (within : d.Within e)
    (followed : d.follow last budget place steps = .ok ⟨goal, some node⟩) :
    ∃ other, e.follow last budget place steps = .ok ⟨goal, some other⟩ := by
  -- Behind a link fewer of them are left, and behind any other step fewer steps.
  induction budget using Nat.strongRecOn generalizing place steps with
  | ind budget fewer =>
    induction steps generalizing place with
    | nil =>
      rw [follow_nil] at followed
      obtain ⟨rfl, found⟩ := Spot.mk.inj (Except.ok.inj followed)
      have seen : e.view place = some node.untimed := within _ _ (by rw [view, found]; rfl)
      obtain ⟨other, there, -⟩ := Option.map_eq_some_iff.mp seen
      exact ⟨other, by rw [follow_nil, there]⟩
    | cons step rest ih =>
      obtain ⟨stands, strides⟩ := strides_of_follow followed
      obtain ⟨modified, here⟩ := find?_of_isDirectoryAt (within.isDirectoryAt stands)
      cases strides with
      | here onward =>
        rw [follow_here (within.isDirectoryAt stands)]
        exact ih onward
      | up onward =>
        rw [follow_up (within.isDirectoryAt stands)]
        exact ih onward
      | @halt _ _ name target there kept =>
        have link := view_eq_link.mp (within _ _ (view_eq_link.mpr there))
        refine ⟨.link target, ?_⟩
        rw [follow_cons, here]
        dsimp only
        rw [link]
        simp [kept]
      | link there through onward =>
        rw [follow_link (within.isDirectoryAt stands) (within _ _ (view_eq_link.mpr there)) through]
        exact fewer _ (Nat.lt_succ_self _) onward
      | down there solid onward =>
        obtain ⟨seen, firm⟩ := view_of_find? there solid
        obtain ⟨other, found, -, unlinked⟩ := find?_of_view (within _ _ seen) firm
        rw [follow_down here found unlinked]
        exact ih onward

/-- A path that leads to an entry leads to one at the same place in a tree with more in it. -/
theorem resolve_mono {last : Bool} {node : Node} (within : d.Within e) (current : e.current = d.current)
    (resolved : d.resolve p last = .ok ⟨goal, some node⟩) :
    ∃ other, e.resolve p last = .ok ⟨goal, some other⟩ := by
  have named := isNamed_of_resolve resolved
  have start : e.start p = d.start p := by rw [start, start, current]
  rw [resolve_eq named] at resolved ⊢
  rw [start]
  exact follow_mono within resolved

/-- Where something was it is still seen as it was. -/
theorem Within.view_eq (within : d.Within e) (there : d.view place ≠ none) :
    e.view place = d.view place := by
  obtain ⟨node, seen⟩ := Option.ne_none_iff_exists'.mp there
  rw [seen, within place node seen]

/-- No link bears one of some names. -/
def Unlinked (d : Disk) (marked : String → Prop) : Prop :=
  ∀ place name, marked name → ∀ target, d.view (place ++ [name]) ≠ some (.link target)

/-- In a tree without new links none of them bears a name that none bore before. -/
theorem Unlinked.of_linked {marked : String → Prop} (unlinked : d.Unlinked marked)
    (linked : ∀ place target, e.view place = some (.link target) → d.view place = some (.link target)) :
    e.Unlinked marked := fun place name known target seen =>
  unlinked place name known target (linked _ _ seen)

/-- Steps whose last move goes down to a name that no link bears lead to an entry of that name. -/
theorem location_of_follow (unlinked : d.Unlinked (· = name))
    (moves : steps.filter Step.isMove = front ++ [.down name])
    (followed : d.follow true budget place steps = .ok spot) :
    ∃ outer, spot.location = outer ++ [name] := by
  -- Behind a link fewer of them are left, and behind any other step fewer steps.
  induction budget using Nat.strongRecOn generalizing place steps front with
  | ind budget fewer =>
    induction steps generalizing place front with
    | nil => simp at moves
    | cons step rest ih =>
      obtain ⟨-, strides⟩ := strides_of_follow followed
      -- Steps without a move lead nowhere else.
      have last {other : String} (only : (.down other :: rest).filter Step.isMove = front ++ [.down name])
          (still : front = []) : other = name ∧ rest.filter Step.isMove = [] := by
        rw [still, List.filter_cons_of_pos (by simp)] at only
        simpa using only
      have later {other : String} {first : Step} {behind : List Step}
          (whole : (.down other :: rest).filter Step.isMove = front ++ [.down name])
          (more : front = first :: behind) : rest.filter Step.isMove = behind ++ [.down name] := by
        rw [more, List.filter_cons_of_pos (by simp)] at whole
        exact (List.cons.inj whole).2
      cases strides with
      | here onward => exact ih (by simpa using moves) onward
      | up onward =>
        rw [List.filter_cons_of_pos (by simp)] at moves
        cases front with
        | nil => simp at moves
        | cons first front => exact ih (List.cons.inj moves).2 onward
      | halt _ kept => cases kept
      | @vacant _ _ other there =>
        cases more : front with
        | nil =>
          obtain ⟨rfl, -⟩ := last moves more
          exact ⟨place, rfl⟩
        | cons first behind => simpa using later moves more
      | @down _ _ other node _ _ there solid onward =>
        cases more : front with
        | nil =>
          obtain ⟨rfl, still⟩ := last moves more
          obtain ⟨count, rfl⟩ := eq_replicate_of_filter still
          refine ⟨place, ?_⟩
          have stays : d.Goes budget (place ++ [other]) (List.replicate count .here) budget
              (place ++ [other]) := by
            cases count with
            | zero => exact .done
            | succ count =>
              rw [List.replicate_succ] at onward
              exact goes_replicate (strides_of_follow onward).1 _
          rw [stays.follow_eq] at onward
          exact (congrArg Spot.location (Except.ok.inj onward)).symm
        | cons first behind => exact ih (later moves more) onward
      | @link budget _ other target _ _ there _ onward =>
        cases more : front with
        | nil =>
          obtain ⟨rfl, -⟩ := last moves more
          exact absurd (view_eq_link.mpr there) (unlinked place other rfl target)
        | cons first behind =>
          have whole : (target.steps ++ rest).filter Step.isMove =
              (target.steps.filter Step.isMove ++ behind) ++ [.down name] := by
            rw [List.filter_append, later moves more, List.append_assoc]
          exact fewer budget (Nat.lt_succ_self _) whole onward

/-- A file is written where it bears the last name of its path, unless a link bears that name. -/
theorem location_of_filePlace (unlinked : d.Unlinked (· = name))
    (moves : p.moves = front ++ [.down name]) (writable : d.filePlace p = .ok goal) :
    ∃ outer, goal = outer ++ [name] := by
  have led {node : Option Node} (resolved : d.resolve p true = .ok ⟨goal, node⟩) :
      ∃ outer, goal = outer ++ [name] := by
    rw [resolve_eq (isNamed_of_resolve resolved)] at resolved
    exact location_of_follow unlinked moves resolved
  unfold filePlace at writable
  split at writable
  next resolved => exact led (Except.ok.inj writable ▸ resolved)
  next resolved => exact led (Except.ok.inj writable ▸ resolved)
  all_goals simp at writable

/-- A tree in which directories were made, and a file was written under a name: everything else that was
there is still seen, and no link is new. -/
structure Writes (d : Disk) (name : String) (e : Disk) : Prop where
  /-- Its entries fit together. -/
  sound : e.Sound
  /-- The current directory is the same. -/
  current : e.current = d.current
  /-- What was there under other names is still seen. -/
  kept : ∀ place, (∀ outer, place ≠ outer ++ [name]) → d.view place ≠ none →
    e.view place = d.view place
  /-- No link is new. -/
  linked : ∀ place target, e.view place = some (.link target) → d.view place = some (.link target)

/-- A tree that has only grown has no new file under a name. -/
theorem Grows.writes (grows : d.Grows e) (name : String) : d.Writes name e :=
  ⟨grows.sound, grows.current, fun _ _ there => grows.within.view_eq there, grows.linked⟩

/-- A file that is written in a tree that has grown is the one under the name. -/
theorem Grows.writes_of_puts {content : Bytes} (grows : d.Grows e) (puts : e.Puts goal content f)
    (under : ∃ outer, goal = outer ++ [name]) : d.Writes name f := by
  obtain ⟨outer, rfl⟩ := under
  obtain ⟨mode, modified, seen⟩ := puts.seen
  refine ⟨puts.sound, puts.current.trans grows.current, fun place apart there => ?_,
    fun place target link => ?_⟩
  · rw [seen, if_neg (apart outer), grows.within.view_eq there]
  · rw [seen] at link
    split at link
    · simp at link
    · exact grows.linked place target link

end Disk

end DialectBench
