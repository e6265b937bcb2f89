import DialectBench.Proofs.Disk.Lead

/-! Making directories: where they come to lie, and what a refusal tells. -/

namespace DialectBench

namespace Disk

/-- Directories are made one after the other, each where an entry fits. -/
inductive Makes : Disk → List Location → Disk → Prop where
  /-- None is made. -/
  | done {d : Disk} : Makes d [] d
  /-- One is made, and then the others. -/
  | next {d e : Disk} {place : Location} {places : List Location} (fits : d.Fits place)
      (others : Makes (d.apply (.makeDirectory place)) places e) : Makes d (place :: places) e

variable {d e : Disk} {p a : Path} {place outer : Location} {places : List Location}
  {name : String} {names : List String}

namespace Makes

/-- The changes are new directories. -/
theorem applyAll_eq (makes : d.Makes places e) : d.applyAll (places.map .makeDirectory) = e := by
  induction makes with
  | done => rfl
  | next _ _ ih => exact ih

/-- More directories are made after the first ones. -/
theorem trans {f : Disk} {more : List Location} (makes : d.Makes places e)
    (others : e.Makes more f) : d.Makes (places ++ more) f := by
  induction makes with
  | done => exact others
  | next fits _ ih => exact .next fits (ih others)

/-- A sound tree stays sound. -/
theorem sound (makes : d.Makes places e) (sound : d.Sound) : e.Sound := by
  induction makes with
  | done => exact sound
  | next fits _ ih => exact ih (sound.makeDirectory fits)

/-- The current directory stays the same. -/
theorem current_eq (makes : d.Makes places e) : e.current = d.current := by
  induction makes with
  | done => rfl
  | next _ _ ih => exact ih

/-- The new directories are seen, and everything else as it was. -/
theorem view_eq (makes : d.Makes places e) (place : Location) :
    e.view place = if place ∈ places then some (.directory 0) else d.view place := by
  induction makes with
  | done => simp
  | @next d e first places fits _ ih =>
    rw [ih, view_makeDirectory fits.vacant]
    by_cases later : place ∈ places
    · simp [later]
    · by_cases own : place = first <;> simp [later, own]

/-- Where a directory is made there was nothing before. -/
theorem vacant (makes : d.Makes places e) (member : place ∈ places) : d.view place = none := by
  induction makes with
  | done => simp at member
  | next fits _ ih =>
    rcases List.mem_cons.mp member with rfl | later
    · exact view_eq_none.mpr fits.vacant
    · have after := ih later
      rw [view_makeDirectory fits.vacant] at after
      split at after
      · simp at after
      · exact after

/-- Everything that was there is still there. -/
theorem within (makes : d.Makes places e) : d.Within e := by
  intro place node seen
  rw [makes.view_eq]
  split
  next member => rw [makes.vacant member] at seen; simp at seen
  next => exact seen

/-- No file is made. -/
theorem content?_eq (makes : d.Makes places e) (place : Location) :
    e.content? place = d.content? place := by
  rw [Disk.content?_eq, Disk.content?_eq, makes.view_eq]
  split
  next member => rw [makes.vacant member]; rfl
  next => rfl

/-- No link is made. -/
theorem linkless (makes : d.Makes places e) (linkless : d.Linkless place) : e.Linkless place := by
  intro names target seen
  rw [makes.view_eq] at seen
  split at seen
  · simp at seen
  · exact linkless _ _ seen

end Makes

section Single

/-- A path whose last step is a name in a directory leads to the directory of that name, once there
is one. -/
theorem Ends.leads {place : Location}
    (ends : d.Ends linkLimit (d.start p) (withoutSlashes p).steps outer name) (named : p.IsNamed)
    (within : d.Within e) (same : e.current = d.current) (made : place = outer ++ [name])
    (stands : e.isDirectoryAt place = true) : e.Leads p place := by
  -- The way ends in front of its last name, and what has been made is exactly what that name leads
  -- to.
  obtain ⟨⟨front, left, split, goes⟩, inner⟩ := ends
  subst made
  refine ⟨named, ⟨left, ?_⟩, stands⟩
  have last : e.Goes left outer [.down name] left (outer ++ [name]) :=
    .down (within.isDirectoryAt inner) (view_eq_directory.mpr stands) (by simp) .done
  have whole := (goes.mono within).trans last
  rw [← split] at whole
  rw [start, same]
  exact whole.congr p.moves_withoutSlashes.symm stands

/-- The directory that a path asks for is made in a directory where its name is free, and then the
path leads to it. -/
theorem making_of_makingDirectory {change : Change} (sound : d.Sound)
    (making : d.makingDirectory p = .ok change) :
    ∃ outer name, change = .makeDirectory (outer ++ [name]) ∧ d.Fits (outer ++ [name]) ∧
      d.Ends linkLimit (d.start p) (withoutSlashes p).steps outer name ∧ p.IsNamed := by
  unfold makingDirectory at making
  split at making
  next place resolved =>
    obtain rfl := Except.ok.inj making
    -- Trailing slashes are left out before the path is resolved, and a text of slashes alone is not.
    have rough := isNamed_of_resolve resolved
    have named : p.IsNamed := by
      rcases p.withoutSlashes_cases with same | ⟨front, slashes, some, text, -, -⟩
      · rwa [same] at rough
      · rw [Path.IsNamed, text]
        simp [some]
    rw [resolve_eq rough, start, Path.isAbsolute_withoutSlashes] at resolved
    -- The path leads to a free place, so its way stops in front of a name that is missing.
    obtain ⟨same, ⟨left, goes⟩ | ⟨outer, name, rfl, ends⟩⟩ := goes_or_ends resolved
    · exact absurd same.symm (goes.find?_ne_none sound (steps_ne_nil _))
    · refine ⟨outer, name, rfl, ?_, ends, named⟩
      obtain ⟨⟨front, left, split, -⟩, stands⟩ := ends
      have plain : IsPlain name := Path.isPlain_of_mem_steps (p := withoutSlashes p)
        (split ▸ by simp)
      exact sound.fits stands plain same.symm
  · simp at making
  · simp at making

/-- Where a path leads to something no directory can be made. -/
theorem makingDirectory_of_goes {left : Nat} (named : p.IsNamed)
    (goes : d.Goes linkLimit (d.start p) (withoutSlashes p).steps left place)
    (there : d.find? place ≠ none) : d.makingDirectory p = .error .alreadyExists := by
  obtain ⟨⟨goal, node⟩, followed, some⟩ := goes.follow_false there
  have resolved : d.resolve (withoutSlashes p) false = .ok ⟨goal, node⟩ := by
    rw [resolve_eq (Path.isNamed_withoutSlashes named), start, Path.isAbsolute_withoutSlashes]
    exact followed
  unfold makingDirectory
  rw [resolved]
  obtain ⟨found, rfl⟩ := Option.ne_none_iff_exists'.mp some
  rfl

/-- A directory is made, or there is one, or the refusal is handed on. -/
theorem makingUnlessThere_cases (d : Disk) (p : Path) :
    (∃ change, d.makingDirectory p = .ok change ∧ d.makingUnlessThere p = { changes := [change] }) ∨
      (d.isDirectory p = true ∧ d.makingUnlessThere p = { changes := [] }) ∨
      (d.isDirectory p = false ∧
        ∃ refusal, d.makingUnlessThere p = { changes := [], refusal := some refusal }) := by
  unfold makingUnlessThere
  cases making : d.makingDirectory p with
  | ok change => exact Or.inl ⟨change, rfl, rfl⟩
  | error refusal =>
    cases stands : d.isDirectory p with
    | true => exact Or.inr (Or.inl ⟨rfl, rfl⟩)
    | false => exact Or.inr (Or.inr ⟨rfl, refusal, rfl⟩)

end Single

section All

/-- What is missing above a path is made first. -/
theorem makingAll_cases (d : Disk) (p : Path) (above : List Path) :
    (p.text = "" ∧ d.makingAll (p :: above) = { changes := [] }) ∨
      d.makingAll (p :: above) = d.makingUnlessThere p ∨
      ((d.makingAll above).refusal ≠ none ∧ d.makingAll (p :: above) = d.makingAll above) ∨
      ((d.makingAll above).refusal = none ∧
        d.makingAll (p :: above) = {
          changes := (d.makingAll above).changes ++
            ((d.applyAll (d.makingAll above).changes).makingUnlessThere p).changes
          refusal := ((d.applyAll (d.makingAll above).changes).makingUnlessThere p).refusal }) := by
  -- The cases are those of the definition: nothing to make, the path alone, or what is above it
  -- first.
  rw [makingAll]
  by_cases empty : p.text.isEmpty = true
  · exact Or.inl ⟨String.isEmpty_iff.mp empty, by rw [if_pos empty]⟩
  · rw [if_neg empty]
    refine Or.inr ?_
    split
    · cases refused : (d.makingAll above).refusal with
      | none => exact Or.inr (Or.inr ⟨rfl, by rw [if_neg (by simp [refused])]⟩)
      | some refusal => exact Or.inr (Or.inl ⟨by simp, by rw [if_pos (by simp [refused])]⟩)
    · exact Or.inl rfl

/-- Whatever is made for paths makes a directory of one of them. -/
theorem exists_making_of_mem {paths : List Path} {change : Change}
    (member : change ∈ (d.makingAll paths).changes) :
    ∃ e : Disk, ∃ a ∈ paths, e.makingDirectory a = .ok change := by
  -- For a single path there is at most the change that makes its directory.
  have alone (e : Disk) (p : Path) (made : change ∈ (e.makingUnlessThere p).changes) :
      e.makingDirectory p = .ok change := by
    rcases e.makingUnlessThere_cases p with ⟨own, making, same⟩ | ⟨-, same⟩ | ⟨-, refusal, same⟩
    · rw [same] at made
      rw [making, List.mem_singleton.mp made]
    · rw [same] at made
      cases made
    · rw [same] at made
      cases made
  -- The induction is on the paths from the innermost one outwards, as they are asked for.
  induction paths with
  | nil => cases member
  | cons p above ih =>
    have later (earlier : change ∈ (d.makingAll above).changes) :
        ∃ e : Disk, ∃ a ∈ p :: above, e.makingDirectory a = .ok change := by
      obtain ⟨e, a, listed, making⟩ := ih earlier
      exact ⟨e, a, List.mem_cons_of_mem _ listed, making⟩
    -- The change was made for what is above, or at last for the path itself.
    rcases d.makingAll_cases p above with ⟨-, same⟩ | same | ⟨-, same⟩ | ⟨-, same⟩
    · rw [same] at member
      cases member
    · rw [same] at member
      exact ⟨d, p, List.mem_cons_self, alone d p member⟩
    · rw [same] at member
      exact later member
    · rw [same] at member
      rcases List.mem_append.mp member with early | last
      · exact later early
      · exact ⟨_, p, List.mem_cons_self, alone _ p last⟩

/-- Two lists of changes are made one after the other. -/
theorem applyAll_append (d : Disk) (first second : List Change) :
    d.applyAll (first ++ second) = (d.applyAll first).applyAll second :=
  List.foldl_append

/-- A single directory is made, or none. -/
theorem makes_makingUnlessThere (sound : d.Sound) (p : Path) :
    ∃ places, (d.makingUnlessThere p).changes = places.map .makeDirectory ∧
      d.Makes places (d.applyAll (d.makingUnlessThere p).changes) ∧
      ∀ place ∈ places, (d.applyAll (d.makingUnlessThere p).changes).Leads p place := by
  rcases d.makingUnlessThere_cases p with ⟨change, making, same⟩ | ⟨-, same⟩ | ⟨-, refusal, same⟩
  -- The new directory is seen where the name of the path is looked for.
  · obtain ⟨outer, name, rfl, fits, ends, named⟩ := making_of_makingDirectory sound making
    have makes : d.Makes [outer ++ [name]] (d.applyAll [.makeDirectory (outer ++ [name])]) :=
      .next fits .done
    refine ⟨[outer ++ [name]], by rw [same]; rfl, by rw [same]; exact makes, ?_⟩
    intro place member
    obtain rfl := List.mem_singleton.mp member
    rw [same]
    refine ends.leads named makes.within makes.current_eq rfl ?_
    rw [← view_eq_directory, makes.view_eq, if_pos (by simp)]
  · exact ⟨[], by rw [same]; rfl, by rw [same]; exact .done, by simp⟩
  · exact ⟨[], by rw [same]; rfl, by rw [same]; exact .done, by simp⟩

/-- Directories are made, and one of the given paths leads to each of them. -/
theorem makes_makingAll (sound : d.Sound) (paths : List Path) :
    ∃ places, (d.makingAll paths).changes = places.map .makeDirectory ∧
      d.Makes places (d.applyAll (d.makingAll paths).changes) ∧
      ∀ place ∈ places, ∃ a ∈ paths, (d.applyAll (d.makingAll paths).changes).Leads a place := by
  induction paths with
  | nil => exact ⟨[], rfl, .done, by simp⟩
  | cons p above ih =>
    -- Whatever is made above stays a directory when the path itself is made.
    rcases d.makingAll_cases p above with ⟨-, same⟩ | same | ⟨-, same⟩ | ⟨-, same⟩
    · exact ⟨[], by rw [same]; rfl, by rw [same]; exact .done, by simp⟩
    · obtain ⟨places, changes, makes, led⟩ := makes_makingUnlessThere sound p
      rw [same]
      exact ⟨places, changes, makes, fun place member => ⟨p, by simp, led place member⟩⟩
    · obtain ⟨places, changes, makes, led⟩ := ih
      rw [same]
      refine ⟨places, changes, makes, fun place member => ?_⟩
      obtain ⟨a, listed, leads⟩ := led place member
      exact ⟨a, List.mem_cons_of_mem _ listed, leads⟩
    · obtain ⟨places, changes, makes, led⟩ := ih
      obtain ⟨more, last, makesLast, ledLast⟩ := makes_makingUnlessThere (makes.sound sound) p
      rw [same]
      dsimp only
      rw [applyAll_append]
      refine ⟨places ++ more, by rw [last, changes, List.map_append], makes.trans makesLast, ?_⟩
      intro place member
      rcases List.mem_append.mp member with early | late
      · obtain ⟨a, listed, leads⟩ := led place early
        exact ⟨a, List.mem_cons_of_mem _ listed, leads.mono makesLast.within makesLast.current_eq⟩
      · exact ⟨p, by simp, ledLast place late⟩

/-- A path to which a directory is refused leads to none. -/
theorem not_isDirectory_of_refusal {above : List Path}
    (chain : (p :: above).IsChain fun inner outer => outer.IsAbove inner)
    (refused : (d.makingAll (p :: above)).refusal ≠ none) :
    (d.applyAll (d.makingAll (p :: above)).changes).isDirectory p = false := by
  -- The directory of a single path is refused only where none stands.
  have single {d : Disk} {p : Path} (refused : (d.makingUnlessThere p).refusal ≠ none) :
      (d.applyAll (d.makingUnlessThere p).changes).isDirectory p = false := by
    rcases d.makingUnlessThere_cases p with ⟨change, -, same⟩ | ⟨-, same⟩ | ⟨none, refusal, same⟩
    · simp [same] at refused
    · simp [same] at refused
    · rw [same]
      exact none
  -- A refusal comes from the path itself, or from what is above it and is then handed on.
  induction above generalizing p with
  | nil =>
    rcases d.makingAll_cases p [] with ⟨-, same⟩ | same | ⟨again, -⟩ | ⟨-, same⟩
    · simp [same] at refused
    · rw [same] at refused ⊢
      exact single refused
    · simp [makingAll] at again
    · rw [same] at refused ⊢
      exact single refused
  | cons next above ih =>
    rcases d.makingAll_cases p (next :: above) with ⟨-, same⟩ | same | ⟨again, same⟩ | ⟨-, same⟩
    · simp [same] at refused
    · rw [same] at refused ⊢
      exact single refused
    · -- What is above the path leads to no directory, so neither does the path.
      obtain ⟨first, others⟩ := List.isChain_cons_cons.mp chain
      have none := ih others again
      rw [same, ← Bool.not_eq_true, isDirectory_iff]
      rintro ⟨place, leads⟩
      rcases first with empty | ⟨step, near⟩
      · have nothing : d.makingAll (next :: above) = { changes := [] } := by
          rw [makingAll, if_pos (String.isEmpty_iff.mpr empty)]
        simp [nothing] at again
      · obtain ⟨outer, -, -, inner, -⟩ := leads.precedes near
        rw [isDirectory_iff.mpr ⟨outer, inner⟩] at none
        simp at none
    · rw [same] at refused ⊢
      dsimp only at refused ⊢
      rw [applyAll_append]
      exact single refused

/-- Where a path leads to a directory nothing is made. -/
theorem makes_nil_of_isDirectory {above : List Path}
    (chain : (p :: above).IsChain fun inner outer => outer.IsAbove inner) (sound : d.Sound)
    (stands : d.isDirectory p = true) : (d.makingAll (p :: above)).changes = [] := by
  obtain ⟨goal, leads⟩ := isDirectory_iff.mp stands
  obtain ⟨places, changes, makes, led⟩ := makes_makingAll sound (p :: above)
  -- What is made was missing, so it is enough that no place can have been.
  suffices places = [] by rw [changes, this]; rfl
  refine List.eq_nil_iff_forall_not_mem.mpr fun place member => ?_
  obtain ⟨a, listed, found⟩ := led place member
  -- Each of the paths leads to a directory that was there before.
  have before : ∃ outer, d.Leads a outer := by
    rcases List.mem_cons.mp listed with rfl | above
    · exact ⟨goal, leads⟩
    · rcases Path.precedes_of_isChain chain above with empty | ⟨rest, -, precedes⟩
      · exact absurd (by simp [empty]) found.named
      · obtain ⟨outer, -, -, inner, -⟩ := leads.precedes precedes
        exact ⟨outer, inner⟩
  obtain ⟨outer, inner⟩ := before
  have same := (inner.mono makes.within makes.current_eq).unique found
  have vacant := makes.vacant member
  rw [← same, view_eq_directory.mpr inner.stands] at vacant
  simp at vacant

/-- Below a directory without links only directories below it are made. -/
theorem makes_below (leads : d.Leads p place) (sound : d.Sound) (linkless : d.Linkless place)
    (plain : ∀ name ∈ names, IsPlain name) :
    ∃ ways : List (List String),
      (d.makingAll (p.extend names).ancestors).changes =
        ways.map (fun way => .makeDirectory (place ++ way)) ∧
      d.Makes (ways.map (place ++ ·))
        (d.applyAll (d.makingAll (p.extend names).ancestors).changes) ∧
      ∀ way ∈ ways, way ≠ [] ∧ way <+: names := by
  -- Each new directory is where one of these paths leads, and the paths above the given directory
  -- lead somewhere already.
  obtain ⟨places, changes, makes, led⟩ := makes_makingAll sound (p.extend names).ancestors
  have below : ∀ made ∈ places, ∃ way, made = place ++ way ∧ way ≠ [] ∧ way <+: names := by
    intro made member
    have vacant := makes.vacant member
    obtain ⟨a, listed, found⟩ := led made member
    have later := leads.mono makes.within makes.current_eq
    have whole := Path.isNamed_extend leads.named plain
    -- The path of the new directory comes before the whole path, or is that path.
    obtain ⟨rest, precedes⟩ : ∃ rest, a.Precedes (p.extend names) rest := by
      obtain ⟨above, same⟩ := (p.extend names).ancestors_eq_cons
      have chain := Path.isChain_ancestors whole
      rw [same] at listed chain
      rcases List.mem_cons.mp listed with rfl | behind
      · exact ⟨[], Path.precedes_refl whole⟩
      · rcases Path.precedes_of_isChain chain behind with empty | ⟨rest, -, precedes⟩
        · exact absurd (by simp [empty]) found.named
        · exact ⟨rest, precedes⟩
    have moves := precedes.moves
    rw [Path.moves_extend leads.named plain] at moves
    -- The moves of such a path go on behind those of the directory, or stop before its end.
    rcases List.append_eq_append_iff.mp moves with ⟨front, own, split⟩ | ⟨front, shorter, -⟩
    · obtain ⟨way, others, rfl, rfl, -⟩ := List.map_eq_append_iff.mp split
      have inner : ∀ name ∈ way, IsPlain name := fun name member => plain name (by simp [member])
      have same : (p.extend way).isAbsolute = a.isAbsolute := by
        rw [precedes.start, Path.isAbsolute_extend leads.named inner,
          Path.isAbsolute_extend leads.named plain]
      have goal := found.congr (Path.isNamed_extend leads.named inner) same
        (by rw [Path.moves_extend leads.named inner, own])
      by_cases none : way = []
      · subst none
        rw [later.unique goal] at leads
        rw [view_eq_directory.mpr leads.stands] at vacant
        simp at vacant
      · exact ⟨way, later.eq_of_extend (makes.linkless linkless) inner goal, none,
          List.prefix_append _ _⟩
    · -- A path above the directory led somewhere before.
      have start : a.isAbsolute = p.isAbsolute := by
        rw [precedes.start, Path.isAbsolute_extend leads.named plain]
      obtain ⟨outer, -, -, inner, -⟩ := leads.precedes ⟨precedes.named, start, shorter⟩
      have same := (inner.mono makes.within makes.current_eq).unique found
      rw [← same, view_eq_directory.mpr inner.stands] at vacant
      simp at vacant
  -- The ways are put together from those of the single places.
  obtain ⟨ways, rfl, inner⟩ : ∃ ways : List (List String), places = ways.map (place ++ ·) ∧
      ∀ way ∈ ways, way ≠ [] ∧ way <+: names := by
    clear makes led changes
    induction places with
    | nil => exact ⟨[], rfl, by simp⟩
    | cons made places ih =>
      obtain ⟨way, rfl, some, first⟩ := below made (by simp)
      obtain ⟨ways, rfl, others⟩ := ih fun made member => below made (by simp [member])
      refine ⟨way :: ways, rfl, fun other member => ?_⟩
      rcases List.mem_cons.mp member with rfl | later
      · exact ⟨some, first⟩
      · exact others other later
  exact ⟨ways, by rw [changes, List.map_map]; rfl, makes, inner⟩

/-- A directory that is made last is empty. -/
theorem empty_of_makingUnlessThere (sound : d.Sound) (made : (d.makingUnlessThere p).changes ≠ []) :
    ∃ place, (d.applyAll (d.makingUnlessThere p).changes).Leads p place ∧
      ∀ name, (d.applyAll (d.makingUnlessThere p).changes).view (place ++ [name]) = none := by
  obtain ⟨places, changes, makes, led⟩ := makes_makingUnlessThere sound p
  -- A change was made, and there is never more than one.
  obtain ⟨place, rfl⟩ : ∃ place, places = [place] := by
    refine List.length_eq_one_iff.mp ?_
    have count := congrArg List.length changes
    rw [List.length_map] at count
    rcases d.makingUnlessThere_cases p with ⟨change, -, same⟩ | ⟨-, same⟩ | ⟨-, _, same⟩
    · simpa [same] using count.symm
    · simp [same] at made
    · simp [same] at made
  have member : place ∈ [place] := by simp
  -- Nothing can have been below a place that was free.
  refine ⟨place, led place member, fun name => ?_⟩
  rw [makes.view_eq, if_neg (by simp)]
  exact sound.view_eq_none_of_append (makes.vacant member)

/-- A path that does not go up leads to an empty directory once something was made for it. -/
theorem empty_of_makingAll {above : List Path}
    (chain : (p :: above).IsChain fun inner outer => outer.IsAbove inner) (sound : d.Sound)
    (downward : Step.up ∉ p.moves) (made : (d.makingAll (p :: above)).changes ≠ [])
    (passed : (d.makingAll (p :: above)).refusal = none) :
    ∃ place, (d.applyAll (d.makingAll (p :: above)).changes).Leads p place ∧
      ∀ name, (d.applyAll (d.makingAll (p :: above)).changes).view (place ++ [name]) = none := by
  -- If nothing is made for the path itself, it would have to lead on from what is above it, where
  -- nothing is yet.
  induction above generalizing p with
  | nil =>
    rcases d.makingAll_cases p [] with ⟨-, same⟩ | same | ⟨again, -⟩ | ⟨-, same⟩
    · simp [same] at made
    · rw [same] at made ⊢
      exact empty_of_makingUnlessThere sound made
    · simp [makingAll] at again
    · rw [same] at made ⊢
      exact empty_of_makingUnlessThere sound made
  | cons next above ih =>
    obtain ⟨first, others⟩ := List.isChain_cons_cons.mp chain
    rcases d.makingAll_cases p (next :: above) with ⟨-, same⟩ | same | ⟨again, same⟩ | ⟨free, same⟩
    · simp [same] at made
    · rw [same] at made ⊢
      exact empty_of_makingUnlessThere sound made
    · rw [same] at passed
      exact absurd passed again
    -- What is above was made without refusal, and the path is made in the tree that has it.
    · obtain ⟨_, _, makes, -⟩ := makes_makingAll sound (next :: above)
      rw [same] at made passed ⊢
      dsimp only at made passed ⊢
      rw [applyAll_append]
      by_cases last :
          ((d.applyAll (d.makingAll (next :: above)).changes).makingUnlessThere p).changes = []
      · -- The path above leads to an empty directory, so there is nothing that this one leads to.
        rw [last, List.append_nil] at made
        obtain ⟨step, near⟩ : ∃ step, next.Precedes p [step] := by
          refine first.resolve_left fun empty => made ?_
          rw [makingAll, if_pos (String.isEmpty_iff.mpr empty)]
        have member : step ∈ p.moves := by simp [near.moves]
        obtain ⟨outer, leads, vacant⟩ :=
          ih others (fun up => downward (by simp [near.moves, up])) made free
        obtain ⟨goal, inner⟩ :
            ∃ goal, (d.applyAll (d.makingAll (next :: above)).changes).Leads p goal := by
          rw [← isDirectory_iff]
          rcases (d.applyAll (d.makingAll (next :: above)).changes).makingUnlessThere_cases p with
            ⟨_, -, same⟩ | ⟨stands, -⟩ | ⟨-, _, same⟩
          · simp [same] at last
          · exact stands
          · simp [same] at passed
        -- A path whose parent is empty leads nowhere by a name, and it does not go up.
        obtain ⟨other, _, _, again, -, goes⟩ := inner.precedes near
        rw [again.unique leads] at goes
        cases step with
        | here => simp [Path.moves] at member
        | up => exact absurd member downward
        | down name => exact absurd (vacant name) goes.view_ne_none
      · exact empty_of_makingUnlessThere (makes.sound sound) last

end All

end Disk

end DialectBench
