import DialectBench.Proofs.Collection.House

/-! Making the directory of a collection, with the directories on the way to it. -/

namespace DialectBench

open Disk Action

namespace Action

variable {path outer : Path} {step : Step} {s : Session}

/-- Work makes the directories on the way to a path. -/
structure Paves (action : Action Unit) (path : Path) (s : Session) (made : List Location) :
    Prop where
  /-- It makes nothing else. -/
  ledger : action.ledger s = made.map .makeDirectory
  /-- They are made one after the other. -/
  makes : s.scene.disk.Makes made (action.after s).scene.disk
  /-- A path before the whole one leads to each of them. -/
  led : ∀ place ∈ made, ∃ outer rest, rest ≠ [] ∧ outer.Precedes path rest ∧
    (action.after s).scene.disk.Leads outer place
  /-- None is made on the way to something that is there. -/
  there : s.scene.disk.exists? path = true → made = [] ∧ action.outcome s = .ok ()
  /-- If they cannot be made the path leads nowhere. -/
  failed : ∀ failure, action.outcome s = .error failure →
    (action.after s).scene.disk.exists? path = false
  /-- What is made on the way to a path that does not go up is empty. -/
  empty : Step.up ∉ path.moves → made ≠ [] → (action.after s).scene.disk.exists? path = false

/-- Work that does nothing makes no directory. -/
theorem paves_of_still {action : Action Unit} (still : action.after s = s)
    (passed : action.outcome s = .ok ()) : action.Paves path s [] where
  ledger := ledger_eq_of (by rw [still]; rfl)
  makes := by rw [still]; exact .done
  led := by simp
  there _ := ⟨rfl, passed⟩
  failed failure failed := by simp [passed] at failed
  empty _ some := absurd rfl some

/-- If a path leads somewhere no directory above it is refused. -/
theorem not_refused {d : Disk} {goal : Location} (leads :
    (d.applyAll (d.makingAll outer.ancestors).changes).Leads outer goal) :
    (d.makingAll outer.ancestors).refusal = none := by
  by_contra refused
  obtain ⟨above, whole⟩ := outer.ancestors_eq_cons
  have chain := Path.isChain_ancestors leads.named
  rw [whole] at refused chain leads
  have fails := not_isDirectory_of_refusal chain refused
  rw [isDirectory_iff.mpr ⟨goal, leads⟩] at fails
  simp at fails

/-- Making the directory above a path makes those on the way to the path. -/
theorem prepareDirectory_paves (sound : s.scene.disk.Sound) (near : outer.Precedes path [step]) :
    ∃ made, (prepareDirectory outer).Paves path s made := by
  have chain := Path.isChain_ancestors near.named
  obtain ⟨above, whole⟩ := outer.ancestors_eq_cons
  obtain ⟨made, changes, makes, led⟩ := makes_makingAll sound outer.ancestors
  have left : ((prepareDirectory outer).after s).scene.disk =
      s.scene.disk.applyAll (s.scene.disk.makingAll outer.ancestors).changes := by
    rw [after_prepareDirectory, disk_performAll]
  have passes (none : (s.scene.disk.makingAll outer.ancestors).refusal = none) :
      (prepareDirectory outer).outcome s = .ok () := by
    rw [outcome_prepareDirectory, none]
  refine ⟨made, ?_, by rw [left]; exact makes, fun place member => ?_, fun found => ?_,
    fun failure failed => ?_, fun downward some => ?_⟩
  · rw [ledger_congr (after_prepareDirectory outer s), ledger_performAll, changes]
  · rw [left]
    obtain ⟨a, listed, leads⟩ := led place member
    rw [whole] at listed chain
    rcases List.mem_cons.mp listed with rfl | behind
    · exact ⟨a, [step], by simp, near, leads⟩
    · rcases Path.precedes_of_isChain chain behind with none | ⟨rest, -, far⟩
      · exact absurd (by simp [none]) leads.named
      · exact ⟨a, rest ++ [step], by simp, far.trans near, leads⟩
  · -- What is above a path that leads somewhere is a directory.
    obtain ⟨goal, _, _, _, _, inner, -⟩ := leads_above found near
    have none : (s.scene.disk.makingAll outer.ancestors).changes = [] := by
      rw [whole] at chain ⊢
      exact makes_nil_of_isDirectory chain sound (isDirectory_iff.mpr ⟨goal, inner⟩)
    have stays : (s.scene.disk.applyAll (s.scene.disk.makingAll outer.ancestors).changes).Leads
        outer goal := by
      rw [none]
      exact inner
    exact ⟨List.map_eq_nil_iff.mp (changes.symm.trans none), passes (not_refused stays)⟩
  · rw [← Bool.not_eq_true]
    intro found
    rw [left] at found
    obtain ⟨goal, _, _, _, _, inner, -⟩ := leads_above found near
    simp [passes (not_refused inner)] at failed
  · rw [← Bool.not_eq_true]
    intro found
    rw [left] at found
    obtain ⟨goal, _, _, _, _, inner, goes⟩ := leads_above found near
    have passed := not_refused inner
    have member : step ∈ path.moves := by simp [near.moves]
    rw [whole] at chain passed inner changes goes
    obtain ⟨place, leads, vacant⟩ := empty_of_makingAll chain sound
      (fun up => downward (by simp [near.moves, up])) (by rw [changes]; simpa using some) passed
    rw [inner.unique leads] at goes
    cases step with
    | here => simp [Path.moves] at member
    | up => exact absurd member downward
    | down name => exact absurd (vacant name) goes.view_ne_none

/-- Making the parent of a path makes the directories on the way to the path. -/
theorem prepareParent_paves (sound : s.scene.disk.Sound) (named : path.IsNamed) :
    ∃ made, (prepareParent path).Paves path s made := by
  cases parent : path.parent? with
  | none =>
    have skip : prepareParent path = pure () := by rw [prepareParent, parent]
    exact ⟨[], paves_of_still (by rw [skip]; rfl) (by rw [skip]; rfl)⟩
  | some outer =>
    have asks : prepareParent path = prepareDirectory outer := by rw [prepareParent, parent]
    rw [asks]
    rcases Path.isAbove_parent named parent with empty | ⟨step, near⟩
    · -- An empty parent is never made.
      obtain ⟨above, whole⟩ := outer.ancestors_eq_cons
      have nothing : s.scene.disk.makingAll outer.ancestors = { changes := [] } := by
        rw [whole, makingAll, if_pos (String.isEmpty_iff.mpr empty)]
      refine ⟨[], paves_of_still ?_ ?_⟩
      · rw [after_prepareDirectory, nothing]
        rfl
      · rw [outcome_prepareDirectory, nothing]
    · exact prepareDirectory_paves sound near

end Action

/-- A directory cannot be made where a path leads somewhere. -/
theorem Disk.makingDirectory_of_exists {d : Disk} {path : Path} (found : d.exists? path = true) :
    d.makingDirectory path = .error .alreadyExists := by
  obtain ⟨named, goal, left, goes, there⟩ := exists?_iff.mp found
  obtain ⟨count, steps⟩ := path.steps_withoutSlashes
  rw [steps] at goes
  -- The slashes at the end stay where the other steps lead.
  obtain ⟨between, middle, first, second⟩ := goes.split
  have same : middle = goal := by
    clear steps goes first
    induction count with
    | zero =>
      cases second
      rfl
    | succ count ih =>
      cases second with
      | here _ onward => exact ih onward
  exact makingDirectory_of_goes named first (same ▸ there)

namespace Collection

variable {directory : Path} {s : Session}

/-- The directory of a collection is not made: those on the way to it are at most, and it leads
nowhere unless going up from them leads to it. -/
structure Declined (directory : Path) (s : Session) (made : List Location) : Prop where
  /-- Nothing else is made. -/
  ledger : (makeDirectory directory).ledger s = made.map .makeDirectory
  /-- What was there is left alone. -/
  there : s.scene.disk.exists? directory = true → made = []
  /-- Nothing is there unless it was before or the path goes up. -/
  gone : s.scene.disk.exists? directory = false → Step.up ∉ directory.moves →
    ((makeDirectory directory).after s).scene.disk.exists? directory = false

/-- The directory of a collection is made behind those on the way to it. -/
structure Established (directory : Path) (s : Session) (made : List Location) (place : Location) :
    Prop where
  /-- It is made last. -/
  ledger : (makeDirectory directory).ledger s = made.map .makeDirectory ++ [.makeDirectory place]
  /-- Its place was free. -/
  fits : (s.scene.disk.applyAll (made.map .makeDirectory)).Fits place
  /-- Before that its path led nowhere. -/
  absent : (s.scene.disk.applyAll (made.map .makeDirectory)).exists? directory = false
  /-- Its path leads to it, and it is empty. -/
  founded : ((makeDirectory directory).after s).scene.disk.Founded directory place

/-- The directory of a collection is made, or declined. -/
theorem makeDirectory_cases (sound : s.scene.disk.Sound) (named : directory.IsNamed) :
    ∃ made, (prepareParent directory).Paves directory s made ∧
      ((∃ failure, (makeDirectory directory).outcome s = .error failure ∧
          Declined directory s made) ∨
        ∃ place, (makeDirectory directory).outcome s = .ok () ∧
          Established directory s made place) := by
  obtain ⟨made, paves⟩ := prepareParent_paves sound named
  refine ⟨made, paves, ?_⟩
  have after : ((prepareParent directory).after s).scene.disk =
      s.scene.disk.applyAll (made.map .makeDirectory) := paves.makes.applyAll_eq.symm
  -- A path that does not go up leads nowhere in the end if it did not before.
  have gone (same : (makeDirectory directory).after s = (prepareParent directory).after s)
      (absent : s.scene.disk.exists? directory = false) (downward : Step.up ∉ directory.moves) :
      ((makeDirectory directory).after s).scene.disk.exists? directory = false := by
    rw [same]
    by_cases none : made = []
    · rw [after, none]
      exact absent
    · exact paves.empty downward none
  have ledger (same : (makeDirectory directory).after s = (prepareParent directory).after s) :
      (makeDirectory directory).ledger s = made.map .makeDirectory :=
    (ledger_congr same).trans paves.ledger
  cases parent : (prepareParent directory).outcome s with
  | error failure =>
    have same : (makeDirectory directory).after s = (prepareParent directory).after s :=
      after_bind_of_error parent _
    exact Or.inl ⟨failure, outcome_bind_of_error parent _, ledger same,
      fun found => (paves.there found).1, gone same⟩
  | ok value =>
    cases making : ((prepareParent directory).after s).scene.disk.makingDirectory directory with
    | error refusal =>
      have same : (makeDirectory directory).after s = (prepareParent directory).after s := by
        unfold makeDirectory
        rw [after_bind_of_ok parent, after_bind_of_ok (outcome_look _ _), after_look, making]
        cases refusal <;> rfl
      obtain ⟨failure, failed⟩ :
          ∃ failure, (makeDirectory directory).outcome s = .error failure := by
        unfold makeDirectory
        rw [outcome_bind_of_ok parent, outcome_bind_of_ok (outcome_look _ _), after_look, making]
        cases refusal <;> exact ⟨_, rfl⟩
      exact Or.inl ⟨failure, failed, ledger same, fun found => (paves.there found).1, gone same⟩
    | ok change =>
      have soundParent := paves.makes.sound sound
      obtain ⟨outer, name, rfl, fits, ends, -⟩ := making_of_makingDirectory soundParent making
      have stays : (makeDirectory directory).after s =
          (perform (.makeDirectory (outer ++ [name]))).after ((prepareParent directory).after s) := by
        unfold makeDirectory
        rw [after_bind_of_ok parent, after_bind_of_ok (outcome_look _ _), after_look, making]
      have tree : ((makeDirectory directory).after s).scene.disk =
          ((prepareParent directory).after s).scene.disk.apply
            (.makeDirectory (outer ++ [name])) := by
        rw [stays]
        rfl
      refine Or.inr ⟨outer ++ [name], ?_, ?_, after ▸ fits, ?_, ?_⟩
      · unfold makeDirectory
        rw [outcome_bind_of_ok parent, outcome_bind_of_ok (outcome_look _ _), after_look, making]
        rfl
      · apply ledger_eq_of
        rw [stays]
        show .makeDirectory (outer ++ [name]) :: ((prepareParent directory).after s).changes = _
        rw [((quiet_prepareParent directory).recorded s).1, paves.ledger]
        simp
      · rw [← after, ← Bool.not_eq_true]
        intro found
        rw [makingDirectory_of_exists found] at making
        simp at making
      · rw [tree]
        have within : ((prepareParent directory).after s).scene.disk.Within
            (((prepareParent directory).after s).scene.disk.apply
              (.makeDirectory (outer ++ [name]))) :=
          (Makes.next fits .done).within
        obtain ⟨⟨front, left, split, goes⟩, stands⟩ := ends
        refine ⟨soundParent.makeDirectory fits, ?_, fun names some => ?_, named, outer, name, rfl,
          ⟨front, left, split, goes.mono within⟩, within.isDirectoryAt stands⟩
        · rw [← view_eq_directory, view_makeDirectory fits.vacant, if_pos rfl]
        · rw [view_makeDirectory fits.vacant, if_neg (by simpa using some)]
          exact soundParent.view_eq_none_of_append (view_eq_none.mpr fits.vacant)

/-- Behind the directories on the way to a collection its own is made. -/
theorem Established.makes_place {made : List Location} {place : Location}
    (paves : (prepareParent directory).Paves directory s made)
    (established : Established directory s made place) :
    ((prepareParent directory).after s).scene.disk.Makes [place]
      ((makeDirectory directory).after s).scene.disk := by
  have fits := established.fits
  rw [((quiet_makeDirectory _).recorded s).2, established.ledger, applyAll_append,
    paves.makes.applyAll_eq]
  rw [paves.makes.applyAll_eq] at fits
  exact .next fits .done

/-- What is made for a collection are directories, its own last. -/
theorem Established.makes {made : List Location} {place : Location}
    (paves : (prepareParent directory).Paves directory s made)
    (established : Established directory s made place) :
    s.scene.disk.Makes (made ++ [place]) ((makeDirectory directory).after s).scene.disk :=
  paves.makes.trans (established.makes_place paves)

end Collection

end DialectBench
