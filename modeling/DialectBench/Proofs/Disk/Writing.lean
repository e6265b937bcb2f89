import DialectBench.Proofs.Disk.Making
import DialectBench.Proofs.Disk.Clearing

/-! Where files are written by whatever path: a file fits there, or there is one. -/

namespace DialectBench

namespace Disk

variable {d e : Disk} {p : Path} {place goal : Location} {steps : List Step} {budget : Nat}

/-- Where a way that follows all links leads to nothing, a new entry fits. -/
theorem fits_of_follow (sound : d.Sound) (plain : ∀ name, .down name ∈ steps → IsPlain name)
    (some : steps = [] → d.find? place ≠ none)
    (followed : d.follow true budget place steps = .ok ⟨goal, none⟩) : d.Fits goal := by
  -- Behind a link fewer of them are left, and behind any other step fewer steps.
  induction budget using Nat.strongRecOn generalizing place steps with
  | ind budget fewer =>
    induction steps generalizing place with
    | nil =>
      rw [follow_nil] at followed
      exact absurd (Spot.mk.inj (Except.ok.inj followed)).2 (some rfl)
    | cons step rest ih =>
      obtain ⟨stands, strides⟩ := strides_of_follow followed
      have others : ∀ name, .down name ∈ rest → IsPlain name := fun name member =>
        plain name (List.mem_cons_of_mem _ member)
      have found {place : Location} (stands : d.isDirectoryAt place = true) :
          d.find? place ≠ none := by
        obtain ⟨modified, there⟩ := find?_of_isDirectoryAt stands
        simp [there]
      cases strides with
      | here onward => exact ih others (fun _ => found stands) onward
      | up onward => exact ih others (fun _ => found (sound.isDirectoryAt_dropLast stands)) onward
      | vacant there => exact sound.fits stands (plain _ (by simp)) there
      | down there solid onward => exact ih others (fun _ => by simp [there]) onward
      | @link _ _ _ target _ _ _ _ onward =>
        refine fewer _ (Nat.lt_succ_self _) (fun name member => ?_)
          (fun none => absurd (List.append_eq_nil_iff.mp none).1 (steps_ne_nil target)) onward
        exact (List.mem_append.mp member).elim Path.isPlain_of_mem_steps (others name)

/-- Where a file may be written, one fits, or there is one. -/
theorem takesFile_of_filePlace (sound : d.Sound) (writable : d.filePlace p = .ok goal) :
    d.TakesFile goal := by
  unfold filePlace at writable
  -- Either nothing is there, or a file that is replaced.
  split at writable
  next place resolved =>
    obtain rfl := Except.ok.inj writable
    rw [resolve_eq (isNamed_of_resolve resolved)] at resolved
    exact Or.inl (fits_of_follow sound (fun _ member => Path.isPlain_of_mem_steps member)
      (fun none => absurd none (steps_ne_nil p)) resolved)
  next place content mode time resolved =>
    obtain rfl := Except.ok.inj writable
    rw [resolve_eq (isNamed_of_resolve resolved)] at resolved
    exact Or.inr ⟨content, mode, time, (goes_of_follow resolved).2⟩
  all_goals simp at writable

/-- The way to where a file is written leads there, also after that. -/
theorem Puts.goes {content : Bytes} {node : Option Node} (puts : d.Puts goal content e)
    (free : ∀ n, d.find? goal = some n → n.isFile = true)
    (followed : d.follow true budget place steps = .ok ⟨goal, node⟩) :
    ∃ left, e.Goes budget place steps left goal := by
  obtain ⟨mode, modified, seen⟩ := puts.seen
  -- What is on the way is no file, so it is as it was.
  have other {inner : Location} {n : Node} (there : d.find? inner = some n)
      (solid : n.isFile = false) : e.view inner = d.view inner := by
    rw [seen, if_neg]
    rintro rfl
    rw [free n there] at solid
    cases solid
  have stays {inner : Location} (stands : d.isDirectoryAt inner = true) :
      e.isDirectoryAt inner = true := by
    obtain ⟨time, there⟩ := find?_of_isDirectoryAt stands
    exact view_eq_directory.mp ((other there rfl).trans (view_eq_directory.mpr stands))
  -- Behind a link fewer of them are left, and behind any other step fewer steps.
  induction budget using Nat.strongRecOn generalizing place steps with
  | ind budget fewer =>
    induction steps generalizing place with
    | nil =>
      rw [follow_nil] at followed
      obtain rfl := (Spot.mk.inj (Except.ok.inj followed)).1
      exact ⟨_, .done⟩
    | cons step rest ih =>
      obtain ⟨stands, strides⟩ := strides_of_follow followed
      cases strides with
      | here onward =>
        obtain ⟨left, goes⟩ := ih onward
        exact ⟨left, .here (stays stands) goes⟩
      | up onward =>
        obtain ⟨left, goes⟩ := ih onward
        exact ⟨left, .up (stays stands) goes⟩
      | halt _ kept => cases kept
      | vacant there =>
        exact ⟨_, .down (stays stands) ((seen _).trans (if_pos rfl)) (by simp) .done⟩
      | @down _ _ name n _ _ there solid onward =>
        obtain ⟨left, goes⟩ := ih onward
        rcases eq_or_ne (place ++ [name]) goal with same | apart
        · exact ⟨left, .down (stays stands) ((seen _).trans (if_pos same)) (by simp) goes⟩
        · obtain ⟨here, solid'⟩ := view_of_find? there solid
          exact ⟨left, .down (stays stands) (((seen _).trans (if_neg apart)).trans here) solid' goes⟩
      | @link _ _ _ target _ _ there through onward =>
        obtain ⟨left, goes⟩ := fewer _ (Nat.lt_succ_self _) onward
        exact ⟨left, .link (stays stands) ((other there rfl).trans (view_eq_link.mpr there)) goes⟩

/-- A file that has been written is read by the path that it was written by. -/
theorem Puts.read_eq {content : Bytes} (sound : d.Sound) (puts : d.Puts goal content e)
    (writable : d.filePlace p = .ok goal) : e.read p = .ok content := by
  obtain ⟨mode, modified, seen⟩ := puts.seen
  have held : e.find? goal = some (.file content mode modified) :=
    view_eq_file.mp ((seen goal).trans (if_pos rfl))
  have same : e.start p = d.start p := by rw [start, start, puts.current]
  have free : ∀ n, d.find? goal = some n → n.isFile = true := fun n there => by
    rcases takesFile_of_filePlace sound writable with fits | ⟨_, _, _, file⟩
    · rw [fits.vacant] at there
      cases there
    · rw [file] at there
      cases there
      rfl
  have reads {node : Option Node} (resolved : d.resolve p true = .ok ⟨goal, node⟩) :
      e.read p = .ok content := by
    have named := isNamed_of_resolve resolved
    rw [resolve_eq named] at resolved
    obtain ⟨left, goes⟩ := puts.goes free resolved
    rw [← same] at goes
    rw [read, goes.entry_eq named held]
  unfold filePlace at writable
  split at writable
  next resolved => exact reads (Except.ok.inj writable ▸ resolved)
  next resolved => exact reads (Except.ok.inj writable ▸ resolved)
  all_goals simp at writable

/-- A copy of a file leaves a sound tree. -/
theorem sound_of_copying {source : Path} {change : Change} (sound : d.Sound)
    (copying : d.copying source p = .ok change) : (d.apply change).Sound := by
  unfold Disk.copying at copying
  split at copying
  · simp at copying
  next content mode _ _ =>
    cases writable : d.filePlace p with
    | error refusal => simp [writable, Except.map] at copying
    | ok goal =>
      rw [writable] at copying
      obtain rfl := Except.ok.inj copying
      exact (sound.puts_copyFile (takesFile_of_filePlace sound writable) content mode).sound
  · simp at copying

end Disk

end DialectBench
