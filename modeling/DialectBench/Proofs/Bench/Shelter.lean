import DialectBench.Proofs.Bench.Names
import DialectBench.Proofs.Bench.Sweep
import DialectBench.Proofs.Collection.Growth
import DialectBench.Proofs.Disk.Trail

/-! What a comparison makes, writes and removes by itself leaves alone what its configuration is read
by. -/

namespace DialectBench

open Disk Action

/-- What the configuration says of a database depends on its text alone. -/
theorem Dialect.checked_congr {d e : Disk} {workspace : Path}
    (same : e.readText (configurationPath workspace) = d.readText (configurationPath workspace))
    (backend : Backend) : checked e workspace backend = checked d workspace backend := by
  unfold checked settings
  simp only [same]

/-- A configuration that fits can be read. -/
theorem Dialect.exists_read_of_checked {d : Disk} {workspace : Path} {backend : Backend}
    {found : ConfiguredDialect} (fits : checked d workspace backend = .ok found) :
    ∃ content, d.read (configurationPath workspace) = .ok content := by
  unfold checked settings at fits
  cases text : d.readText (configurationPath workspace) with
  | error refusal => simp [text] at fits
  | ok content =>
    unfold Disk.readText at text
    split at text
    next content read => exact ⟨content, read⟩
    · cases text

namespace Action

variable {path : Path} {s : Session} {doomed : Location → Prop}

/-- Removing a tree takes away what the path leads to and all below it, and nothing else. -/
theorem thins_removeIfPresent (sound : s.scene.disk.Sound)
    (only : ∀ place node, s.scene.disk.resolve path false = .ok ⟨place, some node⟩ →
      ∀ inner, place <+: inner → doomed inner) :
    ((removeIfPresent path).after s).scene.disk.Sound ∧
      s.scene.disk.Thins doomed ((removeIfPresent path).after s).scene.disk := by
  have removed : ((deleteTree path).after s).scene.disk.Sound ∧
      s.scene.disk.Thins doomed ((deleteTree path).after s).scene.disk := by
    cases removing : s.scene.disk.removingTree path with
    | error refusal =>
      rw [(deleteTree_of_error removing).2]
      exact ⟨sound, .refl _⟩
    | ok changes =>
      obtain ⟨place, node, resolved, rfl⟩ := exists_deletions sound removing
      rw [(deleteTree_of_ok removing).2, disk_performAll]
      exact (clear_deletions sound place).imp_right (·.imp (only place node resolved))
  unfold removeIfPresent
  rw [after_bind_of_ok (outcome_look _ s), after_look]
  split
  · cases deleted : (deleteTree path).outcome s with
    | ok value => rwa [after_bind_of_ok deleted]
    | error failure => rwa [after_bind_of_error deleted]
  · exact ⟨sound, .refl _⟩

end Action

namespace Bench

open Suite

/-- The places that are looked at when the configuration of the workspace is read in a tree. -/
def way (bench : Bench) (d : Disk) : List Location :=
  d.trail (Dialect.configurationPath bench.lab.workspace)

/-- A name that the summary of a planned target may bear. -/
def NamesSummary (bench : Bench) (name : String) : Prop :=
  ∃ target ∈ bench.planned, ∃ stamp : String, '/' ∉ stamp.toList ∧ name = target.summaryName stamp

/-- Nothing that the configuration is read by bears the name of a summary. -/
def Unnamed (bench : Bench) (base : Disk) : Prop :=
  ∀ place ∈ bench.way base, ∀ outer name, bench.NamesSummary name → place ≠ outer ++ [name]

/-- The configuration is read in a tree by the same entries as in another one. -/
structure Keeps (bench : Bench) (base d : Disk) : Prop where
  /-- The current directory is the same. -/
  current : d.current = base.current
  /-- What is looked at is the same. -/
  seen : ∀ place ∈ bench.way base, d.view place = base.view place

/-- No directory of results in the workspace holds what the configuration is read by. -/
def Beside (bench : Bench) (base d : Disk) : Prop :=
  ∀ home, d.Leads bench.lab.workspace home → ∀ results, isTransientWay results = true →
    ∀ place ∈ bench.way base, ¬ home ++ results <+: place

/-- The cache of the build is missing, or it can be removed and holds nothing that the configuration is
read by. -/
def Yields (bench : Bench) (base d : Disk) : Prop :=
  d.exists? bench.lab.gradleCache = true →
    ∃ place node, d.resolve bench.lab.gradleCache false = .ok ⟨place, some node⟩ ∧
      node.isFile = false ∧ ∀ inner ∈ bench.way base, ¬ place <+: inner

/-- In a sound tree the configuration is read as in another one, and no link bears the name of a
summary. -/
structure Shelters (bench : Bench) (base d : Disk) : Prop where
  /-- The entries of the tree fit together. -/
  sound : d.Sound
  /-- The configuration is read as before. -/
  keeps : bench.Keeps base d
  /-- A summary is written where its path says. -/
  unlinked : d.Unlinked bench.NamesSummary

variable {bench : Bench} {base d e : Disk} {s : Session} {target : Target}
  {doomed : Location → Prop}

/-- The configuration fits as before where it is read as before. -/
theorem Keeps.checked_eq (keeps : bench.Keeps base d) (backend : Backend) :
    Dialect.checked d bench.lab.workspace backend =
      Dialect.checked base bench.lab.workspace backend :=
  Dialect.checked_congr (readText_congr keeps.current keeps.seen) backend

/-- What is taken away beside the way to the configuration leaves it as it is. -/
theorem Shelters.thin (shelters : bench.Shelters base d) (sound : e.Sound) (thins : d.Thins doomed e)
    (beside : ∀ place ∈ bench.way base, ¬ doomed place) : bench.Shelters base e where
  sound := sound
  keeps := ⟨thins.current.trans shelters.keeps.current, fun place member =>
    ((thins.seen place).resolve_right fun lost => beside place member lost.1).trans
      (shelters.keeps.seen place member)⟩
  unlinked := shelters.unlinked.of_linked fun place _ => thins.within place _

/-- In a tree that has lost entries the directories of results are beside what they were beside
before. -/
theorem Beside.thin (beside : bench.Beside base d) (thins : d.Thins doomed e) :
    bench.Beside base e := fun home leads =>
  beside home (leads.mono thins.within thins.current.symm)

/-- A cache that yields is removed, and the configuration stays as it is. -/
theorem Shelters.removeCache (shelters : bench.Shelters base s.scene.disk)
    (beside : bench.Beside base s.scene.disk) (yields : bench.Yields base s.scene.disk) :
    (∃ removed, (removeIfPresent bench.lab.gradleCache).outcome s = .ok removed) ∧
      bench.Shelters base ((removeIfPresent bench.lab.gradleCache).after s).scene.disk ∧
      bench.Beside base ((removeIfPresent bench.lab.gradleCache).after s).scene.disk := by
  cases there : s.scene.disk.exists? bench.lab.gradleCache with
  | false =>
    unfold removeIfPresent
    rw [outcome_bind_of_ok (outcome_look _ s), after_bind_of_ok (outcome_look _ s), after_look, there]
    exact ⟨⟨false, rfl⟩, shelters, beside⟩
  | true =>
    obtain ⟨place, node, resolved, solid, apart⟩ := yields there
    have removing : ∃ changes, s.scene.disk.removingTree bench.lab.gradleCache = .ok changes := by
      unfold removingTree
      rw [resolved]
      cases node with
      | file => cases solid
      | directory | link => exact ⟨_, rfl⟩
    obtain ⟨changes, removing⟩ := removing
    -- The path leads to one place, and that holds nothing the configuration is read by.
    have removed : _ ∧ s.scene.disk.Thins (place <+: ·) _ :=
      thins_removeIfPresent shelters.sound fun other node again inner inside => by
        rw [resolved] at again
        obtain ⟨rfl, -⟩ := Spot.mk.inj (Except.ok.inj again)
        exact inside
    obtain ⟨sound, thins⟩ := removed
    exact ⟨⟨true, (removeIfPresent_of_ok there removing).1⟩, shelters.thin sound thins apart,
      beside.thin thins⟩

/-- Directories of a workspace that are removed as far as possible take away only what was in them. -/
theorem thins_removeAll {home : Location} {all ways : List (List String)} {first : Disk} {root : Path}
    (leads : first.Leads root home) (fits : first.Sound)
    (listed : ∀ way ∈ all, way ≠ [] ∧ first.isDirectoryAt (home ++ way) = true) (some : ways ⊆ all)
    (sound : s.scene.disk.Sound)
    (thins : first.Thins (fun inner => ∃ way ∈ all, home ++ way <+: inner) s.scene.disk) :
    ((removeAll (ways.map root.extend)).after s).scene.disk.Sound ∧
      first.Thins (fun inner => ∃ way ∈ all, home ++ way <+: inner)
        ((removeAll (ways.map root.extend)).after s).scene.disk := by
  -- What was removed before only makes the tree smaller, so every path still leads where it did.
  induction ways generalizing s with
  | nil => exact ⟨sound, thins⟩
  | cons way ways ih =>
    obtain ⟨own, others⟩ := List.cons_subset.mp some
    obtain ⟨t, tree, same⟩ := after_removeAll_cons (root.extend way) (ways.map root.extend) s
    have removed : ((removeIfPresent (root.extend way)).after s).scene.disk.Sound ∧
        s.scene.disk.Thins (fun inner => ∃ way ∈ all, home ++ way <+: inner) _ :=
      thins_removeIfPresent sound fun place node resolved inner inside => by
        obtain ⟨other, before⟩ := resolve_mono thins.within thins.current.symm resolved
        rw [leads.resolve_directory fits (listed way own).1 (listed way own).2] at before
        obtain ⟨rfl, -⟩ := Spot.mk.inj (Except.ok.inj before)
        exact ⟨way, own, inside⟩
    rw [← tree] at removed
    rw [List.map_cons, same]
    exact ih others removed.1 (thins.trans removed.2)

/-- Cleaning the workspace takes away only what is in the directories that are looked for. -/
theorem thins_cleanResults_of_leads {home : Location} (sound : s.scene.disk.Sound)
    (leads : s.scene.disk.Leads bench.lab.workspace home) (real : bench.options.dryRun = false) :
    (bench.cleanResults.after s).scene.disk.Sound ∧
      s.scene.disk.Thins (fun inner => ∃ way ∈ transientWays s.scene.disk bench.lab.workspace,
        home ++ way <+: inner) (bench.cleanResults.after s).scene.disk := by
  rw [bench.after_cleanResults real]
  exact thins_removeAll leads sound (fun way => mem_transientWays sound leads)
    (List.Subset.refl _) sound (.refl _)

/-- Cleaning the workspace takes away only what is in its directories of results. -/
theorem thins_cleanResults (sound : s.scene.disk.Sound) (real : bench.options.dryRun = false) :
    (bench.cleanResults.after s).scene.disk.Sound ∧
      s.scene.disk.Thins (fun inner => ∃ home, s.scene.disk.Leads bench.lab.workspace home ∧
        ∃ results, isTransientWay results = true ∧ home ++ results <+: inner)
        (bench.cleanResults.after s).scene.disk := by
  by_cases there : ∃ home, s.scene.disk.Leads bench.lab.workspace home
  · obtain ⟨home, leads⟩ := there
    refine (thins_cleanResults_of_leads sound leads real).imp_right (·.imp ?_)
    rintro inner ⟨way, chosen, inside⟩
    obtain none | ⟨-, transient⟩ := mem_outermost chosen
    · cases none
    · exact ⟨home, leads, way, transient, inside⟩
  · -- Without a workspace there is nothing to clean.
    rw [bench.after_cleanResults real, transientWays_of_not_leads (not_exists.mp there)]
    exact ⟨sound, .refl _⟩

/-- Cleaning the workspace leaves the configuration as it is. -/
theorem Shelters.cleanResults (shelters : bench.Shelters base s.scene.disk)
    (beside : bench.Beside base s.scene.disk) (real : bench.options.dryRun = false) :
    bench.Shelters base (bench.cleanResults.after s).scene.disk ∧
      bench.Beside base (bench.cleanResults.after s).scene.disk := by
  obtain ⟨sound, thins⟩ := thins_cleanResults shelters.sound real
  refine ⟨shelters.thin sound thins ?_, beside.thin thins⟩
  rintro place member ⟨home, leads, results, transient, inside⟩
  exact beside home leads results transient place member inside

/-- In a tree that has grown the configuration is read as before, if all that it is read by was there. -/
theorem Shelters.grow (shelters : bench.Shelters base d) (grows : d.Grows e)
    (there : ∀ place ∈ bench.way base, base.view place ≠ none) : bench.Shelters base e where
  sound := grows.sound
  keeps := ⟨grows.current.trans shelters.keeps.current, fun place member => by
    rw [grows.within.view_eq ((shelters.keeps.seen place member).symm ▸ there place member),
      shelters.keeps.seen place member]⟩
  unlinked := shelters.unlinked.of_linked grows.linked

/-- Summarizing leaves the configuration as it is, if nothing that it is read by bears the name of a
summary. -/
theorem Shelters.keeps_summarize (shelters : bench.Shelters base s.scene.disk)
    (there : ∀ place ∈ bench.way base, base.view place ≠ none)
    (unnamed : bench.Unnamed base) (planned : target ∈ bench.planned) (collection : Path)
    {stamp : String} (slashless : '/' ∉ stamp.toList) :
    bench.Keeps base
      ((Summary.summarize (bench.summaryRequest target collection stamp)).after s).scene.disk := by
  have known := Target.identifier_mem planned
  have names : bench.NamesSummary (target.summaryName stamp) := ⟨target, planned, stamp, slashless, rfl⟩
  obtain ⟨front, moves⟩ : ∃ front, (Summary.jsonPath (target.summaryStart bench.lab.runs) stamp).moves =
      front ++ [.down (target.summaryName stamp)] := by
    rw [Target.jsonPath_eq known]
    exact Path.moves_div _ (Target.isPlain_summaryName known slashless)
  have unlinked : s.scene.disk.Unlinked (· = target.summaryName stamp) := fun place name same =>
    shelters.unlinked place name (same ▸ names)
  have writes : s.scene.disk.Writes (target.summaryName stamp)
      ((Summary.summarize (bench.summaryRequest target collection stamp)).after s).scene.disk :=
    Summary.writes_summarize shelters.sound rfl rfl unlinked moves
  refine ⟨writes.current.trans shelters.keeps.current, fun place member => ?_⟩
  rw [writes.kept place (fun outer => unnamed place member outer _ names)
    ((shelters.keeps.seen place member).symm ▸ there place member), shelters.keeps.seen place member]

end Bench

end DialectBench
