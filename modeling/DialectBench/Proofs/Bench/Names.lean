import DialectBench.Bench.Execute
import DialectBench.Proofs.Bench.Leg
import DialectBench.Proofs.Path.Ancestors

/-! The names that collections and summaries bear in the directory of runs. -/

namespace DialectBench

/-- What stands behind a name in the text of a path is part of the name. -/
theorem Path.text_div_append (p : Path) {name : String} (plain : IsPlain name) (suffix : String) :
    (p / name).text ++ suffix = (p / (name ++ suffix)).text := by
  have relative := isAbsolute_of_isPlain plain
  have longer : (Path.mk (name ++ suffix)).isAbsolute = false := by
    rw [isAbsolute] at relative ⊢
    rw [String.toList_append, List.head?_append_of_ne_nil _ plain.1]
    exact relative
  show (p.join ⟨name⟩).text ++ suffix = (p.join ⟨name ++ suffix⟩).text
  unfold join
  rw [relative, longer, if_neg Bool.false_ne_true, if_neg Bool.false_ne_true]
  -- What is put in between depends on the end of the path alone.
  split
  · rfl
  · exact String.append_assoc ..
  · simp [String.append_assoc]

namespace Target

/-- The identifiers of the targets. -/
def identifiers : List String :=
  ["mysql", "tidb-tidbdialect", "tidb-mysqldialect", "tidb-coredialect"]

/-- The targets that are planned bear one of the identifiers. -/
theorem identifier_mem {bench : Bench} {target : Target} (planned : target ∈ bench.planned) :
    target.identifier ∈ identifiers := by
  have variants : target ∈ bench.variants → target.identifier ∈ identifiers := by
    intro listed
    unfold Bench.variants Target.variants at listed
    split at listed <;> simp only [List.mem_cons, List.not_mem_nil, or_false] at listed
    · simp [listed, community, identifiers]
    · simp [listed, mysqlDialect, identifiers]
    · simp [listed, core, identifiers]
    · rcases listed with rfl | rfl <;> simp [community, mysqlDialect, identifiers]
  unfold Bench.planned at planned
  split at planned
  · simp at planned
  · rcases List.mem_append.mp planned with first | later
    · split at first
      · simp at first
      · simp [List.mem_singleton.mp first, baseline, identifiers]
    · split at later
      · simp at later
      · exact variants later

variable {target : Target}

/-- The name of a collection of a target. -/
def collectionName (target : Target) (stamp : String) : String :=
  target.identifier ++ "-results" ++ ("-" ++ stamp)

/-- The name of a summary of a target. -/
def summaryName (target : Target) (stamp : String) : String :=
  target.identifier ++ "-summary" ++ ("-" ++ stamp ++ ".json")

/-- What names of collections and summaries begin with is plain, and is not the name of a JSON file. -/
theorem plain_starts (known : target.identifier ∈ identifiers) :
    IsPlain (target.identifier ++ "-results") ∧ IsPlain (target.identifier ++ "-summary") ∧
      (Path.mk (target.identifier ++ "-summary")).fileName? = some (target.identifier ++ "-summary") ∧
      Text.endsWith (target.identifier ++ "-summary") ".json" = false := by
  revert known
  generalize target.identifier = identifier
  revert identifier
  decide

/-- The directory of a collection is an entry of the directory of runs. -/
theorem directoryFor_eq (known : target.identifier ∈ identifiers) (runs : Path) (stamp : String) :
    Collection.directoryFor (target.collectionStart runs) stamp =
      runs / target.collectionName stamp := by
  refine Path.eq_of_text ?_
  rw [collectionName, ← Path.text_div_append runs (plain_starts known).1]
  simp [Collection.directoryFor, collectionStart, String.append_assoc]

/-- The file of a summary is an entry of the directory of runs. -/
theorem jsonPath_eq (known : target.identifier ∈ identifiers) (runs : Path) (stamp : String) :
    Summary.jsonPath (target.summaryStart runs) stamp = runs / target.summaryName stamp := by
  obtain ⟨-, plain, alone, other⟩ := plain_starts known
  have stamped : (⟨(target.summaryStart runs).text ++ "-" ++ stamp ++ ".json"⟩ : Path) =
      runs / target.summaryName stamp := by
    refine Path.eq_of_text ?_
    rw [summaryName, ← Path.text_div_append runs plain]
    simp [summaryStart, String.append_assoc]
  -- The start is not the name of a JSON file, so the stamp is added.
  unfold Summary.jsonPath
  split
  next name ends =>
    have same : name = target.identifier ++ "-summary" := by
      rw [summaryStart] at ends
      by_cases named : runs.IsNamed
      · rw [Path.fileName?_div named plain] at ends
        exact (Option.some.inj ends).symm
      · rw [Path.div_of_not_isNamed named, alone] at ends
        exact (Option.some.inj ends).symm
    rw [same, other, if_neg (by simp), stamped]
  next => exact stamped

section Names

variable {name stamp : String}

/-- With a stamp without slashes the name of a collection is plain. -/
theorem isPlain_collectionName (known : target.identifier ∈ identifiers)
    (slashless : '/' ∉ stamp.toList) : IsPlain (target.collectionName stamp) := by
  obtain ⟨⟨-, -, -, apart⟩, -⟩ := plain_starts known
  have dash : '-' ∈ (target.collectionName stamp).toList := by simp [collectionName]
  refine isPlain_of_mem dash (by decide) ?_
  simpa [collectionName, slashless] using apart

/-- With a stamp without slashes the name of a summary is plain. -/
theorem isPlain_summaryName (known : target.identifier ∈ identifiers)
    (slashless : '/' ∉ stamp.toList) : IsPlain (target.summaryName stamp) := by
  obtain ⟨-, ⟨-, -, -, apart⟩, -⟩ := plain_starts known
  have dash : '-' ∈ (target.summaryName stamp).toList := by simp [summaryName]
  refine isPlain_of_mem dash (by decide) ?_
  simpa [summaryName, slashless] using apart

/-- No summary of a target bears the name of a collection of it. -/
theorem summaryName_ne_collectionName (stamp other : String) :
    target.summaryName stamp ≠ target.collectionName other := by
  intro same
  have texts := congrArg String.toList same
  simp [summaryName, collectionName] at texts

/-- A name under which a target files what it brings home. -/
def Names (target : Target) (name : String) : Prop :=
  ∃ stamp : String, '/' ∉ stamp.toList ∧
    (name = target.collectionName stamp ∨ name = target.summaryName stamp)

/-- Such a name begins with the identifier and a dash. -/
theorem Names.starts (names : target.Names name) :
    target.identifier.toList ++ ['-'] <+: name.toList := by
  obtain ⟨stamp, -, rfl | rfl⟩ := names <;> simp [collectionName, summaryName]

/-- No two targets file anything under the same name. -/
theorem Names.identifier_eq {other : Target} (names : target.Names name)
    (again : other.Names name) (known : target.identifier ∈ identifiers)
    (listed : other.identifier ∈ identifiers) : target.identifier = other.identifier := by
  -- Of two beginnings of one name the one is a beginning of the other.
  have all : ∀ one ∈ identifiers, ∀ two ∈ identifiers,
      one.toList ++ ['-'] <+: two.toList ++ ['-'] ∨ two.toList ++ ['-'] <+: one.toList ++ ['-'] →
        one = two := by
    decide
  exact all _ known _ listed (List.prefix_or_prefix_of_prefix names.starts again.starts)

end Names

end Target

end DialectBench
