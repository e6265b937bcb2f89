import DialectBench.Proofs.Path.Moves

/-! The components of a path: those of its pieces behind a leading dot or the root, and the name at its end. -/

namespace DialectBench

/-- The component that a piece between slashes stands for; an empty piece and a dot stand for none. -/
def Component.ofPiece? (piece : List Char) : Option Component :=
  if piece = [] || piece = ['.'] then none
  else if piece = ['.', '.'] then some .parent
  else some (.name (String.ofList piece))

/-- A plain name between slashes is a component. -/
theorem IsPlain.ofPiece? {name : String} (plain : IsPlain name) :
    Component.ofPiece? name.toList = some (.name name) := by
  obtain ⟨some, dot, dots, -⟩ := plain
  simp [Component.ofPiece?, some, dot, dots]

/-- The spans of pieces stand for the components of the pieces, wherever they begin. -/
theorem map_component_spansFrom (offset : Nat) (pieces : List (List Char)) :
    (spansFrom offset pieces).map Span.component = pieces.filterMap Component.ofPiece? := by
  induction pieces generalizing offset with
  | nil => rfl
  | cons piece pieces ih =>
    rw [spansFrom, List.filterMap_cons, Component.ofPiece?]
    -- Both sides tell the pieces apart in the same way.
    split
    · exact ih _
    · split
      · rw [List.map_cons, ih]
      · rw [List.map_cons, ih]

namespace Path

variable {p : Path} {name : String}

/-- What the components of a path begin with besides those of its pieces: a leading dot, or the root. -/
def opening : List (List Char) → List Component
  | [] => []
  | first :: rest =>
    if first = ['.'] then [.current]
    else if first = [] && !rest.isEmpty then [.root]
    else []

/-- The components of a path are its opening and those of its pieces. -/
theorem components_eq (p : Path) :
    p.components = opening p.pieces ++ p.pieces.filterMap Component.ofPiece? := by
  have dot : Component.ofPiece? ['.'] = none := rfl
  have empty : Component.ofPiece? [] = none := rfl
  unfold components spans
  rw [show p.text.toList.splitOn '/' = p.pieces from rfl]
  -- The pieces behind a leading dot or the root are counted as they are without it.
  split
  next pieces split =>
    rw [split, List.map_cons, map_component_spansFrom, List.filterMap_cons_none dot]
    rfl
  next piece pieces split =>
    rw [split, List.map_cons, map_component_spansFrom, List.filterMap_cons_none empty]
    rfl
  next undotted rootless =>
    have none : opening p.pieces = [] := by
      cases pieces : p.pieces with
      | nil => rfl
      | cons first rest =>
        have plain : first ≠ ['.'] := fun same => undotted rest (same ▸ pieces)
        rw [opening, if_neg plain, if_neg]
        rw [Bool.and_eq_true, decide_eq_true_eq, Bool.not_eq_true', List.isEmpty_eq_false_iff]
        rintro ⟨rfl, more⟩
        obtain ⟨next, rest, rfl⟩ := List.exists_cons_of_ne_nil more
        exact rootless next rest pieces
    rw [none, List.nil_append, map_component_spansFrom]

/-- The opening of pieces is that of the first of them, up to any that is not empty. -/
theorem opening_append {before after : List (List Char)} {piece : List Char} (some : piece ≠ []) :
    opening (before ++ piece :: after) = opening (before ++ [piece]) := by
  cases before with
  | nil => simp [opening, some]
  | cons first before => simp [opening]

/-- A slash at the end of a path makes no difference to its components, and a name behind it none to what they begin
with. -/
theorem opening_trunk (named : p.IsNamed) (name : String) :
    opening (p.trunk.pieces ++ [name.toList]) ++ p.trunk.pieces.filterMap Component.ofPiece? =
      p.components := by
  rw [components_eq]
  by_cases slash : p.text.toList.getLast? = some '/'
  · -- The last piece is empty, and stands for no component.
    have pieces : p.pieces = p.trunk.pieces ++ [[]] := by
      rw [Path.pieces, toList_of_slash slash, splitOn_append_slash]
      rfl
    have empty : Component.ofPiece? [] = none := rfl
    obtain ⟨first, rest, trunk⟩ := List.exists_cons_of_ne_nil
      (List.splitOn_ne_nil '/' p.trunk.text.toList)
    rw [pieces, List.filterMap_append, List.filterMap_cons_none empty, List.filterMap_nil,
      List.append_nil]
    rw [← Path.pieces] at trunk
    rw [trunk]
    simp [opening]
  · have trunk : p.trunk = p := if_neg slash
    obtain ⟨first, rest, pieces⟩ := List.exists_cons_of_ne_nil
      (List.splitOn_ne_nil '/' p.text.toList)
    rw [← Path.pieces] at pieces
    -- An empty piece is not alone in a path with a text.
    have several : first = [] → rest ≠ [] := by
      rintro rfl rfl
      have text := intercalate_pieces p
      rw [pieces] at text
      exact named text.symm
    rw [trunk, pieces]
    by_cases empty : first = []
    · simp [opening, empty, several empty]
    · simp [opening, empty]

/-- A name alone is its only component. -/
theorem components_mk (plain : IsPlain name) : (Path.mk name).components = [.name name] := by
  have pieces : (Path.mk name).pieces = [name.toList] := splitOn_of_not_mem plain.2.2.2
  have bare : opening [name.toList] = [] := by
    obtain ⟨some, dot, -⟩ := plain
    simp [opening, dot]
  rw [components_eq, pieces, bare, List.filterMap_cons_some plain.ofPiece?]
  rfl

/-- A name behind a path is its last component. -/
theorem components_div (named : p.IsNamed) (plain : IsPlain name) :
    (p / name).components = p.components ++ [.name name] := by
  have pieces : (p / name).pieces = p.trunk.pieces ++ [name.toList] := by
    rw [Path.pieces, toList_div named plain, splitOn_append_slash, splitOn_of_not_mem plain.2.2.2]
    rfl
  rw [components_eq, pieces, List.filterMap_append, ← List.append_assoc, opening_trunk named,
    List.filterMap_cons_some plain.ofPiece?]
  rfl

/-- A name behind a path is its last component, also when the path has no text. -/
theorem components_behind (p : Path) (plain : IsPlain name) :
    (p / name).components = p.components ++ [.name name] := by
  by_cases named : p.IsNamed
  · exact components_div named plain
  · have text : p.text = "" := String.toList_injective (by simpa [IsNamed] using named)
    obtain rfl : p = ⟨""⟩ := eq_of_text text
    rw [div_of_not_isNamed named, components_mk plain]
    rfl

/-- The name that a path ends with is its last component. -/
theorem fileName?_eq (p : Path) :
    p.fileName? = p.components.getLast?.bind fun component =>
      match component with
      | .name text => some text
      | _ => none := by
  rw [fileName?, components, List.getLast?_map]
  cases p.spans.getLast? with
  | none => rfl
  | some span =>
    obtain ⟨component, start, stop⟩ := span
    cases component <;> rfl

/-- A path ends with the name that was put behind it. -/
theorem fileName?_div (named : p.IsNamed) (plain : IsPlain name) :
    (p / name).fileName? = some name := by
  rw [fileName?_eq, components_div named plain, List.getLast?_concat]
  rfl

/-- A component that is a name is plain. -/
theorem isPlain_of_mem_components (member : .name name ∈ p.components) : IsPlain name := by
  rw [components_eq] at member
  rcases List.mem_append.mp member with first | later
  · -- A leading dot and the root are no names.
    unfold opening at first
    split at first
    · cases first
    · split at first
      · simp at first
      · split at first <;> simp at first
  · obtain ⟨piece, inside, own⟩ := List.mem_filterMap.mp later
    have apart : '/' ∉ piece := not_mem_of_mem_splitOn inside
    unfold Component.ofPiece? at own
    split at own
    · cases own
    next some =>
      split at own
      · cases own
      next up =>
        obtain rfl := Component.name.inj (Option.some.inj own)
        simp only [Bool.or_eq_true, decide_eq_true_eq, not_or] at some
        rw [IsPlain, String.toList_ofList]
        exact ⟨some.1, some.2, up, apart⟩

/-- The name that a path ends with is plain. -/
theorem isPlain_fileName (ends : p.fileName? = some name) : IsPlain name := by
  rw [fileName?_eq] at ends
  obtain ⟨component, last, own⟩ := Option.bind_eq_some_iff.mp ends
  cases component with
  | name text =>
    obtain rfl := Option.some.inj own
    exact isPlain_of_mem_components (List.mem_of_getLast? last)
  | root | current | parent => cases own

end Path

end DialectBench
