import DialectBench.Disk.Change

/-! The moves of a path: what its steps come to, when names are put behind it and when components are
taken away from its end. -/

namespace DialectBench

/-- A name that an entry of a directory can have. -/
def IsPlain (name : String) : Prop :=
  name.toList ≠ [] ∧ name.toList ≠ ['.'] ∧ name.toList ≠ ['.', '.'] ∧ '/' ∉ name.toList

instance : DecidablePred IsPlain := fun _ => inferInstanceAs (Decidable (_ ∧ _))

/-- A step that leads somewhere else. -/
def Step.isMove : Step → Bool
  | here => false
  | _ => true

/-- Staying is no move. -/
@[simp] theorem Step.isMove_here : Step.here.isMove = false := rfl

/-- Going up is a move. -/
@[simp] theorem Step.isMove_up : Step.up.isMove = true := rfl

/-- Going down is a move. -/
@[simp] theorem Step.isMove_down (name : String) : (Step.down name).isMove = true := rfl

/-- A plain name between slashes is a step down. -/
theorem IsPlain.ofPiece {name : String} (plain : IsPlain name) :
    Step.ofPiece name.toList = .down name := by
  obtain ⟨some, dot, dots, -⟩ := plain
  simp [Step.ofPiece, some, dot, dots]

/-- A name in which another character than a dot stands, and no slash, is plain. -/
theorem isPlain_of_mem {name : String} {c : Char} (member : c ∈ name.toList) (apart : c ≠ '.')
    (slashless : '/' ∉ name.toList) : IsPlain name := by
  refine ⟨List.ne_nil_of_mem member, ?_, ?_, slashless⟩
  all_goals
    intro dots
    rw [dots] at member
    simp [apart] at member

/-- The texts on both sides of a slash are split on their own. -/
theorem splitOn_append_slash (front back : List Char) :
    (front ++ '/' :: back).splitOn '/' = front.splitOn '/' ++ back.splitOn '/' := by
  simp only [List.splitOn_eq_splitOnP]
  exact List.splitOnP_append_cons front back rfl

/-- A text without a slash is one piece. -/
theorem splitOn_of_not_mem {text : List Char} (apart : '/' ∉ text) :
    text.splitOn '/' = [text] := by
  rw [List.splitOn_eq_splitOnP]
  refine List.splitOnP_eq_singleton fun c member => ?_
  simp only [beq_eq_false_iff_ne]
  rintro rfl
  exact apart member

/-- No piece between slashes has a slash. -/
theorem not_mem_of_mem_splitOn {text piece : List Char} (member : piece ∈ text.splitOn '/') :
    '/' ∉ piece := by
  rw [List.splitOn_eq_splitOnP] at member
  -- The first piece grows with each character that is no slash.
  induction text generalizing piece with
  | nil =>
    rw [List.splitOnP_nil, List.mem_singleton] at member
    simp [member]
  | cons c rest ih =>
    rw [List.splitOnP_cons_eq_if_modifyHead] at member
    by_cases slash : c = '/'
    · rw [if_pos (by simpa using slash)] at member
      rcases List.mem_cons.mp member with rfl | later
      · simp
      · exact ih later
    · rw [if_neg (by simpa using slash)] at member
      cases pieces : List.splitOnP (· == '/') rest with
      | nil => exact absurd pieces (List.splitOnP_ne_nil _ _)
      | cons first others =>
        rw [pieces, List.modifyHead_cons] at member
        rcases List.mem_cons.mp member with rfl | later
        · have apart := ih (pieces ▸ List.mem_cons_self)
          simpa using ⟨fun same => slash same.symm, apart⟩
        · exact ih (pieces ▸ List.mem_cons_of_mem _ later)

namespace Path

/-- The pieces of a path between slashes. -/
def pieces (p : Path) : List (List Char) :=
  p.text.toList.splitOn '/'

/-- The moves of a path: its steps without those that stay in a directory. -/
def moves (p : Path) : List Step :=
  p.steps.filter Step.isMove

/-- A path has a text. -/
def IsNamed (p : Path) : Prop := p.text.toList ≠ []

/-- A path with a text is not empty. -/
theorem IsNamed.isEmpty_eq {p : Path} (named : p.IsNamed) : p.text.isEmpty = false := by
  cases empty : p.text.isEmpty with
  | false => rfl
  | true =>
    rw [String.isEmpty_iff] at empty
    exact absurd (by simp [empty]) named

/-- The steps of a path are those of its pieces. -/
theorem steps_eq (p : Path) : p.steps = p.pieces.map Step.ofPiece := rfl

/-- The pieces of a path and the slashes between them make its text. -/
theorem intercalate_pieces (p : Path) : ['/'].intercalate p.pieces = p.text.toList :=
  List.intercalate_splitOn '/'

/-- Paths with the same text are the same. -/
theorem eq_of_text {a b : Path} (same : a.text = b.text) : a = b := by
  cases a
  cases b
  exact congrArg mk same

/-- The path that pieces make. -/
def ofPieces (pieces : List (List Char)) : Path :=
  ⟨String.ofList (['/'].intercalate pieces)⟩

/-- Pieces without slashes are those of the path that they make. -/
theorem pieces_ofPieces {pieces : List (List Char)} (apart : ∀ piece ∈ pieces, '/' ∉ piece)
    (some : pieces ≠ []) : (ofPieces pieces).pieces = pieces := by
  rw [Path.pieces, ofPieces, String.toList_ofList]
  exact List.splitOn_intercalate '/' apart some

section Behind

variable {p : Path} {name : String} {names : List String}

/-- A path without a slash at its end. -/
def trunk (p : Path) : Path :=
  if p.text.toList.getLast? = some '/' then ⟨String.ofList p.text.toList.dropLast⟩ else p

/-- A path that ends with a slash is its trunk and that slash. -/
theorem toList_of_slash (slash : p.text.toList.getLast? = some '/') :
    p.text.toList = p.trunk.text.toList ++ ['/'] := by
  rw [trunk, if_pos slash, String.toList_ofList]
  obtain ⟨front, same⟩ := List.getLast?_eq_some_iff.mp slash
  simp [same]

/-- A slash at the end of a path is no move. -/
theorem moves_trunk (p : Path) : p.trunk.moves = p.moves := by
  by_cases slash : p.text.toList.getLast? = some '/'
  · -- The last piece is empty, and stands for a step that stays where it is.
    have pieces : p.pieces = p.trunk.pieces ++ [[]] := by
      rw [Path.pieces, toList_of_slash slash, splitOn_append_slash]
      rfl
    rw [moves, moves, steps_eq p, pieces, List.map_append, List.filter_append, ← steps_eq]
    simp [Step.ofPiece]
  · rw [trunk, if_neg slash]

/-- A plain name is no absolute path. -/
theorem isAbsolute_of_isPlain (plain : IsPlain name) : (Path.mk name).isAbsolute = false := by
  obtain ⟨-, -, -, apart⟩ := plain
  rw [isAbsolute]
  cases text : name.toList with
  | nil => simp
  | cons c rest =>
    have other : c ≠ '/' := by
      rintro rfl
      exact apart (by simp [text])
    simpa using other

/-- A relative path is put behind the trunk of another one and a slash. -/
theorem toList_join {rest : Path} (named : p.IsNamed) (relative : rest.isAbsolute = false) :
    (p.join rest).text.toList = p.trunk.text.toList ++ '/' :: rest.text.toList := by
  unfold join
  rw [relative, if_neg Bool.false_ne_true]
  -- A slash is put in between unless the path ends with one.
  split
  next none => exact absurd (List.getLast?_eq_none_iff.mp none) named
  next slash =>
    rw [String.toList_append, toList_of_slash slash]
    simp
  next c other last =>
    have rough : p.text.toList.getLast? ≠ some '/' := by
      rw [last]
      rintro same
      exact other (Option.some.inj same)
    rw [trunk, if_neg rough]
    simp

/-- A name is put behind the trunk of a path and a slash. -/
theorem toList_div (named : p.IsNamed) (plain : IsPlain name) :
    (p / name).text.toList = p.trunk.text.toList ++ '/' :: name.toList :=
  toList_join named (isAbsolute_of_isPlain plain)

/-- A path with a name behind it has a text. -/
theorem isNamed_div (named : p.IsNamed) (plain : IsPlain name) : (p / name).IsNamed := by
  rw [IsNamed, toList_div named plain]
  simp

/-- A plain name behind a path is the last step. -/
theorem steps_div (named : p.IsNamed) (plain : IsPlain name) :
    (p / name).steps = p.trunk.steps ++ [.down name] := by
  rw [steps_eq, steps_eq, pieces, toList_div named plain, splitOn_append_slash,
    splitOn_of_not_mem plain.2.2.2, List.map_append, List.map_singleton, plain.ofPiece]
  rfl

/-- A path that ends with a plain name is its own trunk. -/
theorem trunk_div (named : p.IsNamed) (plain : IsPlain name) : (p / name).trunk = p / name := by
  have other : (p / name).text.toList.getLast? ≠ some '/' := by
    rw [toList_div named plain]
    obtain ⟨some, -, -, apart⟩ := plain
    obtain ⟨front, last, same⟩ := List.eq_nil_or_concat name.toList |>.resolve_left some
    rw [same, List.concat_eq_append] at apart ⊢
    rw [← List.cons_append, ← List.append_assoc, List.getLast?_concat]
    intro slash
    exact apart (by simp [Option.some.inj slash])
  rw [trunk, if_neg other]

/-- Where a path starts is decided by its first character, so a name behind it changes nothing. -/
theorem isAbsolute_div (named : p.IsNamed) (plain : IsPlain name) :
    (p / name).isAbsolute = p.isAbsolute := by
  rw [isAbsolute, isAbsolute, toList_div named plain]
  by_cases slash : p.text.toList.getLast? = some '/'
  · rw [toList_of_slash slash]
    cases p.trunk.text.toList <;> rfl
  · rw [trunk, if_neg slash]
    cases text : p.text.toList with
    | nil => exact absurd text named
    | cons c rest => rfl

/-- A path with names behind it has a text. -/
theorem isNamed_extend (named : p.IsNamed) (plain : ∀ name ∈ names, IsPlain name) :
    (p.extend names).IsNamed := by
  -- The names are put behind the path one by one.
  induction names generalizing p with
  | nil => exact named
  | cons name names ih =>
    obtain ⟨first, others⟩ := List.forall_mem_cons.mp plain
    exact ih (isNamed_div named first) others

/-- Names behind a path do not change where it starts. -/
theorem isAbsolute_extend (named : p.IsNamed) (plain : ∀ name ∈ names, IsPlain name) :
    (p.extend names).isAbsolute = p.isAbsolute := by
  induction names generalizing p with
  | nil => rfl
  | cons name names ih =>
    obtain ⟨first, others⟩ := List.forall_mem_cons.mp plain
    exact (ih (isNamed_div named first) others).trans (isAbsolute_div named first)

/-- Plain names behind a path are steps down at its end. -/
theorem steps_extend (named : p.IsNamed) (plain : ∀ name ∈ names, IsPlain name)
    (some : names ≠ []) : (p.extend names).steps = p.trunk.steps ++ names.map .down := by
  -- The names are put behind the path one after the other, each behind a slash of its own.
  induction names generalizing p with
  | nil => exact absurd rfl some
  | cons name names ih =>
    obtain ⟨first, others⟩ := List.forall_mem_cons.mp plain
    cases names with
    | nil => exact steps_div named first
    | cons second names =>
      have rest := ih (isNamed_div named first) others (by simp)
      rw [trunk_div named first, steps_div named first] at rest
      show ((p / name).extend (second :: names)).steps = _
      rw [rest]
      simp

/-- Plain names behind a path are moves down at its end. -/
theorem moves_extend (named : p.IsNamed) (plain : ∀ name ∈ names, IsPlain name) :
    (p.extend names).moves = p.moves ++ names.map .down := by
  cases names with
  | nil => simp [extend]
  | cons name names =>
    -- Every name is a move, so none is filtered out.
    have down : ∀ names : List String, (names.map Step.down).filter Step.isMove = names.map .down := by
      intro names
      rw [List.filter_eq_self]
      rintro step member
      obtain ⟨name, -, rfl⟩ := List.mem_map.mp member
      rfl
    rw [moves, steps_extend named plain (by simp), List.filter_append, down]
    show p.trunk.moves ++ _ = _
    rw [moves_trunk]

/-- Names are put behind names. -/
theorem extend_append (p : Path) (first second : List String) :
    p.extend (first ++ second) = (p.extend first).extend second := by
  rw [extend, List.foldl_append]
  rfl

section Join

variable {rest : Path}

/-- An absolute path stands alone. -/
theorem join_of_absolute (absolute : rest.isAbsolute = true) : p.join rest = rest :=
  if_pos absolute

/-- A path behind another one has a text if it had one before. -/
theorem isNamed_join (named : p.IsNamed) (some : rest.IsNamed) : (p.join rest).IsNamed := by
  cases absolute : rest.isAbsolute with
  | true => rwa [join_of_absolute absolute]
  | false =>
    rw [IsNamed, toList_join named absolute]
    simp

/-- A relative path behind another one ends as it did before. -/
theorem toList_trunk_join (named : p.IsNamed) (some : rest.IsNamed)
    (relative : rest.isAbsolute = false) :
    (p.join rest).trunk.text.toList = p.trunk.text.toList ++ '/' :: rest.trunk.text.toList := by
  -- Both paths end with the same character, so both have a slash to take off or neither has.
  have last : (p.join rest).text.toList.getLast? = rest.text.toList.getLast? := by
    obtain ⟨c, others, text⟩ := List.exists_cons_of_ne_nil some
    rw [toList_join named relative, text, List.getLast?_append, List.getLast?_cons_cons,
      List.getLast?_cons, Option.some_or]
  by_cases slash : rest.text.toList.getLast? = Option.some '/'
  · have whole := toList_of_slash (last.trans slash)
    rw [toList_join named relative, toList_of_slash slash, ← List.cons_append,
      ← List.append_assoc] at whole
    exact (List.append_inj' whole rfl).1.symm
  · rw [trunk, if_neg (last ▸ slash), toList_join named relative]
    rw [show rest.trunk = rest from if_neg slash]

/-- It makes no difference whether a name is put behind a path before or after that is put behind
another one. -/
theorem join_div (named : p.IsNamed) (some : rest.IsNamed) (plain : IsPlain name) :
    p.join (rest / name) = p.join rest / name := by
  cases absolute : rest.isAbsolute with
  | true => rw [join_of_absolute absolute, join_of_absolute ((isAbsolute_div some plain).trans absolute)]
  | false =>
    have relative := (isAbsolute_div some plain).trans absolute
    refine eq_of_text (String.toList_injective ?_)
    rw [toList_join named relative, toList_div some plain, toList_div (isNamed_join named some) plain,
      toList_trunk_join named some absolute]
    simp

/-- It makes no difference whether names are put behind a path before or after that is put behind
another one. -/
theorem join_extend (named : p.IsNamed) (some : rest.IsNamed)
    (plain : ∀ name ∈ names, IsPlain name) : p.join (rest.extend names) = (p.join rest).extend names := by
  induction names generalizing rest with
  | nil => rfl
  | cons name names ih =>
    obtain ⟨first, others⟩ := List.forall_mem_cons.mp plain
    refine (ih (isNamed_div some first) others).trans ?_
    rw [join_div named some first]
    rfl

end Join

/-- Names are put behind the trunk of a path with slashes in between. -/
theorem toList_extend (named : p.IsNamed) (plain : ∀ name ∈ names, IsPlain name)
    (some : names ≠ []) :
    (p.extend names).text.toList =
      p.trunk.text.toList ++ '/' :: ("/".intercalate names).toList := by
  -- The names are taken off from the front, as the path grows by them.
  induction names generalizing p with
  | nil => exact absurd rfl some
  | cons name names ih =>
    obtain ⟨first, others⟩ := List.forall_mem_cons.mp plain
    cases names with
    | nil =>
      show (p / name).text.toList = _
      simpa [String.toList_intercalate] using toList_div named first
    | cons second names =>
      show ((p / name).extend (second :: names)).text.toList = _
      rw [ih (isNamed_div named first) others (by simp), trunk_div named first,
        toList_div named first]
      simp [String.toList_intercalate]

/-- Plain names with slashes in between are no absolute path. -/
theorem isAbsolute_intercalate (plain : ∀ name ∈ names, IsPlain name) :
    (Path.mk ("/".intercalate names)).isAbsolute = false := by
  cases names with
  | nil => rfl
  | cons name names =>
    -- The first name begins the whole text, and it begins with no slash.
    have own := isAbsolute_of_isPlain (List.forall_mem_cons.mp plain).1
    obtain ⟨c, front, same⟩ := List.exists_cons_of_ne_nil (List.forall_mem_cons.mp plain).1.1
    rw [isAbsolute] at own ⊢
    cases names with
    | nil => simpa [String.toList_intercalate] using own
    | cons second names =>
      rw [String.toList_intercalate, List.map_cons, List.map_cons, List.intercalate_cons_cons, same]
      rwa [same] at own

/-- A path made of plain names is put behind another one name by name. -/
theorem join_intercalate (named : p.IsNamed) (plain : ∀ name ∈ names, IsPlain name)
    (some : names ≠ []) : p.join ⟨"/".intercalate names⟩ = p.extend names := by
  refine eq_of_text (String.toList_injective ?_)
  rw [toList_join named (isAbsolute_intercalate plain), toList_extend named plain some]

/-- Behind a path without a text a name stands alone. -/
theorem div_of_not_isNamed (unnamed : ¬ p.IsNamed) (name : String) : p / name = ⟨name⟩ := by
  show p.join ⟨name⟩ = ⟨name⟩
  have none : p.text.toList.getLast? = none := by simpa [IsNamed] using unnamed
  rw [join, none]
  split <;> rfl

/-- A name behind a path is its last move, also when the path has no text. -/
theorem moves_div (p : Path) (plain : IsPlain name) :
    ∃ front, (p / name).moves = front ++ [.down name] := by
  by_cases named : p.IsNamed
  · refine ⟨p.moves, ?_⟩
    have single : ∀ other ∈ [name], IsPlain other := by simpa using plain
    rw [show p / name = p.extend [name] from rfl, moves_extend named single]
    rfl
  · refine ⟨[], ?_⟩
    rw [div_of_not_isNamed named, moves, steps_eq, pieces, splitOn_of_not_mem plain.2.2.2,
      List.map_singleton, plain.ofPiece]
    rfl

end Behind

/-- The pieces between slashes alone are empty. -/
theorem steps_of_slashes {text : List Char} (slashes : ∀ c ∈ text, c = '/') :
    ∃ count, (text.splitOn '/').map Step.ofPiece = List.replicate count .here := by
  -- Each slash ends an empty piece, and the last one is empty as well.
  induction text with
  | nil => exact ⟨1, by simp [Step.ofPiece]⟩
  | cons c rest ih =>
    obtain ⟨own, others⟩ := List.forall_mem_cons.mp slashes
    obtain ⟨count, same⟩ := ih others
    have apart := splitOn_append_slash [] rest
    rw [List.nil_append] at apart
    refine ⟨count + 1, ?_⟩
    rw [own, apart, List.map_append, same, List.replicate_succ]
    rfl

/-- A path ends with slashes, or it is taken as it is. -/
theorem withoutSlashes_cases (p : Path) :
    Disk.withoutSlashes p = p ∨
      ∃ front slashes, front ≠ [] ∧ p.text.toList = front ++ slashes ∧
        (∀ c ∈ slashes, c = '/') ∧ Disk.withoutSlashes p = ⟨String.ofList front⟩ := by
  unfold Disk.withoutSlashes
  -- The slashes are taken off at the end unless nothing would be left.
  split
  · exact Or.inl rfl
  next some =>
    have whole := List.takeWhile_append_dropWhile (p := (· == '/')) (l := p.text.toList.reverse)
    have taken := List.all_takeWhile (p := (· == '/')) (l := p.text.toList.reverse)
    refine Or.inr ⟨_, (p.text.toList.reverse.takeWhile (· == '/')).reverse, some, ?_, ?_, rfl⟩
    · rw [← List.reverse_append, whole, List.reverse_reverse]
    · intro c member
      simpa using List.all_eq_true.mp taken c (List.mem_reverse.mp member)

/-- Slashes at the end of a path are steps that stay where they are. -/
theorem steps_withoutSlashes (p : Path) :
    ∃ count, p.steps = (Disk.withoutSlashes p).steps ++ List.replicate count .here := by
  rcases p.withoutSlashes_cases with same | ⟨front, slashes, -, text, only, same⟩
  · exact ⟨0, by simp [same]⟩
  · rw [same, steps, steps, text, String.toList_ofList]
    -- Behind the first of the slashes there are empty pieces only.
    cases slashes with
    | nil => exact ⟨0, by simp⟩
    | cons c rest =>
      obtain ⟨own, others⟩ := List.forall_mem_cons.mp only
      obtain ⟨count, still⟩ := steps_of_slashes others
      exact ⟨count, by rw [own, splitOn_append_slash, List.map_append, still]⟩

/-- A path without slashes at its end makes the same moves. -/
theorem moves_withoutSlashes (p : Path) : (Disk.withoutSlashes p).moves = p.moves := by
  obtain ⟨count, same⟩ := p.steps_withoutSlashes
  rw [moves, moves, same, List.filter_append]
  simp

/-- A path without slashes at its end starts where the path does. -/
theorem isAbsolute_withoutSlashes (p : Path) :
    (Disk.withoutSlashes p).isAbsolute = p.isAbsolute := by
  rcases p.withoutSlashes_cases with same | ⟨front, slashes, some, text, -, same⟩
  · rw [same]
  · obtain ⟨c, front, rfl⟩ := List.exists_cons_of_ne_nil some
    rw [same, isAbsolute, isAbsolute, text, String.toList_ofList]
    rfl

/-- A path without slashes at its end has a text if the path has one. -/
theorem isNamed_withoutSlashes {p : Path} (named : p.IsNamed) :
    (Disk.withoutSlashes p).IsNamed := by
  rcases p.withoutSlashes_cases with same | ⟨front, slashes, some, -, -, same⟩
  · rwa [same]
  · rw [same, IsNamed, String.toList_ofList]
    exact some

end Path

end DialectBench
