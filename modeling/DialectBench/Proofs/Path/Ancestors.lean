import DialectBench.Proofs.Path.Components
import DialectBench.Suite.Place
import Mathlib.Data.List.Chain
import Mathlib.Data.List.Induction

/-! The paths above a path, its parent first. -/

namespace DialectBench

/-- A piece is put in front of others with a slash in between. -/
theorem intercalate_cons {pieces : List (List Char)} (piece : List Char) (some : pieces ≠ []) :
    ['/'].intercalate (piece :: pieces) = piece ++ '/' :: ['/'].intercalate pieces := by
  obtain ⟨next, pieces, rfl⟩ := List.exists_cons_of_ne_nil some
  simp [List.intercalate_cons_cons]

/-- Pieces are put in front of others with a slash in between. -/
theorem intercalate_append {first second : List (List Char)} (one : first ≠ [])
    (other : second ≠ []) :
    ['/'].intercalate (first ++ second) =
      ['/'].intercalate first ++ '/' :: ['/'].intercalate second := by
  -- The first pieces are put in front one by one, and the last of them stands before the slash.
  induction first with
  | nil => exact absurd rfl one
  | cons piece first ih =>
    cases first with
    | nil =>
      rw [List.singleton_append, intercalate_cons piece other, List.intercalate_singleton]
    | cons next first =>
      rw [List.cons_append, intercalate_cons piece (by simp), ih (by simp),
        intercalate_cons piece (by simp), List.append_assoc, List.cons_append]

/-- A piece that is a move has a span, and the others have none. -/
theorem spansFrom_cons (offset : Nat) (piece : List Char) (pieces : List (List Char)) :
    ∃ own : List Span, spansFrom offset (piece :: pieces) =
        own ++ spansFrom (offset + piece.length + 1) pieces ∧
      own.length = ([Step.ofPiece piece].filter Step.isMove).length ∧
      ∀ span ∈ own, span.stop = offset + piece.length ∧ piece ≠ [] := by
  rw [spansFrom]
  -- A piece that stays has no span, two dots have one, and any other piece is a name with one.
  by_cases stays : (piece = [] || piece = ['.']) = true
  · exact ⟨[], by simp [stays], by simp [Step.ofPiece, stays], by simp⟩
  · have some : piece ≠ [] := fun same => stays (by simp [same])
    by_cases up : piece = ['.', '.']
    · exact ⟨[_], by simp only [if_neg stays, if_pos up]; rfl, by rw [up]; rfl,
        by simp [some]⟩
    · have goes : Step.ofPiece piece = .down (String.ofList piece) := by
        rw [Step.ofPiece, if_neg stays, if_neg up]
      exact ⟨[_], by simp only [if_neg stays, if_neg up]; rfl, by rw [goes]; rfl, by simp [some]⟩

/-- There are as many spans as there are moves. -/
theorem length_spansFrom (offset : Nat) (pieces : List (List Char)) :
    (spansFrom offset pieces).length = ((pieces.map Step.ofPiece).filter Step.isMove).length := by
  induction pieces generalizing offset with
  | nil => rfl
  | cons piece pieces ih =>
    obtain ⟨own, same, count, -⟩ := spansFrom_cons offset piece pieces
    have split : (piece :: pieces).map Step.ofPiece =
        [Step.ofPiece piece] ++ pieces.map Step.ofPiece := rfl
    rw [same, List.length_append, count, ih, split, List.filter_append, List.length_append]

/-- A span ends where one of the pieces does, and the spans behind it are those of the pieces behind that
one. -/
theorem spansFrom_split {offset : Nat} {pieces : List (List Char)} {front back : List Span}
    {span : Span} (same : spansFrom offset pieces = front ++ span :: back) :
    ∃ before piece after, pieces = before ++ piece :: after ∧ piece ≠ [] ∧
      span.stop = offset + (['/'].intercalate (before ++ [piece])).length ∧
      back = spansFrom (span.stop + 1) after := by
  -- The pieces are taken off one by one, and the offset grows with them.
  induction pieces generalizing offset front with
  | nil => simp [spansFrom] at same
  | cons piece pieces ih =>
    obtain ⟨own, split, count, stops⟩ := spansFrom_cons offset piece pieces
    rw [split] at same
    rcases List.append_eq_append_iff.mp same with ⟨between, rfl, rest⟩ | ⟨between, whole, rest⟩
    · obtain ⟨before, last, after, rfl, some, stop, behind⟩ := ih rest
      refine ⟨piece :: before, last, after, rfl, some, ?_, behind⟩
      rw [stop, List.cons_append, intercalate_cons piece (by simp), List.length_append,
        List.length_cons]
      omega
    · -- A piece has one span at most, so this is the one of the first piece.
      have few : own.length ≤ 1 := count ▸ List.length_filter_le _ _
      cases between with
      | nil =>
        have rest : spansFrom (offset + piece.length + 1) pieces = [] ++ span :: back := rest.symm
        obtain ⟨before, last, after, rfl, some, stop, behind⟩ := ih rest
        refine ⟨piece :: before, last, after, rfl, some, ?_, behind⟩
        rw [stop, List.cons_append, intercalate_cons piece (by simp), List.length_append,
          List.length_cons]
        omega
      | cons head between =>
        obtain ⟨rfl, behind⟩ := List.cons.inj rest
        rw [whole] at few
        simp only [List.length_append, List.length_cons] at few
        obtain rfl : between = [] := List.eq_nil_of_length_eq_zero (by omega)
        obtain ⟨stop, some⟩ := stops span (by simp [whole])
        exact ⟨[], piece, pieces, rfl, some, by simpa using stop, by rw [stop]; exact behind⟩

namespace Path

/-- A path precedes another one when it starts where the other one does and its moves come first. -/
structure Precedes (a p : Path) (rest : List Step) : Prop where
  /-- It has a text. -/
  named : a.IsNamed
  /-- It starts where the other one does. -/
  start : a.isAbsolute = p.isAbsolute
  /-- The other path has the same moves, and then the rest. -/
  moves : p.moves = a.moves ++ rest

variable {p : Path}

/-- The text of a path begins with that of the pieces up to any of them. -/
theorem toList_eq_append {before after : List (List Char)} {piece : List Char}
    (pieces : p.pieces = before ++ piece :: after) :
    ∃ rest, p.text.toList = ['/'].intercalate (before ++ [piece]) ++ rest := by
  rw [← intercalate_pieces, pieces]
  cases after with
  | nil => exact ⟨[], by simp⟩
  | cons next after =>
    have split : before ++ piece :: next :: after = (before ++ [piece]) ++ next :: after := by simp
    rw [split]
    exact ⟨_, intercalate_append (by simp) (by simp)⟩

/-- What stands in a path up to the end of a piece is the path of the pieces up to that one. -/
theorem slice_eq_ofPieces {before after : List (List Char)} {piece : List Char}
    (pieces : p.pieces = before ++ piece :: after) :
    p.slice 0 (['/'].intercalate (before ++ [piece])).length = ofPieces (before ++ [piece]) := by
  obtain ⟨rest, text⟩ := toList_eq_append pieces
  rw [slice, ofPieces, text, List.take_left, List.drop_zero]

/-- The pieces of a path up to one of them are those of the path that they make. -/
theorem pieces_front {before after : List (List Char)} {piece : List Char}
    (split : p.pieces = before ++ piece :: after) :
    (ofPieces (before ++ [piece])).pieces = before ++ [piece] := by
  refine pieces_ofPieces (fun other member => ?_) (by simp)
  have inside : other ∈ p.text.toList.splitOn '/' := by
    show other ∈ p.pieces
    rw [split]
    rcases List.mem_append.mp member with early | last
    · exact List.mem_append_left _ early
    · exact List.mem_append_right _ (List.mem_singleton.mp last ▸ List.mem_cons_self)
  exact not_mem_of_mem_splitOn inside

/-- A path up to the end of a piece precedes it by the moves of the other pieces. -/
theorem precedes_ofPieces {before after : List (List Char)} {piece : List Char}
    (pieces : p.pieces = before ++ piece :: after) (some : piece ≠ []) :
    (ofPieces (before ++ [piece])).Precedes p ((after.map Step.ofPiece).filter Step.isMove) := by
  have own := pieces_front pieces
  have named : (ofPieces (before ++ [piece])).IsNamed := by
    rw [IsNamed, ofPieces, String.toList_ofList]
    intro none
    -- The last piece is not empty, and it is part of the text.
    cases before with
    | nil => exact some (by simpa using none)
    | cons first before =>
      rw [intercalate_append (by simp) (by simp)] at none
      simp at none
  refine ⟨named, ?_, ?_⟩
  · -- Both texts begin with the same character.
    obtain ⟨rest, text⟩ := toList_eq_append pieces
    have own : (ofPieces (before ++ [piece])).text.toList = ['/'].intercalate (before ++ [piece]) := by
      rw [ofPieces, String.toList_ofList]
    have some : ['/'].intercalate (before ++ [piece]) ≠ [] := own ▸ named
    obtain ⟨c, front, same⟩ := List.exists_cons_of_ne_nil some
    rw [isAbsolute, isAbsolute, text, own, same]
    rfl
  · rw [Path.moves, Path.moves, steps_eq, steps_eq, own, pieces, ← List.filter_append,
      ← List.map_append]
    simp

/-- A component of a path is the root, or it ends where a piece does; the others come behind. -/
theorem spans_split {front back : List Span} {span : Span} (same : p.spans = front ++ span :: back) :
    (∃ piece pieces, p.pieces = [] :: piece :: pieces ∧ front = [] ∧ span = ⟨.root, 0, 1⟩ ∧
      back = spansFrom 1 (piece :: pieces)) ∨
    ∃ before piece after, p.pieces = before ++ piece :: after ∧ piece ≠ [] ∧
      span.stop = (['/'].intercalate (before ++ [piece])).length ∧
      back = spansFrom (span.stop + 1) after := by
  unfold spans at same
  split at same
  -- A leading dot is a component of its own, in front of what the other pieces give.
  next pieces split =>
    have split : p.pieces = [] ++ ['.'] :: pieces := split
    refine Or.inr ?_
    cases front with
    | nil =>
      obtain ⟨rfl, rfl⟩ := List.cons.inj same
      exact ⟨[], ['.'], pieces, split, by simp, rfl, rfl⟩
    | cons first front =>
      obtain ⟨-, behind⟩ := List.cons.inj same
      obtain ⟨before, piece, after, rfl, some, stop, rest⟩ := spansFrom_split behind
      refine ⟨['.'] :: before, piece, after, split, some, ?_, rest⟩
      rw [stop, List.cons_append, intercalate_cons _ (by simp)]
      simp
      omega
  -- A leading slash is the root.
  next first pieces split =>
    have split : p.pieces = [] :: first :: pieces := split
    cases front with
    | nil =>
      obtain ⟨rfl, rfl⟩ := List.cons.inj same
      exact Or.inl ⟨first, pieces, split, rfl, rfl, rfl⟩
    | cons root front =>
      obtain ⟨-, behind⟩ := List.cons.inj same
      obtain ⟨before, piece, after, whole, some, stop, rest⟩ := spansFrom_split behind
      refine Or.inr ⟨[] :: before, piece, after, by rw [split, whole]; rfl, some, ?_, rest⟩
      rw [stop, List.cons_append, intercalate_cons _ (by simp)]
      simp
      omega
  -- Without either of them the components are those of the pieces from the start.
  next =>
    obtain ⟨before, piece, after, split, some, stop, rest⟩ := spansFrom_split same
    exact Or.inr ⟨before, piece, after, split, some, by rw [stop, Nat.zero_add], rest⟩

/-- A path up to the end of one of its components precedes it, and nothing is left of the moves only
behind the last component. -/
theorem precedes_slice {front back : List Span} {span : Span}
    (same : p.spans = front ++ span :: back) :
    ∃ rest, (p.slice 0 span.stop).Precedes p rest ∧ rest.length = back.length := by
  rcases spans_split same with
    ⟨first, pieces, split, -, rfl, rfl⟩ | ⟨before, piece, after, split, some, stop, rfl⟩
  · -- The root is no move, and a slash alone leads to it.
    have text : p.text.toList = '/' :: ['/'].intercalate (first :: pieces) := by
      rw [← intercalate_pieces, split]
      rfl
    have root : p.slice 0 1 = ⟨"/"⟩ := by
      rw [slice, text]
      rfl
    rw [root]
    refine ⟨p.moves, ⟨by simp [IsNamed], ?_, rfl⟩, ?_⟩
    · rw [isAbsolute, isAbsolute, text]
      rfl
    · rw [length_spansFrom, Path.moves, steps_eq, split]
      rfl
  · have precedes := precedes_ofPieces split some
    rw [← slice_eq_ofPieces split, ← stop] at precedes
    exact ⟨_, precedes, (length_spansFrom _ _).symm⟩

/-- A path is empty, or it precedes another one by a single move. -/
def IsAbove (outer p : Path) : Prop :=
  outer.text = "" ∨ ∃ step, outer.Precedes p [step]

/-- Of two paths that precede one, that with one move less precedes the other. -/
theorem Precedes.isAbove {a b : Path} {rest longer : List Step} (near : a.Precedes p rest)
    (far : b.Precedes p longer) (count : longer.length = rest.length + 1) : b.IsAbove a := by
  rcases List.append_eq_append_iff.mp (far.moves.symm.trans near.moves) with
    ⟨between, same, split⟩ | ⟨between, -, split⟩
  · -- What lies between them is one step.
    rw [split, List.length_append] at count
    obtain ⟨step, rfl⟩ := List.length_eq_one_iff.mp (show between.length = 1 by omega)
    exact Or.inr ⟨step, far.named, far.start.trans near.start.symm, same⟩
  · rw [split, List.length_append] at count
    omega

/-- The paths that are cut off at the ends of components are above one another, and the first of them
is above a path with as many moves as components are left. -/
theorem isChain_slices {front back : List Span} {a : Path} {rest : List Step} (tail : List Path)
    (same : p.spans = front ++ back) (precedes : a.Precedes p rest)
    (count : rest.length + 1 = back.length)
    (last : ∀ a : Path, (a :: tail).IsChain fun inner outer => outer.IsAbove inner) :
    (a :: (front.reverse.map fun span => p.slice 0 span.stop) ++ tail).IsChain
      fun inner outer => outer.IsAbove inner := by
  -- The components in front are taken from behind, and each of them cuts off one more.
  induction front using List.reverseRecOn generalizing back a rest with
  | nil => exact last a
  | append_singleton front span ih =>
    rw [List.append_assoc, List.singleton_append] at same
    obtain ⟨longer, far, length⟩ := precedes_slice same
    have above : (p.slice 0 span.stop).IsAbove a := precedes.isAbove far (by omega)
    have others := ih same far (by simp [length])
    rw [List.reverse_append, List.reverse_singleton, List.singleton_append, List.map_cons]
    exact List.isChain_cons_cons.mpr ⟨above, others⟩

/-- A path precedes itself. -/
theorem precedes_refl (named : p.IsNamed) : p.Precedes p [] := ⟨named, rfl, by simp⟩

/-- The paths above a path are above one another, from the path itself on. -/
theorem isChain_ancestors (named : p.IsNamed) :
    p.ancestors.IsChain fun inner outer => outer.IsAbove inner := by
  rcases List.eq_nil_or_concat p.spans with none | ⟨front, last, whole⟩
  · simp [ancestors, none]
  · rw [List.concat_eq_append] at whole
    have shorter : (p.spans.reverse.drop 1).map Span.stop = front.reverse.map Span.stop := by
      simp [whole]
    unfold ancestors
    simp only [shorter, List.map_map]
    -- The list ends with the first component, or with the empty path behind it.
    split
    · simp
    · have chain := isChain_slices [] whole (precedes_refl named) rfl (by simp)
      rw [List.append_nil] at chain
      exact chain
    · exact isChain_slices [⟨""⟩] whole (precedes_refl named) rfl
        (by simp [List.isChain_cons_cons, IsAbove])

/-- The parent of a path is above it. -/
theorem isAbove_parent {outer : Path} (named : p.IsNamed) (parent : p.parent? = some outer) :
    outer.IsAbove p := by
  unfold parent? at parent
  split at parent
  · simp at parent
  · simp at parent
  -- With a single component the parent is empty.
  · obtain rfl := Option.some.inj parent
    exact Or.inl rfl
  next last previous front _ reversed =>
    obtain rfl := Option.some.inj parent
    have whole : p.spans = front.reverse ++ previous :: [last] := by
      rw [← List.reverse_reverse p.spans, reversed]
      simp
    -- The parent is cut off at the end of the last component but one.
    obtain ⟨longer, far, length⟩ := precedes_slice whole
    exact (precedes_refl named).isAbove far (by simp [length])

/-- A path that precedes one that precedes another one precedes that one, too. -/
theorem Precedes.trans {a b : Path} {inner outer : List Step} (far : a.Precedes b outer)
    (near : b.Precedes p inner) : a.Precedes p (outer ++ inner) :=
  ⟨far.named, far.start.trans near.start, by rw [near.moves, far.moves, List.append_assoc]⟩

/-- The empty path makes no moves. -/
theorem moves_empty : (Path.mk "").moves = [] := rfl

/-- The paths above a path are empty or precede it. -/
theorem precedes_of_isChain {above : List Path}
    (chain : (p :: above).IsChain fun inner outer => outer.IsAbove inner) {a : Path}
    (member : a ∈ above) : a.text = "" ∨ ∃ rest, rest ≠ [] ∧ a.Precedes p rest := by
  -- One path after the other is passed, and behind the empty one there are only empty ones.
  induction above generalizing p with
  | nil => simp at member
  | cons next above ih =>
    obtain ⟨first, others⟩ := List.isChain_cons_cons.mp chain
    -- Behind the next path the statement is known, unless that one itself is asked for.
    have behind : a = next ∨ a.text = "" ∨ ∃ rest, rest ≠ [] ∧ a.Precedes next rest := by
      rcases List.mem_cons.mp member with rfl | later
      · exact Or.inl rfl
      · exact Or.inr (ih others later)
    rcases first with empty | ⟨step, near⟩
    · have still : next.moves = [] := by
        obtain ⟨text⟩ := next
        obtain rfl : text = "" := empty
        exact moves_empty
      rcases behind with rfl | none | ⟨rest, some, far⟩
      · exact Or.inl empty
      · exact Or.inl none
      · have nothing := far.moves
        rw [still] at nothing
        exact absurd (List.append_eq_nil_iff.mp nothing.symm).2 some
    · rcases behind with rfl | none | ⟨rest, -, far⟩
      · exact Or.inr ⟨[step], by simp, near⟩
      · exact Or.inl none
      · exact Or.inr ⟨rest ++ [step], by simp, far.trans near⟩

/-- A path up to the end of one of its components has the components up to that one. -/
theorem components_slice {front back : List Span} {span : Span}
    (same : p.spans = front ++ span :: back) :
    (p.slice 0 span.stop).components = (front ++ [span]).map Span.component := by
  rcases spans_split same with
    ⟨first, pieces, split, rfl, rfl, -⟩ | ⟨before, piece, after, split, some, stop, rfl⟩
  · -- The root is what a slash alone stands for.
    have root : p.slice 0 1 = ⟨"/"⟩ := by
      rw [slice, ← intercalate_pieces, split]
      rfl
    rw [root]
    rfl
  · -- Behind the component there are those of the pieces behind it, on both sides.
    have whole : (front ++ [span]).map Span.component ++ after.filterMap Component.ofPiece? =
        p.components := by
      rw [← map_component_spansFrom (span.stop + 1), ← List.map_append, components, same]
      simp
    have pieces : p.pieces = (before ++ [piece]) ++ after := by
      rw [split]
      simp
    rw [components_eq, split, opening_append some, ← split, pieces, List.filterMap_append,
      ← List.append_assoc] at whole
    rw [stop, slice_eq_ofPieces split, components_eq, pieces_front split]
    exact (List.append_cancel_right whole).symm

/-- The parent of a path has all components but the last one. -/
theorem components_parent (parent : p.parent? = some outer) :
    outer.components = p.components.dropLast := by
  unfold parent? at parent
  split at parent
  · cases parent
  · cases parent
  -- The only component has nothing in front of it.
  next last _ reversed =>
    obtain rfl := Option.some.inj parent
    have whole : p.spans = [last] := by
      rw [← List.reverse_reverse p.spans, reversed]
      rfl
    rw [components, components, whole]
    rfl
  next last previous front _ reversed =>
    obtain rfl := Option.some.inj parent
    have whole : p.spans = front.reverse ++ previous :: [last] := by
      rw [← List.reverse_reverse p.spans, reversed]
      simp
    rw [components_slice whole, components, whole]
    simp

/-- A path that ends with a name has a parent. -/
theorem exists_parent (ends : p.fileName? = some name) : ∃ outer, p.parent? = some outer := by
  -- The last component is the one that gives the name.
  have last : ∃ start stop, p.spans.reverse.head? = some ⟨.name name, start, stop⟩ := by
    unfold fileName? at ends
    split at ends
    next text start stop last =>
      obtain rfl := Option.some.inj ends
      exact ⟨start, stop, by rw [List.head?_reverse, last]⟩
    next => cases ends
  obtain ⟨start, stop, last⟩ := last
  obtain ⟨rest, reversed⟩ := List.head?_eq_some_iff.mp last
  unfold parent?
  rw [reversed]
  cases rest with
  | nil => exact ⟨_, rfl⟩
  | cons previous rest => exact ⟨_, rfl⟩

/-- A step down is one to a plain name. -/
theorem isPlain_of_mem_steps {name : String} (member : .down name ∈ p.steps) : IsPlain name := by
  -- A piece is a name unless it is empty or consists of dots, and no piece has a slash.
  rw [steps_eq] at member
  obtain ⟨piece, inside, same⟩ := List.mem_map.mp member
  have apart : '/' ∉ piece := not_mem_of_mem_splitOn inside
  rw [Step.ofPiece] at same
  split at same
  · simp at same
  next some =>
    split at same
    · simp at same
    next up =>
      obtain rfl := Step.down.inj same
      simp only [Bool.or_eq_true, decide_eq_true_eq, not_or] at some
      rw [IsPlain, String.toList_ofList]
      exact ⟨some.1, some.2, up, apart⟩

end Path

end DialectBench
