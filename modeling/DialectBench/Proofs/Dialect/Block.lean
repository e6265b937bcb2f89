import DialectBench.Dialect.Block
import DialectBench.Proofs.Text.Line

/-! A block is the balanced text behind the first opening of its name, and every balanced text can be one. -/

namespace DialectBench.Dialect

section Characters

variable {c : Char}

/-- A quotation mark is no blank. -/
theorem isBlank_of_isQuote (quote : isQuote c = true) : Text.isBlank c = false := by
  rcases (by simpa [isQuote] using quote : c = '\'' ∨ c = '"') with rfl | rfl <;> decide

/-- A blank is no quotation mark. -/
theorem isQuote_of_isBlank (white : Text.isBlank c = true) : isQuote c = false :=
  Bool.eq_false_iff.mpr fun quote => by simp [isBlank_of_isQuote quote] at white

/-- A quotation mark is no colon. -/
theorem ne_colon_of_isQuote (quote : isQuote c = true) : c ≠ ':' := by
  rintro rfl
  exact absurd quote (by decide)

end Characters

/-- There is nothing but blanks. -/
def Blank (text : List Char) : Prop :=
  ∀ c ∈ text, Text.isBlank c = true

/-- There is nothing but blanks and quotation marks. -/
def Filling (text : List Char) : Prop :=
  ∀ c ∈ text, Text.isBlank c = true ∨ isQuote c = true

/-- There is a quotation mark, or nothing. -/
inductive QuoteAtMost : List Char → Prop where
  /-- Nothing. -/
  | nothing : QuoteAtMost []
  /-- A quotation mark. -/
  | mark {c : Char} (quote : isQuote c = true) : QuoteAtMost [c]

/-- A text opens a block of a name: the name, which may stand in quotation marks, and a colon, with blanks around
them. The bracket comes behind it. -/
inductive Opening (name : List Char) : List Char → Prop where
  /-- The parts of the opening. -/
  | parts {lead left right gap behind : List Char} (lead_blank : Blank lead) (left_mark : QuoteAtMost left)
      (right_mark : QuoteAtMost right) (gap_blank : Blank gap) (behind_blank : Blank behind) :
      Opening name (lead ++ left ++ name ++ right ++ gap ++ ':' :: behind)

/-- A line starts behind a text: there is no text, or a line feed ends it. -/
def LineStart (before : List Char) : Prop :=
  before = [] ∨ ∃ front, before = front ++ ['\n']

/-- A text opens a block of a name behind another text, at the start of a line. -/
structure Opens (name text before opening rest : List Char) : Prop where
  /-- The bracket comes behind the opening, and then the rest. -/
  whole : text = before ++ opening ++ '[' :: rest
  /-- A line starts there. -/
  starts : LineStart before
  /-- It opens a block. -/
  opens : Opening name opening

/-- A text opens a block of a name, and no opening of the name starts before it. -/
structure OpensFirst (name text before opening rest : List Char) : Prop
    extends Opens name text before opening rest where
  /-- Any other opening starts there or later. -/
  first : ∀ before' opening' rest', Opens name text before' opening' rest' → before.length ≤ before'.length

/-- So many brackets are closed that were open before, and else each that is closed was opened. -/
structure Closes (depth : Nat) (body : List Char) : Prop where
  /-- All that were open or are opened are closed. -/
  whole : body.count ']' = body.count '[' + depth
  /-- No part at the front closes more. -/
  front : ∀ part, part <+: body → part.count ']' ≤ part.count '[' + depth

/-- The brackets of a text are balanced: as many are closed as are opened, and in no part at the front more. -/
def Balanced (body : List Char) : Prop :=
  Closes 0 body

/-- A search for the bracket that closes a block with a counter of open brackets: the counters behind the
characters that are read, and the text in front of the bracket at which the counter comes to zero. -/
def search : (depth : Int) → List Char → List Int × Option (List Char)
  | _, [] => ([], none)
  | depth, c :: rest =>
    let next := if c = '[' then depth + 1 else if c = ']' then depth - 1 else depth
    if c = ']' && next = 0 then ([next], some [])
    else (next :: (search next rest).1, (search next rest).2.map (c :: ·))

/-- A character of a name: no quotation mark, no blank, no colon and no opening bracket. -/
def isNameChar (c : Char) : Bool :=
  !isQuote c && !Text.isBlank c && c != ':' && c != '['

/-- A name that a block can have. -/
structure IsName (name : List Char) : Prop where
  /-- There is something in it. -/
  nonempty : name ≠ []
  /-- Its characters are those of names. -/
  chars : ∀ c ∈ name, isNameChar c = true

section Parts

variable {text rest : List Char} {c : Char}

/-- A colon that is found stands between blanks. -/
theorem afterColon?_eq_some (found : afterColon? text = some rest) :
    ∃ before after, text = before ++ ':' :: after ++ rest ∧
      (∀ c ∈ before, Text.isBlank c = true) ∧ ∀ c ∈ after, Text.isBlank c = true := by
  unfold afterColon? at found
  split at found
  · rename_i behind colon
    have whole := List.takeWhile_append_dropWhile (p := Text.isBlank) (l := text)
    have rest' := List.takeWhile_append_dropWhile (p := Text.isBlank) (l := behind)
    obtain rfl := Option.some.inj found
    refine ⟨text.takeWhile Text.isBlank, behind.takeWhile Text.isBlank, ?_,
      List.all_eq_true.mp List.all_takeWhile, List.all_eq_true.mp List.all_takeWhile⟩
    rw [List.append_assoc, List.cons_append, rest', ← colon, whole]
  · cases found

/-- Behind a colon between blanks comes what is not blank. -/
theorem afterColon?_colon {before after : List Char} (white : ∀ c ∈ before, Text.isBlank c = true)
    (white' : ∀ c ∈ after, Text.isBlank c = true) (solid : Text.isBlank c = false) :
    afterColon? (before ++ ':' :: (after ++ c :: text)) = some (c :: text) := by
  unfold afterColon?
  rw [List.dropWhile_append_of_pos white, List.dropWhile_cons_of_neg (by decide)]
  show some ((after ++ c :: text).dropWhile Text.isBlank) = _
  rw [List.dropWhile_append_of_pos white', List.dropWhile_cons_of_neg (by simp [solid])]

/-- What is left without some blanks at the front. -/
theorem mem_blankSuffixes : rest ∈ blankSuffixes text ↔ ∃ lead, Blank lead ∧ text = lead ++ rest := by
  induction text with
  | nil =>
    rw [blankSuffixes, List.mem_singleton]
    constructor
    · rintro rfl
      exact ⟨[], by simp [Blank], rfl⟩
    -- Nothing can be taken away from nothing.
    · rintro ⟨lead, -, whole⟩
      exact (List.append_eq_nil_iff.mp whole.symm).2
  | cons c text ih =>
    -- The first character is taken away if it is blank, or everything stays.
    have stays : rest = c :: text → ∃ lead, Blank lead ∧ c :: text = lead ++ rest := by
      rintro rfl
      exact ⟨[], by simp [Blank], rfl⟩
    rw [blankSuffixes]
    by_cases white : Text.isBlank c = true
    · rw [if_pos white, List.mem_append, ih, List.mem_singleton]
      constructor
      · rintro (⟨lead, blank, rfl⟩ | same)
        · exact ⟨c :: lead, List.forall_mem_cons.mpr ⟨white, blank⟩, rfl⟩
        · exact stays same
      · rintro ⟨lead, blank, whole⟩
        cases lead with
        | nil => exact .inr whole.symm
        | cons first lead =>
          obtain ⟨rfl, others⟩ := List.cons.inj whole
          exact .inl ⟨lead, (List.forall_mem_cons.mp blank).2, others⟩
    · rw [if_neg white, List.mem_singleton]
      refine ⟨stays, ?_⟩
      rintro ⟨lead, blank, whole⟩
      cases lead with
      | nil => exact whole.symm
      | cons first lead =>
        obtain ⟨rfl, -⟩ := List.cons.inj whole
        exact absurd (blank _ List.mem_cons_self) white

/-- What is left without a quotation mark at the front, or with it. -/
theorem mem_quoteSuffixes :
    rest ∈ quoteSuffixes text ↔ ∃ mark, QuoteAtMost mark ∧ text = mark ++ rest := by
  -- The mark may be left where it is, so the text itself is always one of them.
  have stays : rest = text → ∃ mark, QuoteAtMost mark ∧ text = mark ++ rest := by
    rintro rfl
    exact ⟨[], .nothing, rfl⟩
  cases text with
  | nil =>
    rw [quoteSuffixes, List.mem_singleton]
    refine ⟨stays, ?_⟩
    rintro ⟨mark, -, whole⟩
    exact (List.append_eq_nil_iff.mp whole.symm).2
  | cons c text =>
    rw [quoteSuffixes]
    -- A quotation mark at the front may be taken or left, any other character can only be left.
    by_cases quote : isQuote c = true
    · rw [if_pos quote, List.mem_cons, List.mem_singleton]
      constructor
      · rintro (rfl | same)
        · exact ⟨[c], .mark quote, rfl⟩
        · exact stays same
      · rintro ⟨mark, only, whole⟩
        cases only with
        | nothing => exact .inr whole.symm
        | mark _ => exact .inl (List.cons.inj whole).2.symm
    · rw [if_neg quote, List.mem_singleton]
      refine ⟨stays, ?_⟩
      rintro ⟨mark, only, whole⟩
      cases only with
      | nothing => exact whole.symm
      | mark quoted =>
        obtain ⟨rfl, -⟩ := List.cons.inj whole
        exact absurd quoted quote

/-- The text behind a word is what the word stands in front of. -/
theorem afterWord?_eq_some {word : List Char} : afterWord? word text = some rest ↔ text = word ++ rest := by
  rw [afterWord?, Option.ite_none_right_eq_some, List.isPrefixOf_iff_prefix, Option.some.injEq]
  constructor
  · rintro ⟨⟨rest, rfl⟩, rfl⟩
    rw [List.drop_left]
  · rintro rfl
    exact ⟨List.prefix_append _ _, List.drop_left⟩

/-- The text behind a bracket is what the bracket stands in front of. -/
theorem afterBracket?_eq_some : afterBracket? text = some rest ↔ text = '[' :: rest := by
  unfold afterBracket?
  split
  · rw [Option.some.injEq, List.cons.injEq]
    exact (and_iff_right rfl).symm
  · rename_i other
    refine iff_of_false (by simp) ?_
    rintro rfl
    exact other _ rfl

end Parts

section Opening

variable {name text rest rest' one other : List Char}

/-- Blanks fill a text. -/
theorem Blank.filling (blank : Blank text) : Filling text :=
  fun c inside => .inl (blank c inside)

/-- So does a quotation mark. -/
theorem QuoteAtMost.filling (mark : QuoteAtMost text) : Filling text := by
  cases mark with
  | nothing => simp [Filling]
  | mark quote => exact List.forall_mem_singleton.mpr (.inr quote)

/-- And so do two such texts. -/
theorem Filling.append (first : Filling one) (second : Filling other) : Filling (one ++ other) :=
  List.forall_mem_append.mpr ⟨first, second⟩

/-- In what fills a text there is no colon. -/
theorem Filling.notMem_colon (filling : Filling text) : ':' ∉ text := by
  intro inside
  exact (filling ':' inside).elim (by decide) (by decide)

/-- In an opening the name and the colon stand between what fills a text. -/
theorem Opening.frame (opening : Opening name text) : ∃ fill gap behind, Filling fill ∧ Filling gap ∧
    Blank behind ∧ text = fill ++ (name ++ (gap ++ ':' :: behind)) := by
  obtain ⟨lead_blank, left_mark, right_mark, gap_blank, behind_blank⟩ := opening
  exact ⟨_, _, _, lead_blank.filling.append left_mark.filling, right_mark.filling.append gap_blank.filling,
    behind_blank, by simp⟩

/-- In an opening there is no bracket that opens unless it is in the name. -/
theorem Opening.notMem_bracket (opening : Opening name text) (plain : '[' ∉ name) : '[' ∉ text := by
  have aside {part : List Char} (filling : Filling part) : '[' ∉ part := by
    intro inside
    exact (filling '[' inside).elim (by decide) (by decide)
  obtain ⟨fill, gap, behind, filling, filled, blank, rfl⟩ := opening.frame
  simp only [List.mem_append, List.mem_cons, not_or]
  exact ⟨aside filling, plain, aside filled, by decide, aside blank.filling⟩

/-- The rest behind the first bracket behind the first colon is one. -/
theorem rest_unique_of_colon {gap gap' behind behind' : List Char} (gaps : ':' ∉ gap) (gaps' : ':' ∉ gap')
    (blank : Blank behind) (blank' : Blank behind')
    (same : gap ++ ':' :: (behind ++ '[' :: rest) = gap' ++ ':' :: (behind' ++ '[' :: rest')) :
    rest = rest' := by
  -- A bracket is no blank, so none is in what stands between the colon and the bracket.
  have aside {part : List Char} (blank : Blank part) : '[' ∉ part := by
    intro inside
    exact absurd (blank '[' inside) (by decide)
  -- Both sides are cut at the first colon, and then at the first bracket.
  have behinds := congrArg (Text.cutOnce ':') same
  rw [Text.cutOnce_append_cons gaps, Text.cutOnce_append_cons gaps', Option.some.injEq, Prod.mk.injEq]
    at behinds
  have rests := congrArg (Text.cutOnce '[') behinds.2
  rw [Text.cutOnce_append_cons (aside blank), Text.cutOnce_append_cons (aside blank'), Option.some.injEq,
    Prod.mk.injEq] at rests
  exact rests.2

/-- A name that stands again behind what fills a text is itself nothing but that. -/
theorem filling_of_repeats {fill tail tail' : List Char} (filling : Filling fill) (some : fill ≠ [])
    (same : name ++ tail = fill ++ (name ++ tail')) : Filling name := by
  -- The name begins with what stands in front of its second place, and goes on with itself.
  induction length : name.length using Nat.strongRecOn generalizing name with
  | ind n ih =>
    subst length
    rcases List.append_eq_append_iff.mp same with ⟨more, rfl, -⟩ | ⟨more, rfl, again⟩
    · exact (List.forall_mem_append.mp filling).1
    · have shorter : more.length < (fill ++ more).length := by
        rw [List.length_append]
        have positive := List.length_pos_iff.mpr some
        omega
      rw [List.append_assoc] at again
      exact filling.append (ih _ shorter again.symm rfl)

/-- One text has one bracket behind the openings of a name that it begins with. -/
theorem Opening.rest_unique (first : Opening name one) (second : Opening name other)
    (same : one ++ '[' :: rest = other ++ '[' :: rest') : rest = rest' := by
  -- The name stands at one place in both openings, or it stands again behind its first place.
  have behind {fill more gap gap' behind behind' rest rest' : List Char} (filling : Filling more)
      (filled : Filling gap) (filled' : Filling gap') (blank : Blank behind) (blank' : Blank behind')
      (same : fill ++ (name ++ (gap ++ ':' :: (behind ++ '[' :: rest))) =
        fill ++ more ++ (name ++ (gap' ++ ':' :: (behind' ++ '[' :: rest')))) : rest = rest' := by
    rw [List.append_assoc] at same
    have same := List.append_cancel_left same
    by_cases none : more = []
    · rw [none, List.nil_append] at same
      exact rest_unique_of_colon filled.notMem_colon filled'.notMem_colon blank blank'
        (List.append_cancel_left same)
    · have named := filling_of_repeats filling none same
      rw [← List.append_assoc, ← List.append_assoc, ← List.append_assoc] at same
      exact rest_unique_of_colon (named.append filled).notMem_colon
        ((filling.append named).append filled').notMem_colon blank blank' same
  obtain ⟨fill, gap, after, filling, filled, blank, rfl⟩ := first.frame
  obtain ⟨fill', gap', after', filling', filled', blank', rfl⟩ := second.frame
  simp only [List.append_assoc, List.cons_append] at same
  -- The name stands later in the second opening, or later in the first.
  rcases List.append_eq_append_iff.mp same with ⟨more, rfl, -⟩ | ⟨more, rfl, -⟩
  · exact behind (List.forall_mem_append.mp filling').2 filled filled' blank blank' same
  · exact (behind (List.forall_mem_append.mp filling).2 filled' filled blank' blank same.symm).symm

/-- What is found behind a name is found behind a colon, at a place where the name may stand. -/
theorem exists_of_afterName? {α : Type} {next : List Char → Option α} {value : α}
    (found : afterName? name next text = some value) :
    ∃ left right rest behind, QuoteAtMost left ∧ QuoteAtMost right ∧
      text = left ++ (name ++ (right ++ rest)) ∧ afterColon? rest = some behind ∧ next behind = some value := by
  -- The marks are tried in their order on both sides of the name, and each of them is at most one
  -- character.
  obtain ⟨unquoted, listed, there⟩ := List.exists_of_findSome?_eq_some found
  obtain ⟨left, left_mark, rfl⟩ := mem_quoteSuffixes.mp listed
  cases after : afterWord? name unquoted with
  | none => simp [after] at there
  | some named =>
    rw [after] at there
    obtain rfl := afterWord?_eq_some.mp after
    obtain ⟨rest, listed', further⟩ := List.exists_of_findSome?_eq_some there
    obtain ⟨right, right_mark, rfl⟩ := mem_quoteSuffixes.mp listed'
    obtain ⟨behind, colon, last⟩ := Option.bind_eq_some_iff.mp further
    exact ⟨left, right, rest, behind, left_mark, right_mark, rfl, colon, last⟩

/-- Something is found behind a name if a colon follows it there, and something behind that. -/
theorem isSome_afterName? {α : Type} {next : List Char → Option α} {value : α} {left right behind : List Char}
    (left_mark : QuoteAtMost left) (right_mark : QuoteAtMost right) (colon : afterColon? rest = some behind)
    (found : next behind = some value) :
    (afterName? name next (left ++ (name ++ (right ++ rest)))).isSome = true := by
  refine List.findSome?_isSome_iff.mpr ⟨_, mem_quoteSuffixes.mpr ⟨left, left_mark, rfl⟩, ?_⟩
  rw [afterWord?_eq_some.mpr rfl]
  refine List.findSome?_isSome_iff.mpr ⟨_, mem_quoteSuffixes.mpr ⟨right, right_mark, rfl⟩, ?_⟩
  rw [colon, Option.bind_some, found]
  rfl

/-- What is found of an opening is the rest behind its bracket. -/
theorem opening_of_openerAt? (found : openerAt? name text = some rest) :
    ∃ opening, Opening name opening ∧ text = opening ++ '[' :: rest := by
  obtain ⟨bare, listed, there⟩ := List.exists_of_findSome?_eq_some found
  obtain ⟨lead, lead_blank, rfl⟩ := mem_blankSuffixes.mp listed
  obtain ⟨left, right, rest', behind, left_mark, right_mark, rfl, colon, bracket⟩ :=
    exists_of_afterName? there
  obtain ⟨gap, after, rfl, gap_blank, after_blank⟩ := afterColon?_eq_some colon
  obtain rfl := afterBracket?_eq_some.mp bracket
  exact ⟨_, .parts lead_blank left_mark right_mark gap_blank after_blank, by simp⟩

/-- An opening at the front of a text is found. -/
theorem Opening.openerAt?_eq (opening : Opening name text) (rest : List Char) :
    openerAt? name (text ++ '[' :: rest) = some rest := by
  -- One way to read the opening is to take its parts as they are.
  have found : (openerAt? name (text ++ '[' :: rest)).isSome = true := by
    obtain ⟨lead_blank, left_mark, right_mark, gap_blank, behind_blank⟩ := opening
    rename_i lead left right gap behind
    have colon : afterColon? (gap ++ ':' :: (behind ++ '[' :: rest)) = some ('[' :: rest) :=
      afterColon?_colon gap_blank behind_blank (by decide)
    have whole : lead ++ left ++ name ++ right ++ gap ++ ':' :: behind ++ '[' :: rest =
        lead ++ (left ++ (name ++ (right ++ (gap ++ ':' :: (behind ++ '[' :: rest))))) := by simp
    rw [whole]
    refine List.findSome?_isSome_iff.mpr ⟨_, mem_blankSuffixes.mpr ⟨lead, lead_blank, rfl⟩, ?_⟩
    exact isSome_afterName? left_mark right_mark colon (afterBracket?_eq_some.mpr rfl)
  -- Another way to read the opening would have the same bracket.
  obtain ⟨rest', found⟩ := Option.isSome_iff_exists.mp found
  obtain ⟨opening', opens, same⟩ := opening_of_openerAt? found
  rw [found, opening.rest_unique opens same]

/-- An opening is found at the front of a text exactly if there is one. -/
theorem openerAt?_eq_some : openerAt? name text = some rest ↔
    ∃ opening, Opening name opening ∧ text = opening ++ '[' :: rest := by
  refine ⟨opening_of_openerAt?, ?_⟩
  rintro ⟨opening, opens, rfl⟩
  exact opens.openerAt?_eq rest

end Opening

section Search

variable {name text rest : List Char} {atStart : Bool}

/-- A line starts behind a text that is read from some place on. -/
def startsLine (atStart : Bool) (before : List Char) : Bool :=
  before.foldl (fun _ c => c == '\n') atStart

/-- From the start of a line on these are the texts behind which a line starts. -/
theorem startsLine_true {before : List Char} : startsLine true before = true ↔ LineStart before := by
  rcases List.eq_nil_or_concat before with rfl | ⟨front, last, rfl⟩
  · exact iff_of_true rfl (.inl rfl)
  · rw [startsLine, List.concat_eq_append, List.foldl_append, List.foldl_cons, List.foldl_nil, beq_iff_eq]
    constructor
    · rintro rfl
      exact .inr ⟨front, rfl⟩
    · rintro (none | ⟨other, same⟩)
      · simp at none
      · exact (List.append_inj' same rfl).2 |> List.cons.inj |>.1

/-- What is found is behind an opening at the start of a line, and no other opening starts before it. -/
theorem exists_of_opener? (found : opener? name atStart text = some rest) :
    ∃ before opening, text = before ++ opening ++ '[' :: rest ∧ startsLine atStart before = true ∧
      Opening name opening ∧ ∀ before' opening' rest', text = before' ++ opening' ++ '[' :: rest' →
        startsLine atStart before' = true → Opening name opening' → before.length ≤ before'.length := by
  -- The opening is here if one can be found here, and else it starts behind the first character.
  induction text generalizing atStart with
  | nil => cases found
  | cons c text ih =>
    rw [opener?] at found
    cases here : (if atStart then openerAt? name (c :: text) else none) with
    | some after =>
      rw [here] at found
      obtain rfl := Option.some.inj found
      obtain ⟨starts, found⟩ := Option.ite_none_right_eq_some.mp here
      obtain ⟨opening, opens, whole⟩ := openerAt?_eq_some.mp found
      exact ⟨[], opening, whole, starts, opens, fun _ _ _ _ _ _ => Nat.zero_le _⟩
    | none =>
      rw [here] at found
      obtain ⟨before, opening, rfl, starts, opens, first⟩ := ih found
      refine ⟨c :: before, opening, rfl, starts, opens, ?_⟩
      intro before' opening' rest' whole starts' opens'
      cases before' with
      | nil =>
        -- Here nothing could be found.
        have found := openerAt?_eq_some.mpr ⟨opening', opens', whole⟩
        rw [show atStart = true from starts', if_pos rfl, found] at here
        cases here
      | cons first' before' =>
        obtain ⟨rfl, others⟩ := List.cons.inj whole
        exact Nat.succ_le_succ (first before' opening' rest' others starts' opens')

/-- Something is found if there is an opening at the start of a line. -/
theorem isSome_opener? {before opening : List Char} (opens : Opening name opening)
    (starts : startsLine atStart before = true) :
    (opener? name atStart (before ++ opening ++ '[' :: rest)).isSome = true := by
  -- At each character in front something is found there already, or the search goes on to the opening.
  induction before generalizing atStart with
  | nil =>
    rw [show atStart = true from starts]
    obtain ⟨first, others, whole⟩ : ∃ first others, [] ++ opening ++ '[' :: rest = first :: others := by
      exact List.exists_cons_of_ne_nil (by simp)
    have found : openerAt? name ([] ++ opening ++ '[' :: rest) = some rest := opens.openerAt?_eq rest
    rw [whole] at found ⊢
    rw [opener?, if_pos rfl, found]
    rfl
  | cons c before ih =>
    rw [List.cons_append, List.cons_append, opener?]
    split
    · rfl
    · exact ih starts

/-- The rest behind the first opening of a name is found, if there is one. -/
theorem opener?_eq_some : opener? name true text = some rest ↔
    ∃ before opening, OpensFirst name text before opening rest := by
  -- The search gives an opening that nothing comes before, and any such opening is the one that it
  -- gives.
  constructor
  · intro found
    obtain ⟨before, opening, whole, starts, opens, first⟩ := exists_of_opener? found
    refine ⟨before, opening, ⟨⟨whole, startsLine_true.mp starts, opens⟩, ?_⟩⟩
    intro before' opening' rest' opens'
    exact first _ _ _ opens'.whole (startsLine_true.mpr opens'.starts) opens'.opens
  · rintro ⟨before, opening, ⟨⟨whole, starts, opens⟩, first⟩⟩
    have found : (opener? name true text).isSome = true := by
      rw [whole]
      exact isSome_opener? opens (startsLine_true.mpr starts)
    obtain ⟨rest', found⟩ := Option.isSome_iff_exists.mp found
    obtain ⟨before', opening', whole', starts', opens', first'⟩ := exists_of_opener? found
    -- Both openings are the first, so they start at one place and have one bracket.
    have forth := first _ _ _ ⟨whole', startsLine_true.mp starts', opens'⟩
    have back := first' _ _ _ whole (startsLine_true.mpr starts) opens
    have same := whole'.symm.trans whole
    rw [List.append_assoc, List.append_assoc] at same
    obtain ⟨-, same⟩ := List.append_inj same (by omega)
    rw [found, opens'.rest_unique opens same]

end Search

section Brackets

variable {depth : Nat} {text body : List Char} {c : Char}

/-- What holds of the front parts of a text holds of nothing, and with the first character of the others. -/
theorem forall_prefix_cons {holds : List Char → Prop} :
    (∀ part, part <+: c :: text → holds part) ↔ holds [] ∧ ∀ part, part <+: text → holds (c :: part) := by
  constructor
  · intro all
    exact ⟨all [] List.nil_prefix, fun part within => all _ (List.cons_prefix_cons.mpr ⟨rfl, within⟩)⟩
  · rintro ⟨none, some⟩ part within
    rcases List.prefix_cons_iff.mp within with rfl | ⟨rest, rfl, inner⟩
    · exact none
    · exact some rest inner

/-- Where nothing is open nothing is left to close. -/
theorem closes_nil : Closes depth [] ↔ depth = 0 := by
  constructor
  · rintro ⟨whole, -⟩
    simpa using whole.symm
  · rintro rfl
    exact ⟨rfl, fun part within => by simp [List.prefix_nil.mp within]⟩

/-- A bracket that opens leaves one more to close. -/
theorem closes_open : Closes depth ('[' :: body) ↔ Closes (depth + 1) body := by
  have counts (part : List Char) : ('[' :: part).count ']' ≤ ('[' :: part).count '[' + depth ↔
      part.count ']' ≤ part.count '[' + (depth + 1) := by
    rw [List.count_cons_of_ne (by decide), List.count_cons_self]
    omega
  constructor
  · rintro ⟨whole, front⟩
    rw [List.count_cons_of_ne (by decide), List.count_cons_self] at whole
    exact ⟨by omega, fun part within => (counts part).mp ((forall_prefix_cons.mp front).2 part within)⟩
  · rintro ⟨whole, front⟩
    refine ⟨?_, forall_prefix_cons.mpr ⟨by simp, fun part within => (counts part).mpr (front part within)⟩⟩
    rw [List.count_cons_of_ne (by decide), List.count_cons_self]
    omega

/-- A bracket that closes leaves one less to close. -/
theorem closes_close : Closes (depth + 1) (']' :: body) ↔ Closes depth body := by
  have counts (part : List Char) : (']' :: part).count ']' ≤ (']' :: part).count '[' + (depth + 1) ↔
      part.count ']' ≤ part.count '[' + depth := by
    rw [List.count_cons_self, List.count_cons_of_ne (by decide)]
    omega
  constructor
  · rintro ⟨whole, front⟩
    rw [List.count_cons_self, List.count_cons_of_ne (by decide)] at whole
    exact ⟨by omega, fun part within => (counts part).mp ((forall_prefix_cons.mp front).2 part within)⟩
  · rintro ⟨whole, front⟩
    refine ⟨?_, forall_prefix_cons.mpr ⟨by simp, fun part within => (counts part).mpr (front part within)⟩⟩
    rw [List.count_cons_self, List.count_cons_of_ne (by decide)]
    omega

/-- Any other character makes no difference. -/
theorem closes_other (opens : c ≠ '[') (closes : c ≠ ']') : Closes depth (c :: body) ↔ Closes depth body := by
  have counts (part : List Char) : (c :: part).count ']' ≤ (c :: part).count '[' + depth ↔
      part.count ']' ≤ part.count '[' + depth := by
    rw [List.count_cons_of_ne closes, List.count_cons_of_ne opens]
  constructor
  · rintro ⟨whole, front⟩
    rw [List.count_cons_of_ne closes, List.count_cons_of_ne opens] at whole
    exact ⟨whole, fun part within => (counts part).mp ((forall_prefix_cons.mp front).2 part within)⟩
  · rintro ⟨whole, front⟩
    refine ⟨?_, forall_prefix_cons.mpr ⟨by simp, fun part within => (counts part).mpr (front part within)⟩⟩
    rw [List.count_cons_of_ne closes, List.count_cons_of_ne opens]
    exact whole

/-- Where nothing is open a bracket that closes comes too early. -/
theorem not_closes_close : ¬ Closes 0 (']' :: body) := by
  rintro ⟨-, front⟩
  exact absurd (front [']'] (List.cons_prefix_cons.mpr ⟨rfl, List.nil_prefix⟩)) (by decide)

/-- Any other character is passed. -/
theorem balanced?_other (opens : c ≠ '[') (closes : c ≠ ']') :
    balanced? depth (c :: text) = (balanced? depth text).map (c :: ·) :=
  balanced?.eq_5 depth c text opens (fun _ => closes) (fun _ _ => closes)

/-- The text up to the bracket that closes a block is the one that closes all brackets that are open, and its own,
and has that bracket behind it. -/
theorem balanced?_eq_some :
    balanced? depth text = some body ↔ ∃ rest, text = body ++ ']' :: rest ∧ Closes depth body := by
  -- The induction is on the text, while the depth changes from character to character.
  induction text generalizing depth body with
  | nil =>
    refine iff_of_false (by simp [balanced?]) ?_
    rintro ⟨rest, whole, -⟩
    simp at whole
  | cons c text ih =>
    -- A body that is not empty begins with the first character, and one that is has the bracket there.
    have passed {deeper : Nat} (closes : ∀ body, Closes depth (c :: body) ↔ Closes deeper body)
        (some : c = ']' → depth ≠ 0) (step : balanced? depth (c :: text) = (balanced? deeper text).map (c :: ·)) :
        balanced? depth (c :: text) = Option.some body ↔
          ∃ rest, c :: text = body ++ ']' :: rest ∧ Closes depth body := by
      rw [step, Option.map_eq_some_iff]
      constructor
      · rintro ⟨inner, found, rfl⟩
        obtain ⟨rest, rfl, closed⟩ := ih.mp found
        exact ⟨rest, rfl, (closes inner).mpr closed⟩
      · rintro ⟨rest, whole, closed⟩
        cases body with
        | nil => exact absurd (closes_nil.mp closed) (some (List.cons.inj whole).1)
        | cons first inner =>
          obtain ⟨rfl, others⟩ := List.cons.inj whole
          exact ⟨inner, ih.mpr ⟨rest, others, (closes inner).mp closed⟩, rfl⟩
    -- A closing bracket takes the depth down, an opening one takes it up, and nothing else touches
    -- it.
    by_cases close : c = ']'
    · subst close
      cases depth with
      | zero =>
        -- This is the bracket that closes the block, so the body is empty.
        rw [balanced?, Option.some.injEq]
        constructor
        · rintro rfl
          exact ⟨text, rfl, closes_nil.mpr rfl⟩
        · rintro ⟨rest, whole, closed⟩
          cases body with
          | nil => rfl
          | cons first inner =>
            obtain ⟨rfl, -⟩ := List.cons.inj whole
            exact absurd closed not_closes_close
      | succ depth => exact passed (fun _ => closes_close) (fun _ => Nat.succ_ne_zero depth) rfl
    · by_cases opened : c = '['
      · subst opened
        exact passed (fun _ => closes_open) (fun same => absurd same close) (by rw [balanced?])
      · exact passed (fun _ => closes_other opened close) (fun same => absurd same close)
          (balanced?_other opened close)

/-- A search goes on behind a character unless that closes a bracket and brings the counter to zero. -/
theorem search_cons {counter next : Int}
    (step : (if c = '[' then counter + 1 else if c = ']' then counter - 1 else counter) = next)
    (going : c = ']' → next ≠ 0) :
    search counter (c :: text) = (next :: (search next text).1, (search next text).2.map (c :: ·)) := by
  have stays : ¬ (c = ']' && next = 0) = true := by simpa using going
  simp only [search, step]
  exact if_neg stays

/-- A search with a counter of any sign finds the same text, and its counter is never below zero. -/
theorem search_eq (depth : Nat) (text : List Char) :
    (search (depth + 1) text).2 = balanced? depth text ∧
      ∀ counter ∈ (search (depth + 1) text).1, 0 ≤ counter := by
  -- The counter of the search and the depth of the balanced text go up and down together.
  induction text generalizing depth with
  | nil => exact ⟨by rw [search, balanced?], by simp [search]⟩
  | cons c text ih =>
    -- Where the search goes on its counter is one more than the brackets that are left to close.
    have passed {deeper : Nat}
        (step : (if c = '[' then ((depth : Int) + 1) + 1 else
          if c = ']' then ((depth : Int) + 1) - 1 else (depth : Int) + 1) = deeper + 1)
        (same : balanced? depth (c :: text) = (balanced? deeper text).map (c :: ·)) :
        (search (depth + 1) (c :: text)).2 = balanced? depth (c :: text) ∧
          ∀ counter ∈ (search (depth + 1) (c :: text)).1, 0 ≤ counter := by
      obtain ⟨found, above⟩ := ih deeper
      rw [search_cons step (fun _ => by omega), same, found]
      exact ⟨rfl, List.forall_mem_cons.mpr ⟨by omega, above⟩⟩
    by_cases close : c = ']'
    · subst close
      cases depth with
      | zero =>
        -- Here the counter comes to zero, and the search ends.
        have last : search (((0 : Nat) : Int) + 1) (']' :: text) = ([0], some []) := rfl
        rw [last]
        exact ⟨rfl, by decide⟩
      | succ depth =>
        refine passed ?_ rfl
        rw [if_neg (by decide), if_pos rfl]
        omega
    · by_cases opened : c = '['
      · subst opened
        refine passed ?_ (by rw [balanced?])
        rw [if_pos rfl]
        omega
      · refine passed ?_ (balanced?_other opened close)
        rw [if_neg opened, if_neg close]

end Brackets

section Names

variable {name text before opening rest : List Char} {c : Char}

/-- Characters of names are told apart from what stands around a name. -/
theorem isNameChar_iff : isNameChar c = true ↔
    isQuote c = false ∧ Text.isBlank c = false ∧ c ≠ ':' ∧ c ≠ '[' := by
  simp [isNameChar, and_assoc]

/-- Letters, digits and underscores are characters of names. -/
theorem isNameChar_of_word (word : c.isAlphanum = true ∨ c = '_') : isNameChar c = true := by
  -- All of them are among the first 128 characters, and there each is looked at.
  have ascii : ∀ n < 128, (Char.ofNat n).isAlphanum = true ∨ Char.ofNat n = '_' →
      isNameChar (Char.ofNat n) = true := by decide
  have small : c.toNat < 128 := by
    have ends : 'Z'.val.toNat = 90 ∧ 'z'.val.toNat = 122 ∧ '9'.val.toNat = 57 := by decide
    have value : c.toNat = c.val.toNat := rfl
    rcases word with letter | rfl
    · rcases (Bool.or_eq_true _ _).mp letter with alpha | digit
      · rcases (Bool.or_eq_true _ _).mp alpha with upper | lower
        · have last := UInt32.le_iff_toNat_le.mp (of_decide_eq_true upper).2
          omega
        · have last := UInt32.le_iff_toNat_le.mp (of_decide_eq_true ((Bool.and_eq_true _ _).mp lower).2)
          omega
      · have last := UInt32.le_iff_toNat_le.mp (of_decide_eq_true ((Bool.and_eq_true _ _).mp digit).2)
        omega
    · decide
  have known := ascii c.toNat small
  rw [Char.ofNat_toNat] at known
  exact known word

/-- In a name there is no bracket that opens. -/
theorem notMem_bracket_of_chars (chars : ∀ c ∈ name, isNameChar c = true) : '[' ∉ name := by
  intro inside
  exact absurd (chars '[' inside) (by decide)

/-- A name with a colon between blanks opens a block. -/
theorem opening_name (name : List Char) : Opening name (name ++ [' ', ':', ' ']) := by
  have none : Blank [] := fun c inside => by cases inside
  have space : Blank [' '] := List.forall_mem_singleton.mpr (by decide)
  have whole : name ++ [' ', ':', ' '] = [] ++ [] ++ name ++ [] ++ [' '] ++ ':' :: [' '] := by simp
  rw [whole]
  exact .parts none .nothing .nothing space space

/-- What stands behind a longer front is an end of what stands behind a shorter one. -/
theorem suffix_of_append_eq {front back front' back' : List Char} (same : front ++ back = front' ++ back')
    (shorter : front.length ≤ front'.length) : back' <:+ back := by
  have lengths := congrArg List.length same
  rw [List.length_append, List.length_append] at lengths
  exact List.suffix_of_suffix_length_le (same ▸ List.suffix_append front' back')
    (List.suffix_append front back) (by omega)

/-- The bracket behind a name and a colon at the start of a line is found if no opening has its bracket in front
of the name. -/
theorem opener?_name (chars : ∀ c ∈ name, isNameChar c = true) (starts : LineStart before)
    (aside : ∀ earlier opening rest', Opens name (before ++ (name ++ [' ', ':', ' ']) ++ '[' :: rest) earlier
      opening rest' → before.length ≤ (earlier ++ opening).length) :
    opener? name true (before ++ (name ++ [' ', ':', ' ']) ++ '[' :: rest) = some rest := by
  -- The opening of the name itself is there, so something is found, at that place or before it.
  have own : Opens name (before ++ (name ++ [' ', ':', ' ']) ++ '[' :: rest) before
      (name ++ [' ', ':', ' ']) rest := ⟨rfl, starts, opening_name name⟩
  have found : (opener? name true (before ++ (name ++ [' ', ':', ' ']) ++ '[' :: rest)).isSome = true :=
    isSome_opener? own.opens (startsLine_true.mpr starts)
  obtain ⟨rest', found⟩ := Option.isSome_iff_exists.mp found
  obtain ⟨earlier, opening, opens⟩ := opener?_eq_some.mp found
  have early : earlier.length ≤ before.length := opens.first _ _ _ own
  have late : before.length ≤ (earlier ++ opening).length := aside _ _ _ opens.toOpens
  have plain := notMem_bracket_of_chars chars
  -- Neither bracket is in the opening of the other, so they are one.
  rw [found]
  rcases List.append_eq_append_iff.mp opens.whole with ⟨more, split, again⟩ | ⟨more, split, again⟩
  · cases more with
    | nil => exact congrArg some (List.cons.inj again).2.symm
    | cons bracket more =>
      obtain ⟨rfl, -⟩ := List.cons.inj again
      rw [List.append_assoc before] at split
      have within := suffix_of_append_eq split early
      exact absurd (within.subset (by simp)) (opens.opens.notMem_bracket plain)
  · cases more with
    | nil => exact congrArg some (List.cons.inj again).2
    | cons bracket more =>
      obtain ⟨rfl, -⟩ := List.cons.inj again
      have within := suffix_of_append_eq split late
      exact absurd (within.subset List.mem_cons_self) (own.opens.notMem_bracket plain)

/-- The name of the block that is opened at the end of a text: what stands in front of the colon, without the
blanks and quotation marks between them. -/
def lastName (front : List Char) : List Char :=
  ((((front.reverse.dropWhile Text.isBlank).drop 1).dropWhile fun c =>
    Text.isBlank c || isQuote c).takeWhile isNameChar).reverse

/-- In front of an opening and its blanks and quotation mark nothing goes on into the name. -/
theorem takeWhile_front {lead left : List Char} (starts : LineStart before) (lead_blank : Blank lead)
    (left_mark : QuoteAtMost left) : (before ++ lead ++ left).reverse.takeWhile isNameChar = [] := by
  -- The character in front is no part of a name: it is a mark, a blank or the end of a line.
  have stops {front : List Char} {last : Char} (other : isNameChar last = false) :
      (front ++ [last]).reverse.takeWhile isNameChar = [] := by
    rw [List.reverse_append, List.reverse_singleton, List.singleton_append,
      List.takeWhile_cons_of_neg (by simp [other])]
  cases left_mark with
  | mark quote => exact stops (by simp [isNameChar, quote])
  | nothing =>
    rw [List.append_nil]
    rcases List.eq_nil_or_concat lead with rfl | ⟨others, last, rfl⟩
    · rw [List.append_nil]
      rcases starts with rfl | ⟨front, rfl⟩
      · rfl
      · exact stops (by decide)
    · have white := lead_blank last (by simp)
      rw [List.concat_eq_append, ← List.append_assoc]
      exact stops (by simp [isNameChar, white])

/-- An opening tells the name of its block. -/
theorem lastName_append (starts : LineStart before) (opens : Opening name opening) (named : IsName name) :
    lastName (before ++ opening) = name := by
  obtain ⟨lead_blank, left_mark, right_mark, gap_blank, behind_blank⟩ := opens
  rename_i lead left right gap behind
  -- Read from behind, there are blanks, the colon, the mark, the name and what stands in front of the
  -- line.
  have backwards : (before ++ (lead ++ left ++ name ++ right ++ gap ++ ':' :: behind)).reverse =
      behind.reverse ++ ':' :: ((right ++ gap).reverse ++ (name.reverse ++ (before ++ lead ++ left).reverse)) := by
    simp
  have blank : ∀ c ∈ behind.reverse, Text.isBlank c = true := fun c inside =>
    behind_blank c (List.mem_reverse.mp inside)
  have filling : ∀ c ∈ (right ++ gap).reverse, (Text.isBlank c || isQuote c) = true := fun c inside =>
    Bool.or_eq_true_iff.mpr (right_mark.filling.append gap_blank.filling c (List.mem_reverse.mp inside))
  have chars : ∀ c ∈ name.reverse, isNameChar c = true := fun c inside =>
    named.chars c (List.mem_reverse.mp inside)
  -- The last character of the name is neither a blank nor a quotation mark.
  obtain ⟨last, others, reversed⟩ := List.exists_cons_of_ne_nil (List.reverse_ne_nil_iff.mpr named.nonempty)
  obtain ⟨plain, solid, -⟩ := isNameChar_iff.mp (chars last (reversed ▸ List.mem_cons_self))
  have stops : ((name.reverse ++ (before ++ lead ++ left).reverse).dropWhile fun c =>
      Text.isBlank c || isQuote c) = name.reverse ++ (before ++ lead ++ left).reverse := by
    rw [reversed, List.cons_append, List.dropWhile_cons_of_neg (by simp [plain, solid])]
  rw [lastName, backwards, List.dropWhile_append_of_pos blank, List.dropWhile_cons_of_neg (by decide),
    List.drop_one, List.tail_cons, List.dropWhile_append_of_pos filling, stops,
    List.takeWhile_append_of_pos chars, takeWhile_front starts lead_blank left_mark, List.append_nil,
    List.reverse_reverse]

end Names

/-- A search from an opening bracket on finds the text up to the bracket that closes it, and its counter is never
below zero. -/
theorem search_bracket (rest : List Char) :
    (search 0 ('[' :: rest)).2.map List.tail = balanced? 0 rest ∧
      ∀ counter ∈ (search 0 ('[' :: rest)).1, 0 ≤ counter := by
  obtain ⟨found, above⟩ := search_eq 0 rest
  have first : search 0 ('[' :: rest) =
      (1 :: (search (0 + 1) rest).1, (search (0 + 1) rest).2.map ('[' :: ·)) :=
    search_cons rfl (fun same => absurd same (by decide))
  rw [first]
  refine ⟨?_, List.forall_mem_cons.mpr ⟨by decide, above⟩⟩
  rw [Option.map_map]
  exact Option.map_id'.trans found

section Blocks

variable {content name body : String}

/-- A block is the text that a search finds from the bracket of the first opening on. -/
theorem block?_eq_search (content name : String) :
    block? content name = ((opener? name.toList true content.toList).bind fun rest =>
      (search 0 ('[' :: rest)).2.map List.tail).map String.ofList := by
  have same : (fun rest => (search 0 ('[' :: rest)).2.map List.tail) = balanced? 0 :=
    funext fun rest => (search_bracket rest).1
  rw [same]
  rfl

/-- A block is the balanced text between the bracket of the first opening of its name and one that closes. -/
theorem block?_eq_some : block? content name = some body ↔ ∃ before opening after,
    OpensFirst name.toList content.toList before opening (body.toList ++ ']' :: after) ∧
      Balanced body.toList := by
  rw [block?, Option.map_eq_some_iff]
  -- Both ways put the search for the opening and the balanced text together.
  constructor
  · rintro ⟨inner, found, rfl⟩
    obtain ⟨rest, opened, closed⟩ := Option.bind_eq_some_iff.mp found
    obtain ⟨before, opening, first⟩ := opener?_eq_some.mp opened
    obtain ⟨after, rfl, balanced⟩ := balanced?_eq_some.mp closed
    rw [String.toList_ofList]
    exact ⟨before, opening, after, first, balanced⟩
  · rintro ⟨before, opening, after, first, balanced⟩
    exact ⟨body.toList, Option.bind_eq_some_iff.mpr ⟨_, opener?_eq_some.mpr ⟨before, opening, first⟩,
      balanced?_eq_some.mpr ⟨after, rfl, balanced⟩⟩, String.ofList_toList⟩

/-- Every balanced text is a block where its name opens it at the start of a line, and no opening has its bracket
in front of that. -/
theorem block?_name {before after : String} (chars : ∀ c ∈ name.toList, isNameChar c = true)
    (balanced : Balanced body.toList) (starts : LineStart before.toList)
    (aside : ∀ earlier opening rest,
      Opens name.toList (before ++ name ++ " : [" ++ body ++ "]" ++ after).toList earlier opening rest →
        before.toList.length ≤ (earlier ++ opening).length) :
    block? (before ++ name ++ " : [" ++ body ++ "]" ++ after) name = some body := by
  have whole : (before ++ name ++ " : [" ++ body ++ "]" ++ after).toList =
      before.toList ++ (name.toList ++ [' ', ':', ' ']) ++ '[' :: (body.toList ++ ']' :: after.toList) := by
    simp [String.toList_append]
  rw [whole] at aside
  rw [block?, whole, opener?_name chars starts aside, Option.bind_some,
    balanced?_eq_some.mpr ⟨after.toList, rfl, balanced⟩, Option.map_some, String.ofList_toList]

/-- No bracket opens the blocks of two names. -/
theorem length_ne_of_opens {one other text before opening rest before' opening' rest' : List Char}
    (named : IsName one) (named' : IsName other) (apart : one ≠ other)
    (opens : Opens one text before opening rest) (opens' : Opens other text before' opening' rest') :
    (before ++ opening).length ≠ (before' ++ opening').length := by
  -- In front of one bracket the same name would be the last one.
  intro lengths
  obtain ⟨fronts, -⟩ := List.append_inj (opens.whole.symm.trans opens'.whole) lengths
  have last := lastName_append opens.starts opens.opens named
  rw [fronts, lastName_append opens'.starts opens'.opens named'] at last
  exact apart last.symm

end Blocks

/-- A block is found by a search with a counter of brackets that is never below zero, and it is the balanced text
between the bracket of the first opening of its name and the one that closes it: it is found exactly if there are
both. Every balanced text is found again behind a name of letters, digits, underscores and the like at the start of
a line, whatever is around it, if no opening has its bracket in front of the name. The bracket of one name is never
that of another, not of a longer one. -/
theorem blocks_extracted :
    (∀ content name : String,
        block? content name = ((opener? name.toList true content.toList).bind fun rest =>
          (search 0 ('[' :: rest)).2.map List.tail).map String.ofList) ∧
      (∀ rest, ∀ counter ∈ (search 0 ('[' :: rest)).1, 0 ≤ counter) ∧
      (∀ content name body : String, block? content name = some body ↔ ∃ before opening after,
        OpensFirst name.toList content.toList before opening (body.toList ++ ']' :: after) ∧
          Balanced body.toList) ∧
      (∀ c : Char, c.isAlphanum = true ∨ c = '_' → isNameChar c = true) ∧
      (∀ before name body after : String, (∀ c ∈ name.toList, isNameChar c = true) →
        Balanced body.toList → LineStart before.toList →
        (∀ earlier opening rest,
          Opens name.toList (before ++ name ++ " : [" ++ body ++ "]" ++ after).toList earlier opening rest →
            before.toList.length ≤ (earlier ++ opening).length) →
        block? (before ++ name ++ " : [" ++ body ++ "]" ++ after) name = some body) ∧
      ∀ one other text before opening rest before' opening' rest' : List Char,
        IsName one → IsName other → one ≠ other → Opens one text before opening rest →
        Opens other text before' opening' rest' →
        (before ++ opening).length ≠ (before' ++ opening').length :=
  ⟨block?_eq_search, fun rest => (search_bracket rest).2, fun _ _ _ => block?_eq_some,
    fun _ => isNameChar_of_word,
    fun _ _ _ _ chars balanced starts aside => block?_name chars balanced starts aside,
    fun _ _ _ _ _ _ _ _ _ named named' apart opens opens' =>
      length_ne_of_opens named named' apart opens opens'⟩

/-- Behind an empty block of a longer name the block of a shorter one is found, with the brackets in it. -/
theorem tidb_extracted_behind_longer :
    block? ("tidb_ci5 : []\n" ++ "tidb" ++ " : [" ++ "'a' : [1]" ++ "]" ++ "\n]") "tidb" = some "'a' : [1]" := by
  obtain ⟨-, -, -, -, extracted, distinct⟩ := blocks_extracted
  have named : IsName "tidb".toList := ⟨by decide, List.all_eq_true.mp (by decide)⟩
  have longer : IsName "tidb_ci5".toList := ⟨by decide, List.all_eq_true.mp (by decide)⟩
  have closed : Balanced "'a' : [1]".toList := by
    refine ⟨by decide, fun part within => ?_⟩
    have few : ∀ n ≤ 9, ("'a' : [1]".toList.take n).count ']' ≤ ("'a' : [1]".toList.take n).count '[' + 0 := by
      decide
    rw [List.prefix_iff_eq_take.mp within]
    exact few _ within.length_le
  have opened : Opens "tidb_ci5".toList
      ("tidb_ci5 : []\n" ++ "tidb" ++ " : [" ++ "'a' : [1]" ++ "]" ++ "\n]").toList [] "tidb_ci5 : ".toList
      "]\ntidb : ['a' : [1]]\n]".toList :=
    ⟨by decide, .inl rfl, opening_name _⟩
  refine extracted "tidb_ci5 : []\n" "tidb" "'a' : [1]" "\n]" named.chars closed
    (.inr ⟨"tidb_ci5 : []".toList, by decide⟩) fun earlier opening rest opens => ?_
  -- The only bracket in front of the name is that of the longer name.
  have other := distinct _ _ _ _ _ _ _ _ _ longer named (by decide) opened opens
  have brackets : ∀ n < 14, ("tidb_ci5 : []\n" ++ "tidb" ++ " : [" ++ "'a' : [1]" ++ "]" ++
      "\n]").toList[n]? = some '[' → n = 11 := by decide
  have there := congrArg (·[(earlier ++ opening).length]?) opens.whole
  simp only [List.getElem?_append_right (Nat.le_refl _), Nat.sub_self, List.getElem?_cons_zero] at there
  by_contra early
  exact other (brackets _ (Nat.lt_of_not_le early) there).symm

end DialectBench.Dialect
