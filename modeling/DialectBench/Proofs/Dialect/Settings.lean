import DialectBench.Dialect.Settings
import DialectBench.Proofs.Dialect.Block
import DialectBench.Proofs.Disk.Way
import DialectBench.Proofs.Text.Utf8
import Mathlib.Data.List.Infix

/-! Settings are read from the entries of a map: from the first entry whose key ends in the key that is asked
for, which is the first entry of that key where no other one misleads. -/

namespace DialectBench.Dialect

/-- A character of a key: no quotation mark, no blank, no colon and no comma. -/
def isKeyChar (c : Char) : Bool :=
  !isQuote c && !Text.isBlank c && c != ':' && c != ','

/-- A character that stands between two entries of a map. -/
def isSeparator (c : Char) : Bool :=
  c == ',' || Text.isBlank c

/-- An entry of a map as it is written: a key and a value in quotation marks of one kind, and a colon with
blanks around it. -/
structure Entry where
  /-- The key. -/
  key : String
  /-- The value. -/
  value : String
  /-- The quotation mark. -/
  mark : Char
  /-- What stands in front of the colon. -/
  before : List Char
  /-- What stands behind the colon. -/
  after : List Char
  /-- The mark is a quotation mark. -/
  isQuote_mark : isQuote mark = true
  /-- The key can be one. -/
  isKeyChar_key : ∀ c ∈ key.toList, isKeyChar c = true
  /-- There are no quotation marks in the value. -/
  isQuote_value : ∀ c ∈ value.toList, isQuote c = false
  /-- The colon stands behind blanks. -/
  isBlank_before : ∀ c ∈ before, Text.isBlank c = true
  /-- Behind the colon there are blanks. -/
  isBlank_after : ∀ c ∈ after, Text.isBlank c = true

namespace Entry

/-- What is written behind the key. -/
def tail (entry : Entry) : List Char :=
  entry.mark :: (entry.before ++ ':' :: (entry.after ++
    entry.mark :: (entry.value.toList ++ [entry.mark])))

/-- The entry as it is written. -/
def text (entry : Entry) : List Char :=
  entry.mark :: (entry.key.toList ++ entry.tail)

/-- The key ends in another one, or is that key. -/
def endsIn (key : String) (entry : Entry) : Bool :=
  Text.endsWith entry.key key

/-- The value ends in a key and a colon, so that its own quotation mark seems to open a value of that key. -/
def Lures (entry : Entry) (key : List Char) : Prop :=
  ∃ front before after, entry.value.toList = front ++ (key ++ (before ++ ':' :: after)) ∧
    (∀ c ∈ before, Text.isBlank c = true) ∧ ∀ c ∈ after, Text.isBlank c = true

/-- The entry is taken for one of a key that is not its own: its key ends in that key, or its value in that
key and a colon. -/
def Misleads (entry : Entry) (key : String) : Prop :=
  (entry.endsIn key = true ∧ entry.key ≠ key) ∨ entry.Lures key.toList

end Entry

/-- A text is the body of a map: its entries one after the other, with separators around them. -/
inductive Renders : List Entry → List Char → Prop where
  /-- A map of no entries. -/
  | nil : Renders [] []
  /-- A comma or a blank in front of a body. -/
  | separator {entries : List Entry} {text : List Char} {c : Char} (between : isSeparator c = true)
      (rest : Renders entries text) : Renders entries (c :: text)
  /-- An entry in front of a body. -/
  | entry {entries : List Entry} {text : List Char} (entry : Entry) (rest : Renders entries text) :
      Renders (entry :: entries) (entry.text ++ text)

/-- A key that can be asked for. -/
structure IsKey (key : List Char) : Prop where
  /-- There is something in it. -/
  nonempty : key ≠ []
  /-- Its characters are those of keys. -/
  chars : ∀ c ∈ key, isKeyChar c = true

/-- The key of the dialect can be asked for. -/
theorem isKey_dialect : IsKey "db.dialect".toList :=
  ⟨by decide, List.all_eq_true.mp (by decide)⟩

/-- So can the key of the driver. -/
theorem isKey_driver : IsKey "jdbc.driver".toList :=
  ⟨by decide, List.all_eq_true.mp (by decide)⟩

/-- The value behind a key, whose quotation mark may come first. -/
def valueBehind? (named : List Char) : Option (List Char) :=
  (quoteSuffixes named).findSome? fun rest => (afterColon? rest).bind quoted?

/-- The value behind a key at the front of a text. -/
def valueAt? (key text : List Char) : Option (List Char) :=
  (afterWord? key text).bind valueBehind?

section Characters

variable {c : Char}

theorem isKeyChar_iff : isKeyChar c = true ↔
    isQuote c = false ∧ Text.isBlank c = false ∧ c ≠ ':' ∧ c ≠ ',' := by
  simp [isKeyChar, and_assoc]

/-- A separator is no quotation mark, no colon and no character of a key. -/
theorem isSeparator_spec (between : isSeparator c = true) :
    isQuote c = false ∧ c ≠ ':' ∧ isKeyChar c = false := by
  rcases (by simpa [isSeparator] using between : c = ',' ∨ Text.isBlank c = true) with rfl | white
  · decide
  · refine ⟨isQuote_of_isBlank white, ?_, ?_⟩
    · rintro rfl
      exact absurd white (by decide)
    · simp [isKeyChar, white]

end Characters

variable {entries : List Entry} {entry : Entry} {key text named tail : List Char} {c : Char}

/-- There is no colon behind the blanks if the next character is neither of them. -/
theorem afterColon?_cons_of_ne (solid : Text.isBlank c = false) (other : c ≠ ':') :
    afterColon? (c :: text) = none := by
  unfold afterColon?
  rw [List.dropWhile_cons_of_neg (by simp [solid])]
  split
  · rename_i rest same
    exact absurd (List.cons.inj same).1 other
  · rfl

/-- A blank is skipped in front of a colon. -/
theorem afterColon?_cons_of_blank (white : Text.isBlank c = true) :
    afterColon? (c :: text) = afterColon? text := by
  unfold afterColon?
  rw [List.dropWhile_cons_of_pos white]

/-- Between two entries no colon follows. -/
theorem afterColon?_of_renders (renders : Renders entries text) : afterColon? text = none := by
  induction renders with
  | nil => rfl
  | @separator _ _ c between _ ih =>
    by_cases white : Text.isBlank c = true
    · rw [afterColon?_cons_of_blank white, ih]
    · exact afterColon?_cons_of_ne (Bool.eq_false_iff.mpr white) (isSeparator_spec between).2.1
  | entry entry _ _ =>
    exact afterColon?_cons_of_ne (isBlank_of_isQuote entry.isQuote_mark)
      (ne_colon_of_isQuote entry.isQuote_mark)

/-- What is quoted begins with a quotation mark. -/
theorem quoted?_eq_some {value : List Char} (found : quoted? text = some value) :
    ∃ mark rest, text = mark :: rest ∧ isQuote mark = true := by
  cases text with
  | nil => cases found
  | cons mark rest =>
    simp only [quoted?, Option.ite_none_right_eq_some, Bool.and_eq_true] at found
    exact ⟨mark, rest, rfl, found.1.1⟩

/-- No value follows a character that is neither a quotation mark nor a blank nor a colon. -/
theorem valueBehind?_of_ne (plain : isQuote c = false) (solid : Text.isBlank c = false)
    (other : c ≠ ':') : valueBehind? (c :: text) = none := by
  simp [valueBehind?, quoteSuffixes, plain, afterColon?_cons_of_ne solid other]

/-- No value follows a quotation mark without a colon behind it. -/
theorem valueBehind?_quote (quote : isQuote c = true) (bare : afterColon? text = none) :
    valueBehind? (c :: text) = none := by
  simp [valueBehind?, quoteSuffixes, quote, bare,
    afterColon?_cons_of_ne (isBlank_of_isQuote quote) (ne_colon_of_isQuote quote)]

/-- Behind the key of an entry its value follows. -/
theorem valueBehind?_tail (entry : Entry) (text : List Char) :
    valueBehind? (entry.tail ++ text) = some entry.value.toList := by
  have solid := isBlank_of_isQuote entry.isQuote_mark
  -- The value ends at the mark of its entry, since there is no quotation mark in it.
  have free : ∀ c ∈ entry.value.toList, (c != entry.mark) = true := fun c inside => by
    refine bne_iff_ne.mpr ?_
    rintro rfl
    exact absurd entry.isQuote_mark (by simp [entry.isQuote_value _ inside])
  have ends : quoted? (entry.mark :: (entry.value.toList ++ entry.mark :: text)) =
      some entry.value.toList := by
    simp [quoted?, entry.isQuote_mark, List.takeWhile_append_of_pos free]
  simp only [valueBehind?, Entry.tail, List.cons_append, List.append_assoc, quoteSuffixes,
    entry.isQuote_mark, if_true, List.nil_append, List.findSome?_cons,
    afterColon?_colon entry.isBlank_before entry.isBlank_after solid, Option.bind_some, ends]

/-- A value follows the rest of a value only if this rest is a colon between blanks. -/
theorem valueBehind?_rest {rest : List Char} (free : ∀ c ∈ rest, isQuote c = false)
    (quote : isQuote c = true) (bare : afterColon? text = none)
    (plain : ∀ before after, rest = before ++ ':' :: after →
      (∀ c ∈ before, Text.isBlank c = true) → ¬ ∀ c ∈ after, Text.isBlank c = true) :
    valueBehind? (rest ++ c :: text) = none := by
  -- Either a quotation mark stands where the colon should be, or the rest itself has to hold the
  -- colon.
  cases head : rest with
  | nil => exact valueBehind?_quote quote bare
  | cons first others =>
    have single : quoteSuffixes (rest ++ c :: text) = [rest ++ c :: text] := by
      simp [head, quoteSuffixes, free first (head ▸ List.mem_cons_self)]
    rw [← head, valueBehind?, single, List.findSome?_singleton, Option.bind_eq_none_iff]
    intro behind colon
    by_contra found
    obtain ⟨value, found⟩ := Option.ne_none_iff_exists'.mp found
    obtain ⟨mark, more, rfl, open'⟩ := quoted?_eq_some found
    obtain ⟨before, after, whole, white, white'⟩ := afterColon?_eq_some colon
    -- Up to the first quotation mark both sides are the same.
    have unquoted : ∀ c ∈ before ++ ':' :: after, (!isQuote c) = true := by
      intro c inside
      rcases List.mem_append.mp inside with front | back
      · simp [isQuote_of_isBlank (white c front)]
      · rcases List.mem_cons.mp back with rfl | back
        · decide
        · simp [isQuote_of_isBlank (white' c back)]
    have same := congrArg (List.takeWhile fun c => !isQuote c) whole
    rw [List.takeWhile_append_of_pos (by simpa using free), List.takeWhile_append_of_pos unquoted] at same
    simp [quote, open'] at same
    exact plain before after same white white'

/-- A key is looked for behind a quotation mark, if there is one, and at the place itself. -/
theorem afterName?_eq (key text : List Char) :
    afterName? key quoted? text = (quoteSuffixes text).findSome? (valueAt? key) := by
  refine congrArg (fun look => (quoteSuffixes text).findSome? look) (funext fun unquoted => ?_)
  unfold valueAt?
  cases afterWord? key unquoted <;> rfl

/-- There is no value at a character that keys do not hold. -/
theorem valueAt?_of_not (asked : IsKey key) (other : isKeyChar c = false) :
    valueAt? key (c :: text) = none := by
  obtain ⟨first, others, rfl⟩ := List.exists_cons_of_ne_nil asked.nonempty
  have unlike : first ≠ c := by
    rintro rfl
    exact absurd (asked.chars first List.mem_cons_self) (by simp [other])
  simp [valueAt?, afterWord?, unlike]

/-- At a quotation mark a key is looked for behind it alone. -/
theorem afterName?_quote (asked : IsKey key) (quote : isQuote c = true) :
    afterName? key quoted? (c :: text) = valueAt? key text := by
  have other : valueAt? key (c :: text) = none := valueAt?_of_not asked (by simp [isKeyChar, quote])
  rw [afterName?_eq, quoteSuffixes, if_pos quote, List.findSome?_cons, List.findSome?_singleton, other]
  cases valueAt? key text <;> rfl

/-- Elsewhere a key is looked for at the place itself. -/
theorem afterName?_plain (plain : isQuote c = false) :
    afterName? key quoted? (c :: text) = valueAt? key (c :: text) := by
  rw [afterName?_eq, quoteSuffixes, if_neg (by simp [plain]), List.findSome?_singleton]

/-- A key that a text begins with lies in its front if a quotation mark stands behind that. -/
theorem prefix_of_prefix_append (asked : IsKey key) {part : List Char} (quote : isQuote c = true)
    (starts : key <+: part ++ c :: text) : key <+: part := by
  rcases List.prefix_or_prefix_of_prefix starts (List.prefix_append _ _) with within | beyond
  · exact within
  · obtain ⟨more, rfl⟩ := beyond
    cases more with
    | nil => simp
    | cons first more =>
      -- The key would hold the quotation mark.
      obtain ⟨rfl, -⟩ := List.cons_prefix_cons.mp ((List.prefix_append_right_inj part).mp starts)
      have plain := (isKeyChar_iff.mp (asked.chars first (by simp))).1
      simp [quote] at plain

/-- At a part of a text with a quotation mark behind it a value is found only behind a key in that part. -/
theorem valueAt?_part (asked : IsKey key) {part : List Char} (quote : isQuote c = true)
    (bare : ∀ rest, part = key ++ rest → valueBehind? (rest ++ c :: text) = none) :
    valueAt? key (part ++ c :: text) = none := by
  by_cases starts : key <+: part
  · obtain ⟨rest, rfl⟩ := starts
    simp [valueAt?, afterWord?, bare rest rfl]
  · have absent : ¬ key <+: part ++ c :: text := mt (prefix_of_prefix_append asked quote) starts
    simp [valueAt?, afterWord?, absent]

/-- Between two entries no value is found. -/
theorem valueAt?_of_renders (asked : IsKey key) (renders : Renders entries text) :
    valueAt? key text = none := by
  cases renders with
  | nil =>
    obtain ⟨first, others, rfl⟩ := List.exists_cons_of_ne_nil asked.nonempty
    rfl
  | separator between _ => exact valueAt?_of_not asked (isSeparator_spec between).2.2
  | entry entry _ => exact valueAt?_of_not asked (by simp [isKeyChar, entry.isQuote_mark])

/-- A place where nothing is found is passed. -/
theorem settingFrom?_pass (nothing : afterName? key quoted? (c :: text) = none) :
    settingFrom? key (c :: text) = settingFrom? key text := by
  rw [settingFrom?, nothing]

/-- A quotation mark is passed if there is no value behind it. -/
theorem settingFrom?_quote (asked : IsKey key) (quote : isQuote c = true)
    (nothing : valueAt? key text = none) : settingFrom? key (c :: text) = settingFrom? key text :=
  settingFrom?_pass ((afterName?_quote asked quote).trans nothing)

/-- What is neither a quotation mark nor a character of keys is passed. -/
theorem settingFrom?_other (asked : IsKey key) (plain : isQuote c = false) (other : isKeyChar c = false) :
    settingFrom? key (c :: text) = settingFrom? key text :=
  settingFrom?_pass ((afterName?_plain plain).trans (valueAt?_of_not asked other))

/-- Blanks are passed. -/
theorem settingFrom?_blanks (asked : IsKey key) {blanks : List Char}
    (white : ∀ c ∈ blanks, Text.isBlank c = true) :
    settingFrom? key (blanks ++ text) = settingFrom? key text := by
  induction blanks with
  | nil => rfl
  | cons c blanks ih =>
    have blank := white c List.mem_cons_self
    rw [List.cons_append, settingFrom?_other asked (isQuote_of_isBlank blank) (by simp [isKeyChar, blank]),
      ih fun c inside => white c (List.mem_cons_of_mem _ inside)]

/-- A part of a text with a quotation mark behind it is passed if no value follows a key in it. -/
theorem settingFrom?_part (asked : IsKey key) {part : List Char} (quote : isQuote c = true)
    (free : ∀ c ∈ part, isQuote c = false)
    (bare : ∀ passed rest, part = passed ++ (key ++ rest) → valueBehind? (rest ++ c :: text) = none) :
    settingFrom? key (part ++ c :: text) = settingFrom? key (c :: text) := by
  -- Each place in the part is passed: a value behind a key there would have to be behind the rest of
  -- the part.
  induction part with
  | nil => rfl
  | cons first part ih =>
    have here : valueAt? key (first :: part ++ c :: text) = none :=
      valueAt?_part asked quote fun rest whole => bare [] rest whole
    rw [List.cons_append] at here ⊢
    rw [settingFrom?_pass ((afterName?_plain (free first List.mem_cons_self)).trans here)]
    exact ih (fun c inside => free c (List.mem_cons_of_mem _ inside)) fun passed rest whole =>
      bare (first :: passed) rest (by rw [whole, List.cons_append])

namespace Entry

/-- Behind a part of the key that does not come to its end no value follows. -/
theorem valueBehind?_key (entry : Entry) {passed rest : List Char} (some : rest ≠ [])
    (whole : entry.key.toList = passed ++ rest) (text : List Char) :
    valueBehind? (rest ++ text) = none := by
  obtain ⟨first, others, rfl⟩ := List.exists_cons_of_ne_nil some
  have char := entry.isKeyChar_key first (by simp [whole])
  obtain ⟨plain, solid, colon, -⟩ := isKeyChar_iff.mp char
  exact valueBehind?_of_ne plain solid colon

/-- No value is found at a part of the key that is longer than the key that is asked for. -/
theorem valueAt?_longer (entry : Entry) (asked : IsKey key) {part : List Char}
    (within : part <:+ entry.key.toList) (longer : key.length < part.length) (text : List Char) :
    valueAt? key (part ++ (entry.tail ++ text)) = none := by
  obtain ⟨passed, whole⟩ := within
  refine valueAt?_part asked entry.isQuote_mark fun rest split => ?_
  have some : rest ≠ [] := by
    rintro rfl
    simp [split] at longer
  have behind : entry.key.toList = passed ++ key ++ rest := by simp [← whole, split]
  exact entry.valueBehind?_key some behind _

/-- At the end of the key of an entry its value is found. -/
theorem valueAt?_key (entry : Entry) (key text : List Char) :
    valueAt? key (key ++ (entry.tail ++ text)) = some entry.value.toList := by
  simp [valueAt?, afterWord?, valueBehind?_tail]

/-- Within the key of an entry the value is found at the place from which on it is the key that is asked for. -/
theorem settingFrom?_key (entry : Entry) (asked : IsKey key) {front : List Char}
    (within : front ++ key <:+ entry.key.toList) (text : List Char) :
    settingFrom? key (front ++ key ++ (entry.tail ++ text)) = some entry.value.toList := by
  have plain : ∀ c ∈ front ++ key, isQuote c = false := fun c inside =>
    (isKeyChar_iff.mp (entry.isKeyChar_key c (within.subset inside))).1
  -- The front is passed character by character, since before the end of the key no value follows.
  induction front with
  | nil =>
    have found := entry.valueAt?_key key text
    obtain ⟨first, others, rfl⟩ := List.exists_cons_of_ne_nil asked.nonempty
    rw [List.nil_append, List.cons_append] at *
    rw [settingFrom?, afterName?_plain (plain first List.mem_cons_self), found]
  | cons c front ih =>
    have early := entry.valueAt?_longer asked within
      (by simp only [List.length_append, List.length_cons]; omega) text
    simp only [List.cons_append] at early plain within ⊢
    rw [settingFrom?_pass ((afterName?_plain (plain c List.mem_cons_self)).trans early)]
    exact ih ((List.suffix_cons c _).trans within) fun c inside =>
      plain c (List.mem_cons_of_mem _ inside)

/-- An entry whose key ends in the key that is asked for gives its value. -/
theorem settingFrom?_text (entry : Entry) (asked : IsKey key) (ends : key <:+ entry.key.toList)
    (text : List Char) : settingFrom? key (entry.text ++ text) = some entry.value.toList := by
  obtain ⟨front, whole⟩ := ends
  have inner := entry.settingFrom?_key asked (by rw [whole]) text
  have written : entry.text ++ text = entry.mark :: (front ++ key ++ (entry.tail ++ text)) := by
    simp [Entry.text, ← whole]
  rw [written]
  -- The key that is asked for begins right behind the mark or later in the key of the entry.
  cases front with
  | nil =>
    -- The quotation mark itself is skipped, so the entry is found at its start.
    rw [settingFrom?, afterName?_quote asked entry.isQuote_mark, List.nil_append, entry.valueAt?_key]
  | cons c front =>
    rw [settingFrom?_quote asked entry.isQuote_mark, inner]
    exact entry.valueAt?_longer asked (by rw [whole])
      (by simp only [List.length_append, List.length_cons]; omega) text

/-- An entry that does not end in the key that is asked for, neither in its key nor in its value, is passed. -/
theorem settingFrom?_pass_text (entry : Entry) (asked : IsKey key) (other : ¬ key <:+ entry.key.toList)
    (honest : ¬ entry.Lures key) (renders : Renders entries text) :
    settingFrom? key (entry.text ++ text) = settingFrom? key text := by
  -- A key that stands inside the key of the entry has more of it behind, and not a colon.
  have inKey : ∀ passed rest, entry.key.toList = passed ++ (key ++ rest) → ∀ more,
      valueBehind? (rest ++ more) = none := by
    intro passed rest whole more
    have behind : entry.key.toList = passed ++ key ++ rest := by simp [whole]
    refine entry.valueBehind?_key ?_ behind more
    rintro rfl
    exact other ⟨passed, by simp [whole]⟩
  -- A key that stands inside the value has the rest of it behind, which the entry does not use to
  -- lure.
  have inValue : ∀ passed rest, entry.value.toList = passed ++ (key ++ rest) →
      valueBehind? (rest ++ entry.mark :: text) = none := by
    intro passed rest whole
    refine valueBehind?_rest (fun c inside => entry.isQuote_value c (by simp [whole, inside]))
      entry.isQuote_mark (afterColon?_of_renders renders) ?_
    rintro before after rfl white white'
    exact honest ⟨passed, before, after, whole, white, white'⟩
  have keyPlain : ∀ c ∈ entry.key.toList, isQuote c = false := fun c inside =>
    (isKeyChar_iff.mp (entry.isKeyChar_key c inside)).1
  -- Between the marks there is only the colon with its blanks.
  have gap (rest : List Char) : valueAt? key (entry.before ++ ':' :: rest) = none := by
    cases blanks : entry.before with
    | nil => exact valueAt?_of_not asked (by decide)
    | cons c blanks =>
      have white := entry.isBlank_before c (by simp [blanks])
      exact valueAt?_of_not asked (by simp [isKeyChar, white])
  simp only [Entry.text, Entry.tail, List.cons_append, List.append_assoc, List.nil_append]
  -- From the first quotation mark to the last one nothing is found, part by part.
  rw [settingFrom?_quote asked entry.isQuote_mark
      (valueAt?_part asked entry.isQuote_mark fun rest whole => inKey [] rest whole _),
    settingFrom?_part asked entry.isQuote_mark keyPlain fun passed rest whole => inKey passed rest whole _,
    settingFrom?_quote asked entry.isQuote_mark (gap _),
    settingFrom?_blanks asked entry.isBlank_before,
    settingFrom?_other asked (by decide) (by decide),
    settingFrom?_blanks asked entry.isBlank_after,
    settingFrom?_quote asked entry.isQuote_mark
      (valueAt?_part asked entry.isQuote_mark fun rest whole => inValue [] rest whole),
    settingFrom?_part asked entry.isQuote_mark entry.isQuote_value inValue,
    settingFrom?_quote asked entry.isQuote_mark (valueAt?_of_renders asked renders)]

end Entry

/-- The value of the first entry whose key ends in a key. -/
def valueEnding? (entries : List Entry) (key : String) : Option String :=
  (entries.find? (Entry.endsIn key)).map Entry.value

/-- The value of the first entry of a key. -/
def valueOf? (entries : List Entry) (key : String) : Option String :=
  (entries.find? (·.key = key)).map Entry.value

/-- No value before the first entry whose key ends in a key lures. -/
def Honest (entries : List Entry) (key : String) : Prop :=
  ∀ entry ∈ entries.takeWhile fun entry => !entry.endsIn key, ¬ entry.Lures key.toList

/-- No entry before the first one of a key misleads. -/
def Clear (entries : List Entry) (key : String) : Prop :=
  ∀ entry ∈ entries.takeWhile (·.key ≠ key), ¬ entry.Misleads key

/-- In the body of a map a key is set to the value of the first entry whose key ends in it. -/
theorem settingFrom?_of_renders {key : String} (asked : IsKey key.toList) (renders : Renders entries text)
    (honest : Honest entries key) :
    settingFrom? key.toList text = (valueEnding? entries key).map String.toList := by
  -- The induction follows the way in which the map is written.
  induction renders with
  | nil =>
    rw [settingFrom?, afterName?_eq, quoteSuffixes, List.findSome?_singleton,
      valueAt?_of_renders asked .nil]
    rfl
  | separator between _ ih =>
    obtain ⟨plain, -, other⟩ := isSeparator_spec between
    rw [settingFrom?_other asked plain other, ih honest]
  | @entry entries text entry rest ih =>
    -- An entry that ends in the key gives its value, and the others are passed.
    cases ends : entry.endsIn key with
    | true =>
      rw [entry.settingFrom?_text asked (List.isSuffixOf_iff_suffix.mp ends), valueEnding?,
        List.find?_cons_of_pos ends]
      rfl
    | false =>
      rw [Honest, List.takeWhile_cons_of_pos (by simp [ends])] at honest
      obtain ⟨plain, honest⟩ := List.forall_mem_cons.mp honest
      have other : ¬ key.toList <:+ entry.key.toList := fun suffix => by
        simp [Entry.endsIn, Text.endsWith, List.isSuffixOf_iff_suffix.mpr suffix] at ends
      rw [entry.settingFrom?_pass_text asked other plain rest, valueEnding?,
        List.find?_cons_of_neg (by simp [ends])]
      exact ih honest

/-- The same of the body as a text. -/
theorem setting?_of_renders {body key : String} (asked : IsKey key.toList)
    (renders : Renders entries body.toList) (honest : Honest entries key) :
    setting? body key = valueEnding? entries key := by
  rw [setting?, settingFrom?_of_renders asked renders honest, Option.map_map]
  simp [Function.comp_def]

/-- Where no entry misleads, none lures, and the first entry whose key ends in a key is its first entry. -/
theorem Clear.honest {key : String} (clear : Clear entries key) :
    Honest entries key ∧ valueEnding? entries key = valueOf? entries key := by
  induction entries with
  | nil => exact ⟨by simp [Honest], rfl⟩
  | cons entry entries ih =>
    -- The first entry of the key itself ends both searches at once.
    by_cases own : entry.key = key
    · have ends : entry.endsIn key = true := by simp [Entry.endsIn, Text.endsWith, own]
      refine ⟨?_, ?_⟩
      · rw [Honest, List.takeWhile_cons_of_neg (by simp [ends])]
        simp
      · rw [valueEnding?, valueOf?, List.find?_cons_of_pos ends,
          List.find?_cons_of_pos (by simpa using own)]
    · rw [Clear, List.takeWhile_cons_of_pos (by simpa using own)] at clear
      obtain ⟨plain, clear⟩ := List.forall_mem_cons.mp clear
      have ends : entry.endsIn key = false := Bool.eq_false_iff.mpr fun ends => plain (.inl ⟨ends, own⟩)
      obtain ⟨honest, same⟩ := ih clear
      refine ⟨?_, ?_⟩
      · rw [Honest, List.takeWhile_cons_of_pos (by simp [ends])]
        exact List.forall_mem_cons.mpr ⟨fun lures => plain (.inr lures), honest⟩
      · rw [valueEnding?, valueOf?, List.find?_cons_of_neg (by simp [ends]),
          List.find?_cons_of_neg (by simpa using own)]
        exact same

/-- A key has no value if and only if no entry has the key. -/
theorem valueOf?_eq_none {key : String} :
    valueOf? entries key = none ↔ ∀ entry ∈ entries, entry.key ≠ key := by
  simp [valueOf?]

/-- A value without a colon does not lure. -/
theorem Entry.not_lures (plain : ':' ∉ entry.value.toList) (key : List Char) : ¬ entry.Lures key := by
  rintro ⟨front, before, after, whole, -, -⟩
  exact plain (by simp [whole])

/-- Where no value holds a colon, none lures. -/
theorem honest_of_plain (plain : ∀ entry ∈ entries, ':' ∉ entry.value.toList) (key : String) :
    Honest entries key := fun entry member =>
  entry.not_lures (plain entry (List.takeWhile_subset _ member)) key.toList

/-- Where no value holds a colon, and no key ends in the one that is asked for but itself, no entry
misleads. -/
theorem clear_of_plain {key : String} (plain : ∀ entry ∈ entries, ':' ∉ entry.value.toList)
    (apart : ∀ entry ∈ entries, entry.endsIn key = true → entry.key = key) : Clear entries key := by
  intro entry member
  have listed := List.takeWhile_subset _ member
  rintro (⟨ends, other⟩ | lures)
  · exact other (apart entry listed ends)
  · exact entry.not_lures (plain entry listed) _ lures

/-- Settings fit TiDB if the dialect, if any, is one of TiDB or of MySQL, and the driver, if any, is the one
for MySQL. -/
theorem misfit?_tidb {settings : ConfiguredDialect} :
    misfit? .tidb settings = none ↔ (∀ dialect ∈ settings.dialect, fitsTidb dialect = true) ∧
      ∀ driver ∈ settings.driver, driver = mysqlDriver := by
  obtain ⟨dialect, driver⟩ := settings
  cases dialect <;> cases driver <;> simp [misfit?, Option.filter] <;> grind

/-- The settings of a database are read from its block. -/
theorem settings_of_block {d : Disk} {workspace : Path} {backend : Backend}
    {content block : String} (text : d.readText (configurationPath workspace) = .ok content)
    (found : block? content backend.name = some block) :
    settings d workspace backend =
      .ok ⟨setting? block "db.dialect", setting? block "jdbc.driver"⟩ := by
  unfold settings
  -- The path is the same on both sides, and its text does not matter.
  generalize configurationPath workspace = path at text
  simp only [text, found]

/-- MySQL fits any settings, so its block is all that must be there. -/
theorem checked_mysql {d : Disk} {workspace : Path} {content block : String}
    (text : d.readText (configurationPath workspace) = .ok content)
    (found : block? content Backend.mysql.name = some block) :
    checked d workspace .mysql =
      .ok ⟨setting? block "db.dialect", setting? block "jdbc.driver"⟩ := by
  unfold checked
  rw [settings_of_block text found]
  rfl

/-- TiDB is accepted if its settings fit. -/
theorem checked_tidb_iff {d : Disk} {workspace : Path} {content block : String}
    (text : d.readText (configurationPath workspace) = .ok content)
    (found : block? content Backend.tidb.name = some block) :
    (∃ settings, checked d workspace .tidb = .ok settings) ↔
      misfit? .tidb ⟨setting? block "db.dialect", setting? block "jdbc.driver"⟩ = none := by
  unfold checked
  rw [settings_of_block text found]
  dsimp only
  cases misfit? .tidb ⟨setting? block "db.dialect", setting? block "jdbc.driver"⟩ <;> simp

/-- In the body of a map a key is set to the value of the first entry whose key ends in it, if no value before
that ends in the key and a colon. Where no entry before the one of the key misleads, this is the first entry of
the key, and there is none if and only if no entry has the key; and if so for the dialect and the driver, a
workspace with that map for TiDB is accepted if and only if the dialect, if any, is one of TiDB or of MySQL, and
the driver, if any, is the one for MySQL. -/
theorem settings_read_by_key_ending {body : String} (renders : Renders entries body.toList) :
    (∀ key : String, IsKey key.toList → Honest entries key →
        setting? body key = valueEnding? entries key) ∧
      (∀ key : String, IsKey key.toList → Clear entries key →
        setting? body key = valueOf? entries key ∧
          (setting? body key = none ↔ ∀ entry ∈ entries, entry.key ≠ key)) ∧
      (Clear entries "db.dialect" → Clear entries "jdbc.driver" →
        ∀ (d : Disk) (workspace : Path) (content : String),
          d.readText (configurationPath workspace) = .ok content →
          block? content Backend.tidb.name = some body →
          ((∃ settings, checked d workspace .tidb = .ok settings) ↔
            (∀ dialect, valueOf? entries "db.dialect" = some dialect →
              Text.contains dialect "TiDBDialect" = true ∨ Text.contains dialect "MySQLDialect" = true) ∧
            ∀ driver, valueOf? entries "jdbc.driver" = some driver →
              driver = "com.mysql.cj.jdbc.Driver")) := by
  -- Clear entries are honest, so what is read is what the map says.
  have known {key : String} (asked : IsKey key.toList) (clear : Clear entries key) :
      setting? body key = valueOf? entries key :=
    (setting?_of_renders asked renders clear.honest.1).trans clear.honest.2
  refine ⟨fun key asked honest => setting?_of_renders asked renders honest,
    fun key asked clear => ⟨known asked clear, known asked clear ▸ valueOf?_eq_none⟩,
    fun dialects drivers d workspace content text found => ?_⟩
  rw [checked_tidb_iff text found, misfit?_tidb, known isKey_dialect dialects,
    known isKey_driver drivers]
  simp [fitsTidb, mysqlDriver]

/-- A text in which no quotation mark is found has none. -/
theorem unquoted_of_all (all : text.all (!isQuote ·) = true) : ∀ c ∈ text, isQuote c = false := by
  intro c inside
  simpa using List.all_eq_true.mp all c inside

/-- An entry with a blank on either side of the colon. -/
def Entry.spaced (mark : Char) (key value : String) (quote : isQuote mark = true)
    (keyed : ∀ c ∈ key.toList, isKeyChar c = true) (bare : ∀ c ∈ value.toList, isQuote c = false) :
    Entry where
  key
  value
  mark
  before := [' ']
  after := [' ']
  isQuote_mark := quote
  isKeyChar_key := keyed
  isQuote_value := bare
  isBlank_before := List.forall_mem_singleton.mpr (by decide)
  isBlank_after := List.forall_mem_singleton.mpr (by decide)

/-- A map with a foreign dialect, and a dialect of MySQL under a longer key in front of it. -/
def foreign : List Entry :=
  [.spaced '\'' "hibernate.db.dialect" "MySQLDialect" (by decide) (List.all_eq_true.mp (by decide))
      (unquoted_of_all (by decide)),
    .spaced '\'' "db.dialect" "OracleDialect" (by decide) (List.all_eq_true.mp (by decide))
      (unquoted_of_all (by decide))]

/-- That map as it is written. -/
def foreignBody : String :=
  "'hibernate.db.dialect' : 'MySQLDialect',\n'db.dialect' : 'OracleDialect'"

/-- In that map the dialect is read from the longer key, so TiDB is accepted with the foreign one. -/
theorem foreign_dialect_overlooked :
    Renders foreign foreignBody.toList ∧ IsKey "db.dialect".toList ∧
      valueOf? foreign "db.dialect" = some "OracleDialect" ∧
      setting? foreignBody "db.dialect" = some "MySQLDialect" ∧
      setting? foreignBody "db.dialect" ≠ valueOf? foreign "db.dialect" ∧
      fitsTidb "OracleDialect" = false ∧
      misfit? .tidb ⟨setting? foreignBody "db.dialect", setting? foreignBody "jdbc.driver"⟩ = none := by
  -- The map of two entries is written with a comma and a line feed in between.
  have renders : Renders foreign foreignBody.toList := by
    have written : foreignBody.toList = foreign[0].text ++ ',' :: '\n' :: (foreign[1].text ++ []) := by
      decide
    rw [written]
    exact .entry _ (.separator (by decide) (.separator (by decide) (.entry _ .nil)))
  have plain : ∀ entry ∈ foreign, ':' ∉ entry.value.toList := by decide
  have dialect : setting? foreignBody "db.dialect" = some "MySQLDialect" := by
    rw [setting?_of_renders isKey_dialect renders (honest_of_plain plain _)]
    decide
  have driver : setting? foreignBody "jdbc.driver" = none := by
    rw [setting?_of_renders isKey_driver renders (honest_of_plain plain _)]
    decide
  have own : valueOf? foreign "db.dialect" = some "OracleDialect" := by decide
  refine ⟨renders, isKey_dialect, own, dialect, by rw [dialect, own]; decide, by decide, ?_⟩
  rw [dialect, driver]
  decide

/-- A map with a dialect and a driver that fit TiDB. -/
def fitting : List Entry :=
  [.spaced '"' "db.dialect" "TiDBDialect" (by decide) (List.all_eq_true.mp (by decide))
      (unquoted_of_all (by decide)),
    .spaced '\'' "jdbc.driver" "com.mysql.cj.jdbc.Driver" (by decide) (List.all_eq_true.mp (by decide))
      (unquoted_of_all (by decide))]

/-- That map as it is written. -/
def fittingBody : String :=
  "\"db.dialect\" : \"TiDBDialect\",\n'jdbc.driver' : 'com.mysql.cj.jdbc.Driver'"

/-- A configuration with that map for TiDB. -/
def fittingContent : String := "tidb: [" ++ fittingBody ++ "]"

/-- A workspace with that configuration. -/
def fittingDisk : Disk where
  entries :=
    [(["ws"], .directory 0), (["ws", "local-build-plugins"], .directory 0),
      (["ws", "local-build-plugins", "src"], .directory 0),
      (["ws", "local-build-plugins", "src", "main"], .directory 0),
      (["ws", "local-build-plugins", "src", "main", "groovy"], .directory 0),
      (["ws", "local-build-plugins", "src", "main", "groovy", "local.databases.gradle"],
        .file (Text.encode fittingContent) false 0)]
  current := []
  clock := 0

/-- The configuration is read. -/
theorem readText_fitting :
    fittingDisk.readText (configurationPath "ws") = .ok fittingContent := by
  have way : fittingDisk.Reaches (configurationPath "ws")
      ["ws", "local-build-plugins", "src", "main", "groovy", "local.databases.gradle"]
      (.file (Text.encode fittingContent) false 0) :=
    { named := by decide
      relative := by decide
      steps := by decide
      through := by decide
      there := rfl
      solid := by simp }
  exact way.readText_eq (Text.text?_encode _)

/-- In that workspace the dialect is read from its key, and TiDB is accepted. -/
theorem fitting_accepted :
    (setting? fittingBody "db.dialect" = valueOf? fitting "db.dialect" ∧
      (setting? fittingBody "db.dialect" = none ↔ ∀ entry ∈ fitting, entry.key ≠ "db.dialect")) ∧
      ∃ settings, checked fittingDisk "ws" .tidb = .ok settings := by
  have renders : Renders fitting fittingBody.toList := by
    have written : fittingBody.toList = fitting[0].text ++ ',' :: '\n' :: (fitting[1].text ++ []) := by
      decide
    rw [written]
    exact .entry _ (.separator (by decide) (.separator (by decide) (.entry _ .nil)))
  have plain : ∀ entry ∈ fitting, ':' ∉ entry.value.toList := by decide
  have dialects : Clear fitting "db.dialect" := clear_of_plain plain (by decide)
  have drivers : Clear fitting "jdbc.driver" := clear_of_plain plain (by decide)
  obtain ⟨-, read, accepted⟩ := settings_read_by_key_ending renders
  refine ⟨read "db.dialect" isKey_dialect dialects,
    (accepted dialects drivers fittingDisk "ws" fittingContent readText_fitting (by decide)).mpr ⟨?_, ?_⟩⟩
  · intro dialect own
    obtain rfl : "TiDBDialect" = dialect := Option.some.inj own
    exact .inl (by decide)
  · intro driver own
    exact (Option.some.inj own).symm

end DialectBench.Dialect
