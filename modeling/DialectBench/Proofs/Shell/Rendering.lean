import DialectBench.Shell.Quoting
import DialectBench.Shell.Token
import Mathlib.Data.List.Basic

/-! Words that are put together for a shell are the words that it finds, but for a comment. -/

namespace DialectBench.Shell

variable {c : Char} {word : List Char} {words : List String} {s : Scan}
  {open? : Option (List Fragment)} {tokens : List Token}

/-- A word that is written without quotes. -/
def isBare (word : List Char) : Bool :=
  !word.isEmpty && word.all isPlain

/-- A word that is written without quotes although its first character opens a comment. -/
def opensComment (word : List Char) : Bool :=
  isBare word && word.head? = some '#'

/-- The parts in which a written word is read. -/
def partsOf (word : List Char) : Word :=
  word.map (if isBare word then .plain else .literal)

/-- The characters that mean something to a shell inside a word or at its end: operators, blanks,
quotes and expansions, and those that make a pattern, a list, a home directory or a line of the
history of a word. -/
def activeChars : List Char :=
  "|&;<>()$\u0060\\\"' \t\n*?[]~!^\x7b\x7d".toList

/-- The texts of the words in a script; what is no word, or has something to be expanded, has
none. -/
def texts? (script : List Char) : Option (List (Option String)) :=
  (tokens? script).map (·.map Token.text?)

/-! A word between quotes, and a word without. -/

/-- No character that goes without quotes is active. -/
theorem isPlain_of_mem_activeChars (active : c ∈ activeChars) : isPlain c = false := by
  have all : activeChars.all (fun d => !isPlain d) = true := by decide
  simpa using List.all_eq_true.mp all c active

/-- A plain character goes on with a word; a number sign has to be inside of one for that. -/
theorem read_plain (plain : isPlain c) (inside : c = '#' → open?.isSome) :
    Scan.read ⟨.normal, open?, tokens⟩ c =
      ⟨.normal, some (.plain c :: open?.getD []), tokens⟩ := by
  -- A plain character is none of those that the shell acts upon, the back quote included.
  have apart : ∀ d ∈ activeChars, c ≠ d := by
    rintro d active rfl
    simp [isPlain_of_mem_activeChars active] at plain
  have quote : c.toNat ≠ 96 := fun same =>
    apart '\u0060' (by decide) (Char.ext (UInt32.toNat_inj.mp same))
  have operator : isOperatorChar c = false := by
    simp [isOperatorChar, apart ';' (by decide), apart '&' (by decide), apart '|' (by decide),
      apart '<' (by decide), apart '>' (by decide), apart '(' (by decide), apart ')' (by decide)]
  have comment : (c = '#' && open?.isNone) = false := by
    cases open? with
    | none => simpa using inside
    | some parts => simp
  simp [Scan.read, Scan.readNormal, Scan.push, apart ' ' (by decide), apart '\t' (by decide),
    apart '\n' (by decide), apart '<' (by decide), apart '>' (by decide), operator, comment,
    apart '\'' (by decide), apart '"' (by decide), apart '\\' (by decide),
    apart '$' (by decide), quote]

/-- Plain characters go on with a word. -/
theorem foldl_plain (plain : ∀ c ∈ word, isPlain c) (parts : List Fragment) :
    word.foldl Scan.read ⟨.normal, some parts, tokens⟩ =
      ⟨.normal, some ((word.map .plain).reverse ++ parts), tokens⟩ := by
  induction word generalizing parts with
  | nil => rfl
  | cons c word ih =>
    rw [List.foldl_cons, read_plain (plain c (by simp)) (by simp),
      ih (fun d mem => plain d (by simp [mem]))]
    simp

/-- What is written for a character between single quotes is read as the character. -/
theorem foldl_inQuotes (parts : List Fragment) :
    (inQuotes c).foldl Scan.read ⟨.single, some parts, tokens⟩ =
      ⟨.single, some (.literal c :: parts), tokens⟩ := by
  by_cases quote : c = '\''
  · subst quote
    rfl
  · simp [inQuotes, quote, Scan.read, Scan.push]

/-- What is written between single quotes is read as it is. -/
theorem foldl_flatMap_inQuotes (parts : List Fragment) :
    (word.flatMap inQuotes).foldl Scan.read ⟨.single, some parts, tokens⟩ =
      ⟨.single, some ((word.map .literal).reverse ++ parts), tokens⟩ := by
  induction word generalizing parts with
  | nil => rfl
  | cons c word ih =>
    rw [List.flatMap_cons, List.foldl_append, foldl_inQuotes, ih]
    simp

/-- A written word is read as its parts, behind what was read of a word already. Only where it begins a word
may it open a comment. -/
theorem foldl_quoteChars_onto (kept : open? = none → opensComment word = false) :
    (quoteChars word).foldl Scan.read ⟨.normal, open?, tokens⟩ =
      ⟨.normal, some ((partsOf word).reverse ++ open?.getD []), tokens⟩ := by
  -- A word in quotes is read in the mode for them, and a bare one character by character.
  cases bare : isBare word with
  | false =>
    have quoted : quoteChars word = '\'' :: word.flatMap inQuotes ++ ['\''] := if_neg (by
      simpa [isBare] using bare)
    have opened : Scan.read ⟨.normal, open?, tokens⟩ '\'' =
        ⟨.single, some (open?.getD []), tokens⟩ := rfl
    have closed (parts : List Fragment) :
        Scan.read ⟨.single, some parts, tokens⟩ '\'' = ⟨.normal, some parts, tokens⟩ := rfl
    rw [quoted, List.cons_append, List.foldl_cons, opened, List.foldl_append,
      foldl_flatMap_inQuotes, List.foldl_cons, closed, List.foldl_nil]
    simp [partsOf, bare]
  | true =>
    have asItIs : quoteChars word = word := if_pos bare
    rw [asItIs]
    obtain ⟨c, word, rfl⟩ : ∃ c rest, word = c :: rest := by
      cases word with
      | nil => simp [isBare] at bare
      | cons c rest => exact ⟨c, rest, rfl⟩
    have plain : ∀ d ∈ c :: word, isPlain d := by simpa [isBare] using bare
    -- The first character may be a number sign only inside of a word.
    have inside (sign : c = '#') : open?.isSome := by
      cases open? with
      | none => exact absurd sign (by simpa [opensComment, bare] using kept rfl)
      | some parts => rfl
    rw [List.foldl_cons, read_plain (plain c (by simp)) inside,
      foldl_plain (fun d mem => plain d (by simp [mem]))]
    simp [partsOf, bare]

/-- A written word is read as its parts unless it opens a comment. -/
theorem foldl_quoteChars (kept : opensComment word = false) :
    (quoteChars word).foldl Scan.read ⟨.normal, none, tokens⟩ =
      ⟨.normal, some (partsOf word).reverse, tokens⟩ := by
  rw [foldl_quoteChars_onto fun _ => kept]
  simp

/-! Words with a blank between any two. -/

/-- Words that are put together have a blank between any two. -/
theorem toList_joinWords (words : List String) :
    (joinWords words).toList =
      [' '].intercalate (words.map fun word => quoteChars word.toList) := by
  simp [joinWords, String.toList_intercalate, quote, Function.comp_def]

/-- A blank after a word completes it. -/
theorem read_blank (parts : List Fragment) :
    Scan.read ⟨.normal, some parts, tokens⟩ ' ' =
      ⟨.normal, none, .word parts.reverse :: tokens⟩ :=
  rfl

/-- Written words are read one by one unless one of them opens a comment. -/
theorem closeWord_foldl {lines : List (List Char)} (tokens : List Token)
    (kept : ∀ line ∈ lines, opensComment line = false) :
    (([' '].intercalate (lines.map quoteChars)).foldl Scan.read
        ⟨.normal, none, tokens⟩).closeWord =
      ⟨.normal, none, (lines.map fun line => .word (partsOf line)).reverse ++ tokens⟩ := by
  -- The words are taken off from the front, each with the blank behind it.
  induction lines generalizing tokens with
  | nil => rfl
  | cons line lines ih =>
    have first := kept line (by simp)
    cases lines with
    | nil =>
      rw [List.map_singleton, List.intercalate_singleton, foldl_quoteChars first]
      simp [Scan.closeWord]
    | cons next lines =>
      rw [List.map_cons, List.map_cons, List.intercalate_cons_cons, ← List.map_cons,
        List.foldl_append, List.foldl_append, foldl_quoteChars first, List.foldl_cons, read_blank,
        List.foldl_nil, ih _ (fun other mem => kept other (by simp [mem]))]
      simp

/-- A scan that ends outside everything ends with its tokens. -/
theorem finish_of_closeWord {s : Scan} (closed : s.closeWord = ⟨.normal, none, tokens⟩) :
    s.finish = some tokens.reverse := by
  have mode : s.mode = .normal := by
    rw [show s.mode = s.closeWord.mode by unfold Scan.closeWord; split <;> rfl, closed]
  simp [Scan.finish, mode, closed]

/-! What stands behind a number sign is lost: no character takes back a token, so the end of a
line that comes later stays, and without one there are too few words. -/

section Loss

variable {token : Token} {fragment : Fragment} {quoted : Bool}

@[simp]
theorem tokens_push : (s.push fragment).tokens = s.tokens :=
  rfl

@[simp]
theorem tokens_enter {mode : Mode} : (s.enter mode).tokens = s.tokens :=
  rfl

@[simp]
theorem tokens_closeName {text : List Char} : (s.closeName text quoted).tokens = s.tokens :=
  rfl

theorem mem_closeWord (mem : token ∈ s.tokens) : token ∈ s.closeWord.tokens := by
  unfold Scan.closeWord
  split <;> simp [mem]

theorem mem_closeBeforeRedirection (mem : token ∈ s.tokens) :
    token ∈ s.closeBeforeRedirection.tokens := by
  unfold Scan.closeBeforeRedirection
  split
  · simp [mem]
  · exact mem_closeWord mem

theorem mem_pushOperator {text : String} (mem : token ∈ s.tokens) :
    token ∈ (s.pushOperator text).tokens := by
  simp [Scan.pushOperator, mem]

theorem mem_readNormal (mem : token ∈ s.tokens) : token ∈ (s.readNormal c).tokens := by
  have closed : token ∈ ({ s with mode := .normal } : Scan).closeWord.tokens := mem_closeWord mem
  have redirected : token ∈ ({ s with mode := .normal } : Scan).closeBeforeRedirection.tokens :=
    mem_closeBeforeRedirection mem
  unfold Scan.readNormal
  dsimp only
  repeat' split
  all_goals simp [mem, closed, redirected]

theorem mem_readBack (quoted : Bool) (mem : token ∈ s.tokens) :
    token ∈ (s.readBack quoted c).tokens := by
  unfold Scan.readBack
  split
  · unfold Scan.readDouble
    dsimp only
    split_ifs <;> simp [mem]
  · exact mem_readNormal mem

/-- A token that was read stays. -/
theorem mem_read (mem : token ∈ s.tokens) : token ∈ (s.read c).tokens := by
  obtain ⟨mode, open?, tokens⟩ := s
  -- A token is only ever added, whatever is being read.
  cases mode with
  | normal => exact mem_readNormal mem
  | comment =>
    by_cases ended : c = '\n'
    · simpa [Scan.read, ended] using mem_readNormal (s := ⟨.comment, open?, tokens⟩) mem
    · simpa [Scan.read, ended] using mem
  | single =>
    simp only [Scan.read]
    split <;> exact mem
  | double => exact mem_readBack true mem
  | escape quoted =>
    simp only [Scan.read, Scan.readEscaped]
    split_ifs <;> exact mem
  | dollar quoted =>
    simp only [Scan.read, Scan.readDollar]
    split_ifs
    case neg => exact mem_readBack quoted mem
    all_goals exact mem
  | name text quoted =>
    simp only [Scan.read]
    split
    · exact mem
    · exact mem_readBack quoted mem
  | braces depth source quoted =>
    cases depth <;> simp only [Scan.read] <;> split <;> exact mem
  | brackets depth source quoted =>
    cases depth <;> simp only [Scan.read] <;> split <;> exact mem
  | backquotes source quoted =>
    simp only [Scan.read]
    split <;> exact mem
  | operator first =>
    simp only [Scan.read]
    split
    · exact mem_pushOperator mem
    · exact mem_readNormal (mem_pushOperator mem)

/-- A token that was read is among those that are found in the end. -/
theorem mem_finish {found : List Token} (mem : token ∈ s.tokens) (ends : s.finish = some found) :
    token ∈ found := by
  -- The word that is still open is closed behind the tokens.
  have last {s : Scan} (mem : token ∈ s.tokens) : token ∈ s.closeWord.tokens.reverse :=
    List.mem_reverse.mpr (mem_closeWord mem)
  obtain ⟨mode, word, tokens⟩ := s
  -- Within quotes and braces nothing is found in the end.
  cases mode with
  | single | double | braces | brackets | backquotes => cases ends
  | normal | comment =>
    obtain rfl := Option.some.inj ends
    exact last mem
  | name text quoted =>
    cases quoted with
    | true => cases ends
    | false =>
      obtain rfl := Option.some.inj ends
      exact last (s := Scan.closeName _ text false) mem
  | dollar quoted =>
    cases quoted with
    | true => cases ends
    | false =>
      obtain rfl := Option.some.inj ends
      exact last (s := Scan.push _ (.literal '$')) mem
  | operator c =>
    obtain rfl := Option.some.inj ends
    exact List.mem_reverse.mpr (mem_pushOperator mem)
  | escape quoted =>
    cases quoted with
    | true => cases ends
    | false =>
      obtain rfl := Option.some.inj ends
      exact last (s := Scan.push _ (.literal '\\')) mem

/-- A comment goes on to the end of the script, or the end of its line is found. -/
theorem foldl_comment (tokens : List Token) (rest : List Char) :
    rest.foldl Scan.read ⟨.comment, none, tokens⟩ = ⟨.comment, none, tokens⟩ ∨
      .newline ∈ (rest.foldl Scan.read ⟨.comment, none, tokens⟩).tokens := by
  -- Once the line has ended its end is among the tokens.
  have stays (rest : List Char) {s : Scan} (mem : .newline ∈ s.tokens) :
      .newline ∈ (rest.foldl Scan.read s).tokens := by
    induction rest generalizing s with
    | nil => exact mem
    | cons c rest ih => exact ih (mem_read mem)
  -- The comment is skipped character by character.
  induction rest with
  | nil => exact .inl rfl
  | cons c rest ih =>
    rw [List.foldl_cons]
    by_cases ended : c = '\n'
    · subst ended
      exact .inr (stays rest (by simp [Scan.read, Scan.readNormal, Scan.closeWord]))
    · have skipped : Scan.read ⟨.comment, none, tokens⟩ c = ⟨.comment, none, tokens⟩ :=
        if_neg ended
      rwa [skipped]

/-- With a word that opens a comment there are fewer words in the end, or there is an end of a
line among them. -/
theorem finish_of_opensComment {lines : List (List Char)} {found : List Token}
    (lost : ∃ line ∈ lines, opensComment line)
    (ends : (([' '].intercalate (lines.map quoteChars)).foldl Scan.read
      ⟨.normal, none, tokens⟩).finish = some found) :
    found.length < tokens.length + lines.length ∨ .newline ∈ found := by
  -- The first word either opens the comment or is read as a word of its own.
  induction lines generalizing tokens with
  | nil => simp at lost
  | cons line lines ih =>
    cases opens : opensComment line with
    | true =>
      -- All that follows the number sign is a comment, at least to the end of a line.
      obtain ⟨bare, sign⟩ : isBare line ∧ line.head? = some '#' := by
        simpa [opensComment] using opens
      obtain ⟨tail, rfl⟩ := List.head?_eq_some_iff.mp sign
      have asItIs : quoteChars ('#' :: tail) = '#' :: tail := if_pos bare
      obtain ⟨rest, written⟩ : ∃ rest,
          [' '].intercalate ((('#' :: tail) :: lines).map quoteChars) = '#' :: rest := by
        cases lines with
        | nil => exact ⟨tail, by simp [asItIs]⟩
        | cons next lines => exact ⟨_, by simp [asItIs, List.intercalate_cons_cons]; rfl⟩
      have opened : Scan.read ⟨.normal, none, tokens⟩ '#' = ⟨.comment, none, tokens⟩ := rfl
      rw [written, List.foldl_cons, opened] at ends
      rcases foldl_comment tokens rest with same | ended
      · rw [same] at ends
        cases ends
        simp [Scan.closeWord]
      · exact .inr (mem_finish ended ends)
    | false =>
      have later : ∃ line ∈ lines, opensComment line := by simpa [opens] using lost
      cases lines with
      | nil => simp at later
      | cons next lines =>
        rw [List.map_cons, List.map_cons, List.intercalate_cons_cons, ← List.map_cons,
          List.foldl_append, List.foldl_append, foldl_quoteChars opens, List.foldl_cons, read_blank,
          List.foldl_nil] at ends
        refine (ih later ends).imp_left fun fewer => ?_
        simp only [List.length_cons] at fewer ⊢
        omega

end Loss

/-- Parts that are characters of one kind each have those characters for a text. -/
theorem mapM_char? {kind : Char → Fragment} (same : ∀ c, (kind c).char? = some c) (line : List Char) :
    (line.map kind).mapM Fragment.char? = some line := by
  induction line with
  | nil => rfl
  | cons c line ih => simp [same, ih]

/-- The characters of a written word are those of its parts. -/
theorem mapM_char?_partsOf (line : List Char) : (partsOf line).mapM Fragment.char? = some line := by
  unfold partsOf
  split
  · exact mapM_char? (fun _ => rfl) line
  · exact mapM_char? (fun _ => rfl) line

/-- The parts in which a written word is read have its characters for a text. -/
theorem text?_partsOf (word : String) : (Token.word (partsOf word.toList)).text? = some word := by
  simp [Token.text?, Word.text?, mapM_char?_partsOf]

/-- Written words are the words that are found unless one of them opens a comment. -/
theorem tokens_joinWords (kept : ∀ word ∈ words, opensComment word.toList = false) :
    tokens? (joinWords words).toList =
      some (words.map fun word => .word (partsOf word.toList)) := by
  have keptLines : ∀ line ∈ words.map String.toList, opensComment line = false := by
    simpa using kept
  rw [toList_joinWords, ← Function.comp_def, ← List.map_map]
  simpa [tokens?, Function.comp_def] using
    finish_of_closeWord (closeWord_foldl [] keptLines)

/-- With a word that opens a comment other words are found than those that were written. -/
theorem texts_joinWords_ne {word : String} (mem : word ∈ words)
    (opens : opensComment word.toList) :
    texts? (joinWords words).toList ≠ some (words.map some) := by
  intro read
  have lost : ∃ line ∈ words.map String.toList, opensComment line :=
    ⟨word.toList, List.mem_map_of_mem mem, opens⟩
  obtain ⟨found, ends, texts⟩ := Option.map_eq_some_iff.mp read
  rw [toList_joinWords, ← Function.comp_def, ← List.map_map] at ends
  -- Both ways contradict what was read: the number of words, and that all of them are words.
  rcases finish_of_opensComment lost ends with fewer | ended
  · have same : found.length = words.length := by simpa using congrArg List.length texts
    simp [same] at fewer
  · have none : Token.text? .newline ∈ words.map some := texts ▸ List.mem_map_of_mem ended
    simp [Token.text?] at none

/-- Nothing active stands outside quotes in the parts of a written word. -/
theorem plain_notMem_partsOf (active : c ∈ activeChars) : .plain c ∉ partsOf word := by
  intro plain
  have allPlain : isBare word ∧ c ∈ word := by
    unfold partsOf at plain
    split at plain <;> simp_all
  have unplain := isPlain_of_mem_activeChars active
  simp_all [isBare]

/-- Written words are read as themselves, without an operator, an expansion or a comment and with
nothing active outside quotes, exactly when none of them goes without quotes and begins with a
number sign. -/
theorem texts_joinWords_iff (words : List String) :
    (texts? (joinWords words).toList = some (words.map some) ∧
      tokens? (joinWords words).toList =
        some (words.map fun word => .word (partsOf word.toList)) ∧
      ∀ word ∈ words, ∀ c ∈ activeChars, .plain c ∉ partsOf word.toList) ↔
    ∀ word ∈ words, opensComment word.toList = false := by
  -- A word that opens a comment spoils the reading, and without one each word is read as it was
  -- written.
  constructor
  · rintro ⟨read, -, -⟩ word mem
    by_contra opens
    exact texts_joinWords_ne mem (by simpa using opens) read
  · intro kept
    have tokens := tokens_joinWords kept
    refine ⟨?_, tokens, fun word _ c active => plain_notMem_partsOf active⟩
    simp [texts?, tokens, text?_partsOf, Function.comp_def]

/-- A word that begins with a number sign and needs no quotes otherwise is lost. -/
theorem texts_joinWords_sign :
    (∀ word ∈ ["a", "#b"], '\x00' ∉ word.toList) ∧ joinWords ["a", "#b"] = "a #b" ∧
      texts? (joinWords ["a", "#b"]).toList = some [some "a"] ∧
      texts? (joinWords ["a", "#b"]).toList ≠ some (["a", "#b"].map some) := by
  decide

end DialectBench.Shell
