import DialectBench.Proofs.Json.Numeral
import DialectBench.Proofs.Text.Utf8

/-! A value reads back from its text as it was written, but for a plus in front of an exponent. -/

namespace DialectBench.JsonValue

mutual

/-- Everything in a value can be read: numerals are numerals, and all strings have a content. -/
def Legible : JsonValue → Prop
  | .number numeral => IsNumeral numeral
  | .string content => content ≠ none
  | .array items => LegibleItems items
  | .object members => LegibleMembers members
  | _ => True

/-- Everything in some items can be read. -/
def LegibleItems : List JsonValue → Prop
  | [] => True
  | item :: items => Legible item ∧ LegibleItems items

/-- Everything in some members can be read. -/
def LegibleMembers : List (Option String × JsonValue) → Prop
  | [] => True
  | (name, value) :: members => name ≠ none ∧ Legible value ∧ LegibleMembers members

end

mutual

/-- A value as it reads back: its numerals without a plus. -/
def settled : JsonValue → JsonValue
  | .number numeral => .number (String.ofList (kept numeral.toList))
  | .array items => .array (settledItems items)
  | .object members => .object (settledMembers members)
  | value => value

/-- Items as they read back. -/
def settledItems : List JsonValue → List JsonValue
  | [] => []
  | item :: items => settled item :: settledItems items

/-- Members as they read back. -/
def settledMembers :
    List (Option String × JsonValue) → List (Option String × JsonValue)
  | [] => []
  | (name, value) :: members => (name, settled value) :: settledMembers members

end

variable {value item : JsonValue} {items : List JsonValue} {level outer fuel : Nat}
  {rest : List Glyph}

theorem legibleItems_iff : LegibleItems items ↔ ∀ item ∈ items, Legible item := by
  induction items with
  | nil => simp [LegibleItems]
  | cons item items ih => simp [LegibleItems, ih]

theorem settledItems_eq (items : List JsonValue) : settledItems items = items.map settled := by
  induction items with
  | nil => rfl
  | cons item items ih => rw [settledItems, ih, List.map_cons]

theorem legibleMembers_cons {member : Option String × JsonValue}
    {members : List (Option String × JsonValue)} :
    LegibleMembers (member :: members) ↔
      member.1 ≠ none ∧ Legible member.2 ∧ LegibleMembers members := by
  rw [LegibleMembers]

theorem legibleMembers_iff {members : List (Option String × JsonValue)} :
    LegibleMembers members ↔ ∀ member ∈ members, member.1 ≠ none ∧ Legible member.2 := by
  induction members with
  | nil => simp [LegibleMembers]
  | cons member members ih => simp [LegibleMembers, ih, and_assoc]

theorem settledMembers_eq (members : List (Option String × JsonValue)) :
    settledMembers members = members.map fun member => (member.1, settled member.2) := by
  induction members with
  | nil => rfl
  | cons member members ih => rw [settledMembers, ih, List.map_cons]

/-- The text of a value begins with ink that closes nothing. -/
theorem pretty_starts (level : Nat) (legible : Legible value) :
    ∃ c cs, pretty level value = c :: cs ∧ Inked c ∧ c ≠ ']' := by
  -- Each kind of value has a character of its own that it begins with.
  cases value with
  | number numeral =>
    obtain ⟨c, cs, starts, minus | digit⟩ := legible.starts
    · exact ⟨c, cs, starts, by rw [minus]; unfold Inked; decide, by rw [minus]; decide⟩
    · refine ⟨c, cs, starts, ⟨?_, ?_, ?_, ?_⟩, ?_⟩ <;>
        (rintro rfl; exact absurd digit (by decide))
  | null => exact ⟨'n', "ull".toList, rfl, by unfold Inked; decide, by decide⟩
  | boolean truth =>
    cases truth with
    | true => exact ⟨'t', "rue".toList, rfl, by unfold Inked; decide, by decide⟩
    | false => exact ⟨'f', "alse".toList, rfl, by unfold Inked; decide, by decide⟩
  | string content => exact ⟨'"', _, rfl, by unfold Inked; decide, by decide⟩
  | array items =>
    cases items with
    | nil => exact ⟨'[', _, rfl, by unfold Inked; decide, by decide⟩
    | cons item items =>
      exact ⟨'[', _, by rw [pretty]; rfl, by unfold Inked; decide, by decide⟩
  | object members =>
    cases members with
    | nil => exact ⟨'\x7b', _, rfl, by unfold Inked; decide, by decide⟩
    | cons member members =>
      obtain ⟨name, value⟩ := member
      exact ⟨'\x7b', _, by rw [pretty]; rfl, by unfold Inked; decide, by decide⟩

/-- A new line ends a numeral. -/
theorem ended_newline (level : Nat) (rest : List Glyph) : Ended (seen (newline level) ++ rest) := by
  rintro c tail goes
  simp only [newline, List.map_cons, List.cons_append, List.cons.injEq, Option.some.injEq] at goes
  rw [← goes.1]
  decide

/-- A comma ends a numeral. -/
theorem ended_comma (rest : List Glyph) : Ended (some ',' :: rest) := by
  rintro c tail goes
  simp only [List.cons.injEq, Option.some.injEq] at goes
  rw [← goes.1]
  decide

/-- A string is read up to the quote behind it. -/
theorem scanString_closed (content : List Char) (rest : List Glyph) :
    scanString none (seen (content.flatMap escaped) ++ some '"' :: rest) =
      some (some content, rest) := by
  simpa using scanString_written content rest

/-- A quoted string reads back as a value. -/
theorem scanValue_quoted (content : String) (rest : List Glyph) :
    scanValue (fuel + 1) (seen (quoted content.toList) ++ rest) =
      some (.string (some content), rest) := by
  have shape : seen (quoted content.toList) ++ rest =
      some '"' :: (seen (content.toList.flatMap escaped) ++ some '"' :: rest) := by
    simp [quoted]
  rw [shape, scanValue, skipSpace_inked (by unfold Inked; decide)]
  simp only [scanString_closed, Option.map_some, String.ofList_toList]

/-- A numeral reads back as a value. -/
theorem scanValue_numeral {numeral : String} (legible : IsNumeral numeral) (behind : Ended rest) :
    scanValue (fuel + 1) (seen numeral.toList ++ rest) =
      some (settled (.number numeral), rest) := by
  -- A numeral begins with ink, so no space is skipped in front of it.
  have inked : skipSpace (seen numeral.toList ++ rest) = seen numeral.toList ++ rest := by
    have own : Legible (.number numeral) := legible
    obtain ⟨c, cs, starts, ink, -⟩ := pretty_starts 0 own
    rw [show numeral.toList = c :: cs from starts]
    exact skipSpace_inked ink _
  obtain ⟨c, cs, starts, first⟩ := legible.starts
  -- No other kind of value begins with a digit or a minus.
  have other : c ≠ '\x7b' ∧ c ≠ '[' ∧ c ≠ '"' ∧ c ≠ 't' ∧ c ≠ 'f' ∧ c ≠ 'n' := by
    refine ⟨?_, ?_, ?_, ?_, ?_, ?_⟩ <;>
      (rintro rfl; rcases first with minus | digit; exact absurd minus (by decide);
        exact absurd digit (by decide))
  have scanned := legible.scans rest behind
  rw [scanValue, inked]
  rw [starts] at scanned ⊢
  simp only [List.map_cons, List.cons_append] at scanned ⊢
  split <;> simp_all [settled]

/-- A member in the text of an object. -/
def prettyMember (level : Nat) (member : Option String × JsonValue) : List Char :=
  quoted ((member.1.getD "").toList) ++ [':', ' '] ++ pretty level member.2

theorem prettyMembers_cons (level : Nat) (member : Option String × JsonValue)
    (members : List (Option String × JsonValue)) :
    prettyMembers level (member :: members) =
      ',' :: newline level ++ prettyMember level member ++ prettyMembers level members := by
  simp [prettyMembers, prettyMember]

theorem pretty_object_cons (level : Nat) (member : Option String × JsonValue)
    (members : List (Option String × JsonValue)) :
    pretty level (.object (member :: members)) =
      '\x7b' :: newline (level + 1) ++ prettyMember (level + 1) member ++
        prettyMembers (level + 1) members ++ newline level ++ ['\x7d'] := by
  simp [pretty, prettyMember]

/-- The text of a member up to its value, as the reader gets it. -/
theorem seen_name (name : String) (rest : List Glyph) :
    seen (quoted name.toList ++ [':', ' ']) ++ rest =
      some '"' :: (seen (name.toList.flatMap escaped) ++ some '"' ::
        some ':' :: some ' ' :: rest) := by
  simp [quoted]

/-- The last item reads back. -/
theorem scanItems_last {after tail : List Glyph} (read : scanValue fuel rest = some (value, after))
    (closed : skipSpace after = some ']' :: tail) :
    scanItems (fuel + 1) rest = some ([value], tail) := by
  simp [scanItems, read, closed]

/-- An item in front of others reads back if they do. -/
theorem scanItems_next {after tail final : List Glyph}
    (read : scanValue fuel rest = some (value, after)) (comma : skipSpace after = some ',' :: tail)
    (others : scanItems fuel tail = some (items, final)) :
    scanItems (fuel + 1) rest = some (value :: items, final) := by
  simp [scanItems, read, comma, others]

/-- The last member reads back if its value does. -/
theorem scanMembers_last {name : String} {after tail : List Glyph}
    (read : scanValue fuel rest = some (value, after)) (closed : skipSpace after = some '\x7d' :: tail) :
    scanMembers (fuel + 1) (seen (quoted name.toList ++ [':', ' ']) ++ rest) =
      some ([(some name, value)], tail) := by
  have blank : scanValue fuel (some ' ' :: rest) = some (value, after) :=
    (scanValue_congr (by simp [skipSpace])).trans read
  rw [seen_name, scanMembers, skipSpace_inked (by unfold Inked; decide)]
  simp only [scanString_closed]
  rw [skipSpace_inked (by unfold Inked; decide)]
  simp [blank, closed]

/-- A member in front of others reads back if its value and they do. -/
theorem scanMembers_next {name : String} {after tail final : List Glyph}
    {members : List (Option String × JsonValue)}
    (read : scanValue fuel rest = some (value, after)) (comma : skipSpace after = some ',' :: tail)
    (others : scanMembers fuel tail = some (members, final)) :
    scanMembers (fuel + 1) (seen (quoted name.toList ++ [':', ' ']) ++ rest) =
      some ((some name, value) :: members, final) := by
  -- The space behind the colon is skipped with the value.
  have blank : scanValue fuel (some ' ' :: rest) = some (value, after) :=
    (scanValue_congr (by simp [skipSpace])).trans read
  rw [seen_name, scanMembers, skipSpace_inked (by unfold Inked; decide)]
  simp only [scanString_closed]
  rw [skipSpace_inked (by unfold Inked; decide)]
  simp [blank, comma, others]

mutual

/-- A value reads back from its text. -/
theorem scanValue_pretty (value : JsonValue) (fuel level : Nat) (rest : List Glyph)
    (legible : Legible value) (enough : 2 * (pretty level value).length ≤ fuel)
    (behind : Ended rest) :
    scanValue fuel (seen (pretty level value) ++ rest) = some (settled value, rest) := by
  obtain ⟨c, cs, starts, -, -⟩ := pretty_starts level legible
  obtain ⟨fuel, rfl⟩ : ∃ less, fuel = less + 1 := by
    rw [starts, List.length_cons] at enough
    exact ⟨fuel - 1, by omega⟩
  -- Lists and objects are read item by item, and their items are smaller values.
  cases value with
  | null => simp [pretty, scanValue, skipSpace, skipWord, settled]
  | boolean truth => cases truth <;> simp [pretty, scanValue, skipSpace, skipWord, settled]
  | number numeral => exact scanValue_numeral legible behind
  | string content =>
    obtain ⟨content, rfl⟩ := Option.ne_none_iff_exists'.mp legible
    exact scanValue_quoted content rest
  | array items =>
    cases items with
    | nil => simp [pretty, scanValue, skipSpace, settled, settledItems]
    | cons item items =>
      have scanned := scanItems_pretty item items fuel (level + 1) level rest legible (by
        rw [pretty] at enough
        simp only [List.length_cons, List.length_append] at enough ⊢
        omega)
      have shape : seen (pretty level (.array (item :: items))) ++ rest =
          some '[' :: (seen (newline (level + 1)) ++ (seen (pretty (level + 1) item ++
            prettyItems (level + 1) items ++ newline level ++ [']']) ++ rest)) := by
        simp [pretty]
      rw [shape, scanValue, skipSpace_inked (by unfold Inked; decide)]
      simp only [skipSpace_newline]
      -- The first item begins with ink, and not with the bracket that closes the list.
      obtain ⟨d, ds, begins, inked, opens⟩ := pretty_starts (level + 1) legible.1
      rw [begins] at scanned ⊢
      simp only [List.cons_append, List.map_cons] at scanned ⊢
      rw [skipSpace_inked inked]
      split
      next tail closes => exact absurd (by simpa using congrArg List.head? closes) opens
      next =>
        rw [scanned]
        rfl
  | object members =>
    cases members with
    | nil => simp [pretty, scanValue, skipSpace, settled, settledMembers]
    | cons member members =>
      have scanned := scanMembers_pretty member members fuel (level + 1) level rest legible (by
        rw [pretty_object_cons] at enough
        simp only [List.length_cons, List.length_append] at enough ⊢
        omega)
      have shape : seen (pretty level (.object (member :: members))) ++ rest =
          some '\x7b' :: (seen (newline (level + 1)) ++ (seen (prettyMember (level + 1) member
            ++ prettyMembers (level + 1) members ++ newline level ++ ['\x7d']) ++ rest)) := by
        simp [pretty_object_cons]
      rw [shape, scanValue, skipSpace_inked (by unfold Inked; decide)]
      simp only [skipSpace_newline]
      simp only [prettyMember, quoted, List.cons_append, List.map_cons] at scanned ⊢
      rw [skipSpace_inked (by unfold Inked; decide)]
      split
      next tail closes => exact absurd (congrArg List.head? closes) (by simp)
      next =>
        rw [scanned]
        rfl
  termination_by sizeOf value

/-- Items read back from their text up to the bracket behind them. -/
theorem scanItems_pretty (item : JsonValue) (items : List JsonValue) (fuel level outer : Nat)
    (rest : List Glyph) (legible : LegibleItems (item :: items))
    (enough : 2 * (pretty level item ++ prettyItems level items).length + 1 ≤ fuel) :
    scanItems fuel (seen (pretty level item ++ prettyItems level items ++ newline outer ++ [']']) ++
      rest) = some (settledItems (item :: items), rest) := by
  obtain ⟨fuel, rfl⟩ : ∃ less, fuel = less + 1 := ⟨fuel - 1, by omega⟩
  rw [List.length_append] at enough
  obtain ⟨own, others⟩ := legible
  -- The last item is followed by the bracket, and any other one by a comma and the next.
  cases items with
  | nil =>
    have shape : seen (pretty level item ++ prettyItems level [] ++ newline outer ++ [']']) ++ rest =
        seen (pretty level item) ++ (seen (newline outer) ++ some ']' :: rest) := by
      simp [prettyItems]
    rw [shape]
    exact scanItems_last (scanValue_pretty item fuel level _ own (by omega) (ended_newline outer _))
      (by rw [skipSpace_newline]; rfl)
  | cons next items =>
    have shape : seen (pretty level item ++ prettyItems level (next :: items) ++ newline outer ++
        [']']) ++ rest = seen (pretty level item) ++ some ',' :: (seen (newline level) ++
        (seen (pretty level next ++ prettyItems level items ++ newline outer ++ [']']) ++ rest)) := by
      simp [prettyItems]
    have second := scanItems_pretty next items fuel level outer rest others (by
      rw [prettyItems] at enough
      simp only [List.length_cons, List.length_append] at enough ⊢
      omega)
    rw [shape]
    refine scanItems_next (scanValue_pretty item fuel level _ own (by omega) (ended_comma _))
      (skipSpace_inked (by unfold Inked; decide) _) ?_
    rw [scanItems_congr (skipSpace_newline level _), second]
  termination_by sizeOf (item :: items)

/-- Members read back from their text up to the brace behind them. -/
theorem scanMembers_pretty (member : Option String × JsonValue)
    (members : List (Option String × JsonValue)) (fuel level outer : Nat) (rest : List Glyph)
    (legible : LegibleMembers (member :: members))
    (enough : 2 * (prettyMember level member ++ prettyMembers level members).length + 1 ≤ fuel) :
    scanMembers fuel (seen (prettyMember level member ++ prettyMembers level members ++
      newline outer ++ ['\x7d']) ++ rest) = some (settledMembers (member :: members), rest) := by
  obtain ⟨fuel, rfl⟩ : ∃ less, fuel = less + 1 := ⟨fuel - 1, by omega⟩
  obtain ⟨named, own, others⟩ := legibleMembers_cons.mp legible
  obtain ⟨name, named⟩ := Option.ne_none_iff_exists'.mp named
  have settles : settledMembers (member :: members) =
      (some name, settled member.2) :: settledMembers members := by
    rw [← named, settledMembers_eq, settledMembers_eq, List.map_cons]
  have opens : prettyMember level member =
      quoted name.toList ++ [':', ' '] ++ pretty level member.2 := by
    rw [prettyMember, named, Option.getD_some]
  rw [List.length_append] at enough
  -- The name and its mark are part of the text, so there is enough fuel for the value.
  have value_le : 2 * (pretty level member.2).length ≤ fuel := by
    simp only [opens, List.length_append, List.length_cons] at enough
    omega
  rw [settles]
  -- The last member is followed by the brace, and any other one by a comma and the next.
  cases members with
  | nil =>
    have shape : seen (prettyMember level member ++ prettyMembers level [] ++
        newline outer ++ ['\x7d']) ++ rest = seen (quoted name.toList ++ [':', ' ']) ++
          (seen (pretty level member.2) ++ (seen (newline outer) ++ some '\x7d' :: rest)) := by
      simp [opens, prettyMembers]
    rw [shape]
    exact scanMembers_last
      (scanValue_pretty member.2 fuel level _ own value_le (ended_newline outer _))
      (by rw [skipSpace_newline]; rfl)
  | cons next members =>
    have shape : seen (prettyMember level member ++
        prettyMembers level (next :: members) ++ newline outer ++ ['\x7d']) ++ rest =
        seen (quoted name.toList ++ [':', ' ']) ++ (seen (pretty level member.2) ++ some ',' ::
          (seen (newline level) ++ (seen (prettyMember level next ++
            prettyMembers level members ++ newline outer ++ ['\x7d']) ++ rest))) := by
      simp [opens, prettyMembers_cons]
    have second := scanMembers_pretty next members fuel level outer rest others (by
      rw [prettyMembers_cons] at enough
      simp only [List.length_cons, List.length_append] at enough ⊢
      omega)
    rw [shape]
    refine scanMembers_next (scanValue_pretty member.2 fuel level _ own value_le (ended_comma _))
      (skipSpace_inked (by unfold Inked; decide) _) ?_
    rw [scanMembers_congr (skipSpace_newline level _), second]
  termination_by sizeOf (member :: members)
  decreasing_by
    all_goals
      subst_vars
      cases member
      simp only [List.cons.sizeOf_spec, Prod.mk.sizeOf_spec]
      omega

end

/-- A value reads back from the bytes of its text, with a line feed behind it. -/
theorem read?_text (legible : Legible value) :
    read? (Text.encode value.text ++ Text.encode "\n") = some (settled value) := by
  have bytes : Text.glyphs (Text.encode value.text ++ Text.encode "\n") =
      seen (pretty 0 value) ++ [some '\n'] := by
    rw [← Text.encode_append, Text.glyphs_encode, text]
    simp
  -- A line feed ends whatever is in front of it.
  have ended : Ended [some '\n'] := by
    rintro c tail goes
    simp only [List.cons.injEq, Option.some.injEq] at goes
    rw [← goes.1]
    decide
  have scanned := scanValue_pretty value (2 * (seen (pretty 0 value) ++ [some '\n']).length + 2) 0
    [some '\n'] legible (by simp only [List.length_append, List.length_map]; omega) ended
  rw [read?, bytes]
  simp only [scanned]
  rfl

end DialectBench.JsonValue
