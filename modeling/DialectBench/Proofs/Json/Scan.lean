import DialectBench.Json.Printer
import DialectBench.Json.Reader
import Mathlib.Data.List.Basic

/-! Strings, blanks and words read back as they were written. -/

namespace DialectBench.JsonValue

/-- Written characters as the reader gets them. -/
abbrev seen (cs : List Char) : List Glyph := cs.map some

/-- A digit of base sixteen reads back as its value. -/
theorem hexValue?_hexDigit : ∀ n < 16, hexValue? (some (hexDigit n)) = some n := by
  decide

/-- A character that needs no escape reads as itself. -/
theorem scanString_plain {c : Char} (rest : List Glyph) (quote : c ≠ '"') (slash : c ≠ '\\')
    (control : ¬ c.toNat < 32) :
    scanString none (some c :: rest) = (scanString none rest).map (Scanned.cons c) := by
  have kept : ¬ ((c == '\\' || c.toNat < 32) = true) := by simp [slash, control]
  rw [scanString, if_neg kept] <;> simp_all

/-- A short escape reads as the character it stands for. -/
theorem scanString_short {e c : Char} (rest : List Glyph) (stands : shortEscape? e = some c) :
    scanString none (some '\\' :: some e :: rest) =
      (scanString none rest).map (Scanned.cons c) := by
  have other : e ≠ 'u' := by
    rintro rfl
    simp [shortEscape?] at stands
  rw [scanString, stands] <;> simp_all

/-- A control character that has no short escape reads back from its number. -/
theorem scanString_unit {c : Char} (rest : List Glyph) (control : c.toNat < 32) :
    scanString none (some '\\' :: some 'u' :: some '0' :: some '0' ::
      some (hexDigit (c.toNat / 16)) :: some (hexDigit (c.toNat % 16)) :: rest) =
      (scanString none rest).map (Scanned.cons c) := by
  have zero : hexValue? (some '0') = some 0 := by decide
  have unit : hexUnit? (some '0') (some '0') (some (hexDigit (c.toNat / 16)))
      (some (hexDigit (c.toNat % 16))) = some c.toNat := by
    simp only [hexUnit?, zero, hexValue?_hexDigit (c.toNat / 16) (by omega),
      hexValue?_hexDigit (c.toNat % 16) (by omega), Option.pure_def, Option.bind_eq_bind,
      Option.bind_some, Option.some.injEq]
    omega
  have high : ¬ (0xD800 ≤ c.toNat) := by omega
  have low : ¬ (0xDC00 ≤ c.toNat) := by omega
  rw [scanString, unit]
  simp [high, low]

/-- What stands for a character in a string reads back as the character. -/
theorem scanString_escaped (c : Char) (rest : List Glyph) :
    scanString none (seen (escaped c) ++ rest) =
      (scanString none rest).map (Scanned.cons c) := by
  -- The cases of the writer, each by the escape that it chooses.
  unfold escaped
  split
  case h_1 => exact scanString_short rest rfl
  case h_2 => exact scanString_short rest rfl
  case h_3 => exact scanString_short rest rfl
  case h_4 => exact scanString_short rest rfl
  case h_5 => exact scanString_short rest rfl
  case h_6 quote slash _ _ _ =>
    split
    next backspace =>
      rw [← Char.ofNat_toNat c, backspace]
      exact scanString_short rest rfl
    split
    next feed =>
      rw [← Char.ofNat_toNat c, feed]
      exact scanString_short rest rfl
    split
    next control => exact scanString_unit rest control
    next control => exact scanString_plain rest quote slash control

/-- A string behind its opening quote reads back as its content. -/
theorem scanString_written (content : List Char) (rest : List Glyph) :
    scanString none (seen (content.flatMap escaped ++ ['"']) ++ rest) =
      some (some content, rest) := by
  induction content with
  | nil => simp [scanString]
  | cons c content written =>
    have parted : seen ((c :: content).flatMap escaped ++ ['"']) ++ rest =
        seen (escaped c) ++ (seen (content.flatMap escaped ++ ['"']) ++ rest) := by
      simp
    rw [parted, scanString_escaped, written]
    rfl

/-- A character is none of the blanks. -/
def Inked (c : Char) : Prop :=
  c ≠ ' ' ∧ c ≠ '\n' ∧ c ≠ '\t' ∧ c ≠ '\r'

/-- Nothing is skipped in front of a character that is no blank. -/
theorem skipSpace_inked {c : Char} (inked : Inked c) (rest : List Glyph) :
    skipSpace (some c :: rest) = some c :: rest := by
  obtain ⟨space, feed, tab, back⟩ := inked
  simp [skipSpace, space, feed, tab, back]

/-- A new line is skipped as a whole. -/
theorem skipSpace_newline (level : Nat) (rest : List Glyph) :
    skipSpace (seen (newline level) ++ rest) = skipSpace rest := by
  -- The spaces of the level are skipped one by one.
  have spaces (n : Nat) : skipSpace (seen (List.replicate n ' ') ++ rest) = skipSpace rest := by
    induction n with
    | zero => rfl
    | succ n skipped => simpa [List.replicate_succ, skipSpace] using skipped
  simpa [newline, skipSpace] using spaces (2 * level)

/-- Blanks in front of a value do not count. -/
theorem scanValue_congr {fuel : Nat} {input other : List Glyph}
    (same : skipSpace input = skipSpace other) : scanValue fuel input = scanValue fuel other := by
  cases fuel with
  | zero => simp [scanValue]
  | succ fuel => simp only [scanValue, same]

/-- Blanks in front of the first item do not count. -/
theorem scanItems_congr {fuel : Nat} {input other : List Glyph}
    (same : skipSpace input = skipSpace other) : scanItems fuel input = scanItems fuel other := by
  cases fuel with
  | zero => simp [scanItems]
  | succ fuel => simp only [scanItems, scanValue_congr same]

/-- Blanks in front of the first member do not count. -/
theorem scanMembers_congr {fuel : Nat} {input other : List Glyph}
    (same : skipSpace input = skipSpace other) :
    scanMembers fuel input = scanMembers fuel other := by
  cases fuel with
  | zero => simp [scanMembers]
  | succ fuel => simp only [scanMembers, same]

end DialectBench.JsonValue
