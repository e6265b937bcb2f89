import DialectBench.Text.Utf8
import Mathlib.Data.List.Basic

/-! A text that was written as UTF-8 reads back character by character, without a gap. -/

namespace DialectBench.Text

/-- A first byte that stands alone is the number of its character. -/
theorem lead_one : ∀ n < 128, lead (UInt8.ofNat n) = some (n, []) := by
  decide

/-- A first byte of two bears five bits; the first two values would be written shorter. -/
theorem lead_two : ∀ n < 30, lead (UInt8.ofNat (n + 2 + 192)) =
    some (n + 2, [(0x80, 0xBF)]) := by
  decide

/-- A first byte of three bears four bits, and two of its values narrow the byte after it. -/
theorem lead_three : ∀ n < 16, lead (UInt8.ofNat (n + 224)) =
    some (n, [(if n = 0 then 0xA0 else 0x80, if n = 13 then 0x9F else 0xBF), (0x80, 0xBF)]) := by
  decide

/-- A first byte of four bears three bits, and two of its values narrow the byte after it. -/
theorem lead_four : ∀ n < 5, lead (UInt8.ofNat (n + 240)) =
    some (n, [(if n = 0 then 0x90 else 0x80, if n = 4 then 0x8F else 0xBF), (0x80, 0xBF),
      (0x80, 0xBF)]) := by
  decide

/-- A byte in its range adds six bits. -/
theorem follow_cons {bits n : Nat} {low high : UInt8} {ranges : List (UInt8 × UInt8)} {rest : Bytes}
    (small : n < 64) (above : low.toNat ≤ n + 128) (below : n + 128 ≤ high.toNat) :
    follow bits ((low, high) :: ranges) (UInt8.ofNat (n + 128) :: rest) =
      follow (bits * 64 + n) ranges rest := by
  have value : (UInt8.ofNat (n + 128)).toNat = n + 128 :=
    UInt8.toNat_ofNat_of_lt' (by show n + 128 < 256; omega)
  have fits : low ≤ UInt8.ofNat (n + 128) ∧ UInt8.ofNat (n + 128) ≤ high := by
    rw [UInt8.le_iff_toNat_le, UInt8.le_iff_toNat_le, value]
    exact ⟨above, below⟩
  have bitsOf : (UInt8.ofNat (n + 128)).toNat - 0x80 = n := by
    rw [value]
    omega
  rw [follow, if_pos (by simpa using fits), bitsOf]

/-- A byte without a narrower range adds its six bits. -/
theorem follow_wide {bits n : Nat} {ranges : List (UInt8 × UInt8)} {rest : Bytes}
    (small : n < 64) :
    follow bits ((0x80, 0xBF) :: ranges) (UInt8.ofNat (n + 128) :: rest) =
      follow (bits * 64 + n) ranges rest :=
  follow_cons small (show 128 ≤ n + 128 by omega) (show n + 128 ≤ 191 by omega)

/-- The bytes of a character read back as the character. -/
theorem decodeFirst_utf8EncodeChar (c : Char) (rest : Bytes) :
    ∃ first others, String.utf8EncodeChar c = first :: others ∧
      decodeFirst first (others ++ rest) = (some c, rest) := by
  have back : Char.ofNat c.val.toNat = c := Char.ofNat_toNat c
  have valid : c.val.toNat < 0xD800 ∨ (0xDFFF < c.val.toNat ∧ c.val.toNat < 0x110000) := c.valid
  unfold String.utf8EncodeChar
  generalize c.val.toNat = v at back valid
  dsimp only
  -- One case for each number of bytes; the bits of the bytes put together are the character.
  split
  next one =>
    refine ⟨_, _, rfl, ?_⟩
    simp only [decodeFirst, lead_one v (by omega), follow, List.nil_append, Option.map_some, back]
  split
  next two =>
    have bits : (v / 64 - 2 + 2) * 64 + v % 64 = v := by omega
    have first : v / 64 % 32 + 192 = v / 64 - 2 + 2 + 192 := by omega
    refine ⟨_, _, rfl, ?_⟩
    simp only [decodeFirst, first, lead_two (v / 64 - 2) (by omega), List.cons_append]
    rw [follow_wide (by omega), bits]
    simp [follow, back]
  split
  next three =>
    have bits : (v / 4096 % 16 * 64 + v / 64 % 64) * 64 + v % 64 = v := by omega
    refine ⟨_, _, rfl, ?_⟩
    simp only [decodeFirst, lead_three (v / 4096 % 16) (by omega), List.cons_append]
    rw [follow_cons (by omega) ?above ?below, follow_wide (by omega), bits]
    · simp [follow, back]
    case above =>
      split
      · show 160 ≤ _
        omega
      · show 128 ≤ _
        omega
    case below =>
      split
      · show _ ≤ 159
        omega
      · show _ ≤ 191
        omega
  next four =>
    have bits : ((v / 262144 % 8 * 64 + v / 4096 % 64) * 64 + v / 64 % 64) * 64 + v % 64 = v := by
      omega
    refine ⟨_, _, rfl, ?_⟩
    simp only [decodeFirst, lead_four (v / 262144 % 8) (by omega), List.cons_append]
    rw [follow_cons (by omega) ?above ?below, follow_wide (by omega), follow_wide (by omega), bits]
    · simp [follow, back]
    case above =>
      split
      · show 144 ≤ _
        omega
      · show 128 ≤ _
        omega
    case below =>
      split
      · show _ ≤ 143
        omega
      · show _ ≤ 191
        omega

/-- The glyph at the front of some bytes, and the glyphs after it. -/
theorem glyphs_cons (b : UInt8) (rest : Bytes) :
    glyphs (b :: rest) = (decodeFirst b rest).1 :: glyphs (decodeFirst b rest).2 := by
  rw [glyphs]

/-- Bytes that write characters read back as these characters. -/
theorem glyphs_flatMap (cs : List Char) :
    glyphs (cs.flatMap String.utf8EncodeChar) = cs.map some := by
  induction cs with
  | nil => simp [glyphs]
  | cons c cs written =>
    obtain ⟨first, others, bytes, read⟩ :=
      decodeFirst_utf8EncodeChar c (cs.flatMap String.utf8EncodeChar)
    rw [List.flatMap_cons, bytes, List.cons_append, glyphs_cons, read, written, List.map_cons]

/-- A written text reads back without a gap. -/
theorem glyphs_encode (s : String) : glyphs (encode s) = s.toList.map some :=
  glyphs_flatMap s.toList

/-- Texts are written one after the other. -/
theorem encode_append (s t : String) : encode (s ++ t) = encode s ++ encode t := by
  simp [encode]

/-- A text that was written reads back also where what is broken is replaced. -/
theorem textLossy_encode (s : String) : textLossy (encode s) = s := by
  have whole : (s.toList.map some).map (fun glyph : Option Char => glyph.getD replacement) = s.toList := by
    rw [List.map_map]
    exact List.map_id' _
  rw [textLossy, glyphs_encode, whole, String.ofList_toList]

/-- A byte of ASCII cannot follow a first byte. -/
theorem le_of_mem_lead {b : UInt8} {bits : Nat} {ranges : List (UInt8 × UInt8)}
    (leads : lead b = some (bits, ranges)) : ∀ range ∈ ranges, 0x80 ≤ range.1 := by
  -- Each first byte has its own ranges, and all of them begin at 0x80 or above.
  have all : ranges.all (0x80 ≤ ·.1) = true := by
    unfold lead at leads
    split_ifs at leads <;>
    · simp only [Option.some.injEq, Prod.mk.injEq] at leads
      obtain ⟨-, rfl⟩ := leads
      decide
  exact fun range listed => of_decide_eq_true (List.all_eq_true.mp all range listed)

/-- What follows a first byte ends before a byte of ASCII. -/
theorem follow_append {ascii : UInt8} (small : ascii < 0x80) (rest : Bytes)
    {ranges : List (UInt8 × UInt8)} (above : ∀ range ∈ ranges, 0x80 ≤ range.1) (bits : Nat)
    (front : Bytes) :
    follow bits ranges (front ++ ascii :: rest) =
      ((follow bits ranges front).1, (follow bits ranges front).2 ++ ascii :: rest) := by
  induction ranges generalizing bits front with
  | nil => simp [follow]
  | cons range ranges ih =>
    obtain ⟨low, high⟩ := range
    obtain ⟨own, above⟩ := List.forall_mem_cons.mp above
    cases front with
    | nil =>
      have outside : ¬ (low ≤ ascii && ascii ≤ high) = true := by
        intro inside
        rw [Bool.and_eq_true, decide_eq_true_eq] at inside
        exact UInt8.not_lt.mpr inside.1 (UInt8.lt_of_lt_of_le small own)
      simp only [List.nil_append, follow, if_neg outside]
    | cons b front =>
      rw [List.cons_append, follow, follow]
      split
      · exact ih above _ front
      · rfl

/-- A byte of ASCII is read as its character, whatever stands in front of it. -/
theorem glyphs_append_cons {ascii : UInt8} (small : ascii < 0x80) (front rest : Bytes) :
    glyphs (front ++ ascii :: rest) = glyphs front ++ some (Char.ofNat ascii.toNat) :: glyphs rest := by
  -- The first character takes the same bytes of the front with and without the rest.
  induction read : front.length using Nat.strongRecOn generalizing front with
  | ind length ih =>
    subst read
    cases front with
    | nil =>
      have alone : lead ascii = some (ascii.toNat, []) := by
        have below : ascii ≤ 0x7F := by
          rw [UInt8.lt_iff_toNat_lt] at small
          rw [UInt8.le_iff_toNat_le]
          exact Nat.le_of_lt_succ small
        rw [lead, if_pos below]
      have none : glyphs [] = [] := by rw [glyphs]
      rw [List.nil_append, glyphs_cons, none, decodeFirst, alone]
      rfl
    | cons b front =>
      have first : decodeFirst b (front ++ ascii :: rest) =
          ((decodeFirst b front).1, (decodeFirst b front).2 ++ ascii :: rest) := by
        unfold decodeFirst
        cases leads : lead b with
        | none => rfl
        | some found =>
          obtain ⟨bits, ranges⟩ := found
          dsimp only
          rw [follow_append small rest (le_of_mem_lead leads) bits front]
      have shorter : (decodeFirst b front).2.length < (b :: front).length :=
        Nat.lt_succ_of_le (length_decodeFirst_le b front)
      rw [List.cons_append, glyphs_cons, first, glyphs_cons b front, List.cons_append,
        ih _ shorter _ rfl]

/-- What has no gaps is all there. -/
theorem gapless?_map_some (cs : List Char) : gapless? (cs.map some) = some cs := by
  induction cs with
  | nil => rfl
  | cons c cs ih => simp [gapless?, ih]

/-- A text that was encoded reads back. -/
theorem text?_encode (s : String) : text? (encode s) = some s := by
  rw [text?, glyphs_encode, gapless?_map_some, Option.map_some, String.ofList_toList]

end DialectBench.Text
