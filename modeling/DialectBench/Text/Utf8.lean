/-! Bytes as UTF-8: writing, strict reading, and reading that replaces what is broken. -/

namespace DialectBench

/-- The content of a file, or what a process writes. -/
abbrev Bytes := List UInt8

namespace Text

/-- The bytes of a text. -/
def encode (s : String) : Bytes :=
  s.toList.flatMap String.utf8EncodeChar

/-- The bits that a first byte carries and the ranges of the bytes that must follow it. -/
def lead (b : UInt8) : Option (Nat × List (UInt8 × UInt8)) :=
  if b ≤ 0x7F then some (b.toNat, [])
  else if 0xC2 ≤ b && b ≤ 0xDF then some (b.toNat - 0xC0, [(0x80, 0xBF)])
  else if b == 0xE0 then some (0, [(0xA0, 0xBF), (0x80, 0xBF)])
  else if b == 0xED then some (0xD, [(0x80, 0x9F), (0x80, 0xBF)])
  else if 0xE1 ≤ b && b ≤ 0xEF then some (b.toNat - 0xE0, [(0x80, 0xBF), (0x80, 0xBF)])
  else if b == 0xF0 then some (0, [(0x90, 0xBF), (0x80, 0xBF), (0x80, 0xBF)])
  else if b == 0xF4 then some (4, [(0x80, 0x8F), (0x80, 0xBF), (0x80, 0xBF)])
  else if 0xF1 ≤ b && b ≤ 0xF3 then
    some (b.toNat - 0xF0, [(0x80, 0xBF), (0x80, 0xBF), (0x80, 0xBF)])
  else none

/-- Reads the bytes that must follow a first byte; without a value it stops before the byte that
cannot follow. -/
def follow (bits : Nat) : List (UInt8 × UInt8) → Bytes → Option Nat × Bytes
  | [], rest => (some bits, rest)
  | _ :: _, [] => (none, [])
  | (low, high) :: ranges, b :: rest =>
    if low ≤ b && b ≤ high then follow (bits * 64 + (b.toNat - 0x80)) ranges rest
    else (none, b :: rest)

/-- Reading what follows never gives bytes back. -/
theorem length_follow_le (bits : Nat) (ranges : List (UInt8 × UInt8)) (rest : Bytes) :
    (follow bits ranges rest).2.length ≤ rest.length := by
  -- Each range takes one byte or stops.
  induction ranges generalizing bits rest with
  | nil => simp [follow]
  | cons range ranges shorter =>
    obtain ⟨low, high⟩ := range
    cases rest with
    | nil => simp [follow]
    | cons b rest =>
      simp only [follow]
      split
      · exact Nat.le_succ_of_le (shorter _ rest)
      · simp

/-- The character at the front of some bytes, if they begin with one, and the bytes after it or
after the longest run that could have begun one. -/
def decodeFirst (b : UInt8) (rest : Bytes) : Option Char × Bytes :=
  match lead b with
  | none => (none, rest)
  | some (bits, ranges) =>
    let (value, after) := follow bits ranges rest
    (value.map Char.ofNat, after)

/-- The first character takes at least its first byte. -/
theorem length_decodeFirst_le (b : UInt8) (rest : Bytes) :
    (decodeFirst b rest).2.length ≤ rest.length := by
  -- What follows the first byte only gets shorter.
  unfold decodeFirst
  split
  · simp
  · exact length_follow_le _ _ rest

/-- The characters of some bytes, with a gap for every maximal broken sequence. -/
def glyphs : Bytes → List (Option Char)
  | [] => []
  | b :: rest =>
    match read : decodeFirst b rest with
    | (value, after) =>
      have : after.length ≤ rest.length := by
        have := length_decodeFirst_le b rest
        simpa [read] using this
      value :: glyphs after
  termination_by bytes => bytes.length

/-- The characters of a list without gaps. -/
def gapless? : List (Option Char) → Option (List Char)
  | [] => some []
  | none :: _ => none
  | some c :: rest => (gapless? rest).map (c :: ·)

/-- The character that stands for a broken sequence of bytes. -/
def replacement : Char := '\uFFFD'

/-- The text of some bytes, if they are UTF-8. -/
def text? (bytes : Bytes) : Option String :=
  (gapless? (glyphs bytes)).map String.ofList

/-- The text of some bytes with every broken sequence replaced. -/
def textLossy (bytes : Bytes) : String :=
  String.ofList ((glyphs bytes).map fun glyph => glyph.getD replacement)

end Text

end DialectBench
