/-! Texts between double quotes in which every character can be seen. -/

namespace DialectBench.Text

/-- The characters that leave no mark of their own: controls, format characters, marks that join
the character before them, separators other than the space, and characters that are not assigned to
anything. -/
def isUnseen (c : Char) : Bool :=
  let n := c.toNat
  n < 0x20 || (0x7F ≤ n && n ≤ 0xA0) || n == 0xAD || (0x300 ≤ n && n ≤ 0x36F) || n == 0x1680
    || (0x2000 ≤ n && n ≤ 0x200F) || (0x2028 ≤ n && n ≤ 0x202F) || (0x205F ≤ n && n ≤ 0x206F)
    || (0x20D0 ≤ n && n ≤ 0x20F0) || n == 0x3000 || (0xE000 ≤ n && n ≤ 0xF8FF)
    || (0xFE00 ≤ n && n ≤ 0xFE0F) || n == 0xFEFF || (0xFFF0 ≤ n && n ≤ 0xFFFB)
    || n % 0x10000 ≥ 0xFFFE || 0xE0000 ≤ n

/-- A character between double quotes. -/
def visible (c : Char) : String :=
  match c with
  | '"' => "\\\""
  | '\\' => "\\\\"
  | '\n' => "\\n"
  | '\r' => "\\r"
  | '\t' => "\\t"
  | _ =>
    if c.toNat = 0 then "\\0"
    else if isUnseen c then "\\u\x7b" ++ String.ofList (Nat.toDigits 16 c.toNat) ++ "\x7d"
    else c.toString

/-- A text between double quotes. -/
def inDoubleQuotes (s : String) : String :=
  "\"" ++ String.join (s.toList.map visible) ++ "\""

end DialectBench.Text
