import DialectBench.Number.Whole
import DialectBench.Text.Column
import DialectBench.Text.Utf8

/-! What scripts print: backslashes in texts, and formats with arguments. -/

namespace DialectBench.Shell

/-- The byte that a letter after a backslash stands for. -/
def letterByte? (c : Char) : Option UInt8 :=
  match c with
  | 'a' => some 7
  | 'b' => some 8
  | 't' => some 9
  | 'n' => some 10
  | 'v' => some 11
  | 'f' => some 12
  | 'r' => some 13
  | '\\' => some 92
  | _ => none

/-- The value of so many octal digits at most at the front of a text, and the text after them. -/
def octal : Nat → Nat → List Char → Nat × List Char
  | 0, value, text => (value, text)
  | _, value, [] => (value, [])
  | count + 1, value, c :: text =>
    if '0' ≤ c && c ≤ '7' then octal count (value * 8 + (c.toNat - 48)) text
    else (value, c :: text)

/-- The bytes of a text with what backslashes mean, and whether nothing is to follow; octal digits
come after a zero, or without one. -/
def unescape (zeroFirst : Bool) : Nat → List Char → Bytes × Bool
  | 0, _ => ([], false)
  | _, [] => ([], false)
  | _, ['\\'] => ([92], false)
  | fuel + 1, '\\' :: c :: text =>
    if zeroFirst && c = 'c' then ([], true)
    else
      match letterByte? c with
      | some byte =>
        let (bytes, stopped) := unescape zeroFirst fuel text
        (byte :: bytes, stopped)
      | none =>
        if zeroFirst && c = '0' then
          let (value, rest) := octal 3 0 text
          let (bytes, stopped) := unescape zeroFirst fuel rest
          (UInt8.ofNat value :: bytes, stopped)
        else if '0' ≤ c && c ≤ '7' then
          let (value, rest) := octal 3 0 (c :: text)
          let (bytes, stopped) := unescape zeroFirst fuel rest
          (UInt8.ofNat value :: bytes, stopped)
        else
          let (bytes, stopped) := unescape zeroFirst fuel text
          (92 :: String.utf8EncodeChar c ++ bytes, stopped)
  | fuel + 1, c :: text =>
    let (bytes, stopped) := unescape zeroFirst fuel text
    (String.utf8EncodeChar c ++ bytes, stopped)

/-- What is printed for some words: a space between any two, and a line feed at the end unless the
first word asks for none. -/
def echo (words : List String) : Bytes :=
  let (newline, words) := match words with
    | "-n" :: rest => (false, rest)
    | _ => (true, words)
  let text := (" ".intercalate words).toList
  let (bytes, stopped) := unescape true (text.length + 1) text
  if stopped || !newline then bytes else bytes ++ [10]

/-- A place in a format that an argument goes to. -/
structure Slot where
  /-- The argument is put on the left. -/
  left : Bool
  /-- It is filled up with zeros. -/
  zeros : Bool
  /-- The width. -/
  width : Nat
  /-- What the argument is. -/
  conversion : Char

/-- The slot after a percent sign, and the format after it. -/
def readSlot? (text : List Char) : Option (Slot × List Char) :=
  let flags := text.takeWhile fun c => c = '-' || c = '0'
  let rest := text.drop flags.length
  let digits := rest.takeWhile Char.isDigit
  match rest.drop digits.length with
  | c :: rest =>
    let width := (Number.digits? digits).getD 0
    some (⟨flags.contains '-', flags.contains '0', width, c⟩, rest)
  | [] => none

/-- The number that an argument names. -/
def argumentNumber (argument : String) : Int :=
  (Number.signedWithin? 64 argument.toList).getD 0

/-- A number in a base. -/
def inBase (base : Nat) (value : Int) : String :=
  let magnitude := if value < 0 then (value + Number.wordSize).toNat else value.toNat
  String.ofList (Nat.toDigits base magnitude)

/-- What an argument is printed as. -/
def convert (conversion : Char) (argument : String) : Bytes × Bool :=
  match conversion with
  | 'd' | 'i' => (Text.encode (toString (argumentNumber argument)), false)
  | 'u' => (Text.encode (inBase 10 (argumentNumber argument)), false)
  | 'o' => (Text.encode (inBase 8 (argumentNumber argument)), false)
  | 'x' => (Text.encode (inBase 16 (argumentNumber argument)), false)
  | 'c' => (Text.encode (String.ofList (argument.toList.take 1)), false)
  | 'b' => unescape true (argument.length + 1) argument.toList
  | _ => (Text.encode argument, false)

/-- The bytes of an argument in its slot. -/
def Slot.fill (slot : Slot) (argument : String) : Bytes × Bool :=
  let (bytes, stopped) := convert slot.conversion argument
  let gap := slot.width - bytes.length
  if slot.left then (bytes ++ List.replicate gap 32, stopped)
  else
    let filler : UInt8 := if slot.zeros && "diuox".toList.contains slot.conversion then 48 else 32
    (List.replicate gap filler ++ bytes, stopped)

/-- What is printed by one pass over a format, the arguments that are left, and whether nothing is
to follow. -/
def formatOnce : Nat → List Char → List String → Bytes × List String × Bool
  | 0, _, arguments => ([], arguments, false)
  | _, [], arguments => ([], arguments, false)
  | fuel + 1, '%' :: '%' :: text, arguments =>
    let (bytes, rest, stopped) := formatOnce fuel text arguments
    (37 :: bytes, rest, stopped)
  | fuel + 1, '%' :: text, arguments =>
    match readSlot? text with
    | none => ([37], arguments, false)
    | some (slot, after) =>
      let (filled, stopped) := slot.fill (arguments.head?.getD "")
      if stopped then (filled, [], true)
      else
        let (bytes, rest, stopped) := formatOnce fuel after (arguments.drop 1)
        (filled ++ bytes, rest, stopped)
  | fuel + 1, c :: text, arguments =>
    let literal := (c :: text).takeWhile (· != '%')
    let (front, _) := unescape false (literal.length + 1) literal
    let (bytes, rest, stopped) := formatOnce fuel ((c :: text).drop literal.length) arguments
    (front ++ bytes, rest, stopped)

/-- What is printed by a format for some arguments; it is used again as long as it takes any and
some are left. -/
def formatAll : Nat → List Char → List String → Bytes
  | 0, _, _ => []
  | fuel + 1, format, arguments =>
    let (bytes, rest, stopped) := formatOnce (format.length + 1) format arguments
    if stopped || rest.isEmpty || rest.length = arguments.length then bytes
    else bytes ++ formatAll fuel format rest

/-- What is printed by a format for some arguments. -/
def printf (words : List String) : Bytes :=
  match words with
  | [] => []
  | format :: arguments => formatAll (arguments.length + 1) format.toList arguments

end DialectBench.Shell
