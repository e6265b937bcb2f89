/-! Words written so that a shell reads them back as they are. -/

namespace DialectBench.Shell

/-- The characters that mean nothing to a shell. -/
def isPlain (c : Char) : Bool :=
  c.isAlphanum || "-_./:=@%+,#".toList.contains c

/-- A character between single quotes; a single quote leaves them for double quotes. -/
def inQuotes (c : Char) : List Char :=
  if c = '\'' then "'\"'\"'".toList else [c]

/-- The characters of a word as a shell takes them; plain words stay as they are. -/
def quoteChars (word : List Char) : List Char :=
  if !word.isEmpty && word.all isPlain then word
  else '\'' :: word.flatMap inQuotes ++ ['\'']

/-- A word as a shell takes it. -/
def quote (word : String) : String :=
  String.ofList (quoteChars word.toList)

/-- Words as a shell takes them, a space between any two. -/
def joinWords (words : List String) : String :=
  " ".intercalate (words.map quote)

end DialectBench.Shell
