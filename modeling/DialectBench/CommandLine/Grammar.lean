import DialectBench.Number.Whole
import DialectBench.Text.Line

/-! Long options with values and flags, taken from words and from environment variables. -/

namespace DialectBench.CommandLine

/-- Why a command line is not taken. -/
inductive Refusal where
  /-- An option or a word that is not known. -/
  | unknownArgument
  /-- A first word that is no subcommand. -/
  | invalidSubcommand
  /-- There is no subcommand. -/
  | missingSubcommand
  /-- An option is given twice. -/
  | argumentConflict
  /-- A flag has a value. -/
  | tooManyValues
  /-- A value is missing, an empty path, or not among the names. -/
  | invalidValue
  /-- A value is no number in range. -/
  | valueValidation
  /-- A required option is missing. -/
  | missingRequired
  /-- Help is asked for. -/
  | help
  /-- The version is asked for. -/
  | version
  deriving DecidableEq, Repr

/-- The exit code of a program whose command line is not taken. -/
def Refusal.exitCode : Refusal → Int
  | help => 0
  | version => 0
  | _ => 2

/-- What is wrong, in words; nothing is when help or the version is asked for. -/
def Refusal.message : Refusal → String
  | unknownArgument => "an argument is not known"
  | invalidSubcommand => "the subcommand is not known"
  | missingSubcommand => "a subcommand is missing"
  | argumentConflict => "an option is given twice"
  | tooManyValues => "a flag takes no value"
  | invalidValue => "a value is missing or not among the possible ones"
  | valueValidation => "a value is no number in its range"
  | missingRequired => "a required option is missing"
  | help => ""
  | version => ""

/-- What values an option takes. -/
inductive Taking where
  /-- None; the option is a flag. -/
  | flag
  /-- One, and the option is given once. -/
  | one
  /-- One, which may look like an option, each time the option is given. -/
  | each
  /-- All words up to the next option, each time the option is given. -/
  | all
  deriving DecidableEq, Repr

/-- What a value must look like. -/
inductive Form where
  /-- Anything. -/
  | text
  /-- Anything that is not empty. -/
  | path
  /-- A signed number of 64 bits. -/
  | signed
  /-- A whole number below a bound. -/
  | below (bound : Nat)
  /-- A signed number from zero on and below a bound. -/
  | signedBelow (bound : Nat)
  /-- One of several names. -/
  | among (names : List String)
  deriving DecidableEq, Repr

/-- An option. -/
structure OptionSpec where
  /-- The name after the dashes. -/
  name : String
  /-- The values it takes. -/
  taking : Taking := .one
  /-- What they must look like. -/
  form : Form := .text
  /-- The environment variable that stands in for it. -/
  variableName : Option String := none
  /-- It must be given. -/
  required : Bool := false
  deriving DecidableEq, Repr

/-- The number that a text is, if it is signed, not negative, and below a bound. -/
def countBelow? (bound : Nat) (value : String) : Option Nat :=
  (Number.signedWithin? 64 value.toList).bind fun number =>
    if 0 ≤ number && number < bound then some number.toNat else none

/-- A value looks as it must. -/
def Form.check (form : Form) (value : String) : Except Refusal Unit :=
  match form with
  | .text => .ok ()
  | .path => if value.isEmpty then .error .invalidValue else .ok ()
  | .signed =>
    if (Number.signedWithin? 64 value.toList).isSome then .ok () else .error .valueValidation
  | .below bound =>
    if (Number.wholeBelow? bound value.toList).isSome then .ok () else .error .valueValidation
  | .signedBelow bound =>
    if (countBelow? bound value).isSome then .ok () else .error .valueValidation
  | .among names => if names.contains value then .ok () else .error .invalidValue

/-- All values look as they must. -/
def Form.checkAll (form : Form) : List String → Except Refusal Unit
  | [] => .ok ()
  | value :: values => do
    form.check value
    form.checkAll values

/-- Options that were given, with their values in order. -/
abbrev Given := List (String × List String)

namespace Given

/-- The values of an option, if it was given. -/
def values? (given : Given) (name : String) : Option (List String) :=
  if given.any fun (other, _) => other = name then
    some ((given.filter fun (other, _) => other = name).flatMap Prod.snd)
  else none

/-- An option was given. -/
def has (given : Given) (name : String) : Bool :=
  (given.values? name).isSome

/-- The value of an option, if it was given. -/
def value? (given : Given) (name : String) : Option String :=
  (given.values? name).bind List.head?

end Given

/-- An option that waits for its values. -/
structure Waiting where
  /-- The option. -/
  spec : OptionSpec
  /-- The values so far. -/
  values : List String
  deriving DecidableEq, Repr

/-- An option that waits may take another value. -/
def Waiting.accepts (waiting : Waiting) : Bool :=
  waiting.spec.taking == .all || waiting.values.isEmpty

/-- What has been read of the words. -/
structure Reading where
  /-- The options that are complete. -/
  given : Given := []
  /-- The option whose values come last. -/
  waiting : Option Waiting := none
  deriving DecidableEq, Repr

namespace Reading

/-- Takes an option with its values. -/
def take (reading : Reading) (spec : OptionSpec) (values : List String) :
    Except Refusal Reading := do
  let single := spec.taking == .one || spec.taking == .flag
  -- A missing value comes before a second use, and a second use before a bad value.
  if values.isEmpty && (spec.taking == .one || spec.taking == .each) then .error .invalidValue
  else if single && reading.given.has spec.name then .error .argumentConflict
  else
    spec.form.checkAll values
    return { given := reading.given ++ [(spec.name, values)], waiting := none }

/-- Takes the option that waits for its values. -/
def settle (reading : Reading) : Except Refusal Reading :=
  match reading.waiting with
  | some waiting => reading.take waiting.spec waiting.values
  | none => .ok reading

/-- The next word is a value whatever it looks like. -/
def takesAnyWord (reading : Reading) : Bool :=
  match reading.waiting with
  | some waiting => waiting.spec.taking == .each && waiting.accepts
  | none => false

/-- Takes a word as a value of the option that waits. -/
def push (reading : Reading) (word : String) : Except Refusal Reading :=
  match reading.waiting with
  | some waiting =>
    if waiting.accepts then
      .ok { reading with waiting := some { waiting with values := waiting.values ++ [word] } }
    else .error .unknownArgument
  | none => .error .unknownArgument

end Reading

/-- A word with two dashes: the name and the value after an equals sign. -/
def longOption? (word : String) : Option (String × Option String) :=
  match word.toList with
  | '-' :: '-' :: body =>
    match Text.cutOnce '=' body with
    | some (name, value) => some (String.ofList name, some (String.ofList value))
    | none => some (String.ofList body, none)
  | _ => none

/-- The letter of a word with one dash. -/
def shortOption? (word : String) : Option Char :=
  match word.toList with
  | '-' :: c :: _ => some c
  | _ => none

/-- Takes a word with two dashes. -/
def readLong (specs : List OptionSpec) (reading : Reading) (name : String)
    (value : Option String) : Except Refusal Reading :=
  if name = "help" then
    match value with
    | some _ => .error .tooManyValues
    | none => do
      let _ ← reading.settle
      .error .help
  else
    match specs.find? fun spec => spec.name = name with
    | none => .error .unknownArgument
    | some spec =>
      if spec.taking = .flag then
        match value with
        | some _ => .error .tooManyValues
        | none => do (← reading.settle).take spec []
      else
        match value with
        | some value => do (← reading.settle).take spec [value]
        | none => do return { (← reading.settle) with waiting := some ⟨spec, []⟩ }

/-- Takes words up to two dashes alone, and gives the words after them. -/
def readWords (specs : List OptionSpec) (reading : Reading) :
    List String → Except Refusal (Reading × List String)
  | [] => .ok (reading, [])
  | word :: words =>
    -- A value that may look like an option is taken before anything else is asked.
    if reading.takesAnyWord then do readWords specs (← reading.push word) words
    else if word = "--" then .ok (reading, words)
    else
      match longOption? word with
      | some (name, value) => do readWords specs (← readLong specs reading name value) words
      | none =>
        match shortOption? word with
        | some letter => do
          if letter = 'h' then
            let _ ← reading.settle
            .error .help
          else .error .unknownArgument
        | none => do readWords specs (← reading.push word) words

/-- The texts that turn a flag off when an environment variable gives them. -/
def falseWords : List String := ["n", "no", "f", "false", "off", "0", ""]

/-- A flag that an environment variable gives. -/
def isTruthy (value : String) : Bool :=
  !falseWords.contains (String.ofList (value.toList.map Char.toLower))

/-- The environment variables with their values. -/
abbrev Environment := List (String × String)

/-- Takes an option that was not given from its environment variable. -/
def fromEnvironment (environment : Environment) (given : Given) (spec : OptionSpec) :
    Except Refusal Given :=
  if given.has spec.name then .ok given
  else
    match spec.variableName.bind fun name => environment.lookup name with
    | none => .ok given
    | some value =>
      if spec.taking = .flag then
        .ok (if isTruthy value then given ++ [(spec.name, [])] else given)
      else do
        spec.form.check value
        return given ++ [(spec.name, [value])]

/-- Takes all options that were not given from their environment variables. -/
def completed (environment : Environment) :
    Given → List OptionSpec → Except Refusal Given
  | given, [] => .ok given
  | given, spec :: specs => do
    completed environment (← fromEnvironment environment given spec) specs

/-- The options that some words give, and the words after two dashes if those are wanted. -/
def readOptions (specs : List OptionSpec) (wantsRest : Bool) (environment : Environment)
    (words : List String) : Except Refusal (Given × List String) := do
  let (reading, rest) ← readWords specs {} words
  if !wantsRest && !rest.isEmpty then .error .unknownArgument
  else
    let reading ← reading.settle
    let given ← completed environment reading.given specs
    let missing := specs.any fun spec => spec.required && !given.has spec.name
    if missing || (wantsRest && rest.isEmpty) then .error .missingRequired
    else return (given, rest)

end DialectBench.CommandLine
