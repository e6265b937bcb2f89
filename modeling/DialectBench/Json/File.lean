import DialectBench.Disk.Walk
import DialectBench.Json.Printer
import DialectBench.Json.Reader

/-! JSON files: written in three steps, and read as a whole. -/

namespace DialectBench

namespace Action

/-- Writes a JSON file and the directories above it: first the empty file, then the value, then a
line feed. -/
def writeJson (path : Path) (value : JsonValue) : Action Unit := do
  prepareParent path
  let place ← allowed (.createJson path) (← look fun d => d.filePlace path)
  perform (.writeFile place [])
  perform (.extendFile place (Text.encode value.text))
  perform (.extendFile place (Text.encode "\n"))

end Action

/-- What a JSON file holds, as far as a reading of values understands it. -/
def readStored {α : Type} (d : Disk) (path : Path) (meaning : JsonValue → Option α) :
    Except Failure α :=
  match d.read path with
  | .error refusal => .error (.during (.readFile path) refusal)
  | .ok content =>
    match (JsonValue.read? content).bind meaning with
    | some value => .ok value
    | none => .error (.of (.parseFile path))

end DialectBench
