import DialectBench.Proofs.Bench.Opening

/-! Tests run only where everything was prepared for them: the caches, the workspace, the
configuration and the database. -/

namespace DialectBench

section Calls

variable {bench : Bench} {target : Target}

end Calls

/-- The last preset that is set before the tests of a target is its own. -/
theorem Prepared.preset {bench : Bench} {target : Target} {before : List Exchange}
    (prepared : Prepared bench target before) {preset : String}
    (own : target.preset = some preset) :
    ∃ sofar setting since, before = sofar ++ setting :: since ∧
      setting.call = .run (bench.presetCommand preset) ∧ setting.reply.succeeded = true ∧
      ∀ other ∈ since, ∀ name, other.call ≠ .run (bench.presetCommand name) := by
  cases prepared with
  | @intro opening removal start inspection opens starts _ inspects =>
    obtain ⟨opened, succeeded, removes, -⟩ := opens
    -- The opening commands end with the preset, and every call behind them is of another kind.
    obtain ⟨sofar, last, rfl, -, made⟩ : ∃ sofar last, opening = sofar ++ last ∧
        sofar.map Exchange.call = bench.cleanCommands.map .run ∧
          last.map Exchange.call = [.run (bench.presetCommand preset)] := by
      simpa [Bench.openingCommands, own, List.map_eq_append_iff] using opened
    obtain ⟨setting, rfl, sets⟩ := List.map_eq_singleton_iff.mp made
    refine ⟨sofar, setting, [removal, start, inspection], by simp, sets,
      succeeded setting (by simp), ?_⟩
    simp [removes, starts, inspects, Bench.presetCommand, Bench.scriptCommand, Bench.removeCommand,
      Bench.startCommand, Bench.inspectCommand, docker]

namespace Bench

end Bench

end DialectBench
