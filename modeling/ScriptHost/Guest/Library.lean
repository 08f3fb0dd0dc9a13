import ScriptHost.Guest.Library.Additions
import ScriptHost.Guest.Library.Catalog
import ScriptHost.Guest.Library.Clock
import ScriptHost.Guest.Library.CodePoints
import ScriptHost.Guest.Library.Coroutines
import ScriptHost.Guest.Library.Frozen
import ScriptHost.Guest.Library.Mathematics
import ScriptHost.Guest.Library.Scripts
import ScriptHost.Guest.Library.Strings
import ScriptHost.Guest.Library.Tables

/-!
# The libraries

`Native.apply`: what every native function does. `refusal`: the message of an argument that a function
refuses, which depends on how the call named the function.
-/

namespace ScriptHost.Guest

/-- Call a native function. -/
def Native.apply (f : Native) (args : Args) : NativeM Outcome :=
  match f with
  | .base f => Library.base f args
  | .string f => Library.string f args
  | .stringArith f => Library.stringArith f args
  | .table f => Library.table f args
  | .math f => Library.math f args
  | .coroutine f => Library.coroutine f args
  | .utf8 f => Library.utf8 f args
  | .clock f => Library.clock f args
  | .util f => Library.util f args
  | .control m => Library.control m args
  | .logger m => Library.logger m args
  | .scheduler m => Library.scheduler m args
  | .taskCancel => Library.taskCancel args
  | .ipairsStep => Library.ipairsStep args
  | .codesStep => Library.codesStep args
  | .gmatchStep state => Library.gmatchStep state
  | .wrapped thread => pure (.resume thread args true)
  | .refuseWrite => Library.refuseWrite args
  | .frozenLength behind => Library.frozenLength behind
  | .frozenPairs behind => Library.frozenPairs behind
  | .resolve => Library.resolve args
  | .print script _ => Library.logValues .info script args
  | .readModule folder _ => Library.readModule folder args
  | .idle => results []

/-- The message of an argument that a function refuses. -/
def refusal (f : Native) (what : Option Described) (position : Nat) (message : String) : String :=
  match what with
  | some ⟨"method", name⟩ =>
    if position == 1 then s!"calling '{name}' on bad self ({message})"
    else s!"bad argument #{position - 1} to '{name}' ({message})"
  | some d => s!"bad argument #{position} to '{d.name}' ({message})"
  | none =>
    let name := f.qualifiedName?.getD "?"
    s!"bad argument #{position} to '{name}' ({message})"

end ScriptHost.Guest
