import ScriptHost.Console
import ScriptHost.Lifecycle

/-!
# Carrying out instructions

What an instruction of the console does to a host, and the report that it comes to.
-/

namespace ScriptHost

variable {γ α : Type}

/-- Do something, and say so if it succeeds. -/
def announce (act : HostM γ α (Except HostError Unit)) (text : String) :
    HostM γ α (Except HostError Report) := do
  pure ((← act).map fun () => .message text)

/-- Carry out an instruction. -/
def Instruction.execute (g : Guest γ α) (i : Instruction) : HostM γ α (Except HostError Report) := do
  match i with
  | .help => pure (.ok (.message consoleHelp))
  | .exit => pure (.ok (.message "Goodbye!"))
  | .list => do pure (.ok (.scripts (← Host.read).summaries))
  | .bundles =>
    let h ← Host.read
    pure ((h.bundles.list h.files).map fun names => .bundles h.bundles.root names)
  | .commands => do pure (.ok (.commands (← Host.read).commands.list))
  | .load name => announce (Host.loadBundle g name) s!"Loaded '{name}'"
  | .loadAll => do pure ((← Host.loadAll g).map .outcomes)
  | .unload name => announce (Host.unload g name) s!"Unloaded '{name}'"
  | .reload name => announce (Host.reload g name) s!"Reloaded '{name}'"
  | .get script path =>
    if (← Host.read).isLoaded script then do pure (.ok (.variable (← Host.inspect g script path)))
    else pure (.error (.notLoaded script))
  | .tick n =>
    let fired ← Host.runTicks g n
    pure (.ok (.message s!"{n} tick(s), {fired} task(s) fired"))
  | .call command arguments => do
    pure ((← Host.dispatch g command arguments).map .message)

end ScriptHost
