import ScriptHost.Host
import ScriptHost.Name

/-!
# The life of scripts

Loading, unloading and reloading, and what else the host does with its scripts.

* `load`, `loadBundle`, `loadAll`: run a source in globals of its own. If it fails, all that it acquired is
  released and nothing is kept.
* `unload`, `unloadAll`: call the unload hooks and release all that the script acquired.
* `reload`: unload, and load again from the origin.
* `dispatch`: invoke a published command.
* `inspect`: what a path means to a script.
* `tick`, `runTicks`, `runUntilStopped`, `shutdown`: the run loop.
-/

namespace ScriptHost.Host

variable {γ α : Type}

/-- A record about the life of scripts. -/
def lifeRecord (level : Level) (message : String) : Record :=
  ⟨level, "luna::registry::lifecycle", message⟩

/-- Note what a script is going through, or that it is through. -/
def setPhase (name : String) (phase : Option Phase) : HostM γ α Unit :=
  change fun h => { h with
    phases := match phase with
      | some p => h.phases.insert name p
      | none => h.phases.erase name }

/-! ## Commands -/

/-- Publish declared commands of a script; a refusal is logged. -/
def publishAll (name : String) : List (DeclaredCommand α) → HostM γ α Unit
  | [] => pure ()
  | c :: cs => do
    match (← read).commands.register ⟨c.name, name, c.description⟩ with
    | .ok commands => change fun h => { h with commands }
    | .error e =>
      log (scriptRecord .warn name s!"command '{c.name}' not registered: {e.message}")
    publishAll name cs

/-- Present the changes of the published commands. -/
def syncCommands : HostM γ α Unit := do
  let (records, commands) := (← read).commands.sync
  change fun h => { h with commands }
  logAll records

/-- Publish the commands that a script declares. -/
def publish (name : String) : HostM γ α Unit := do
  let h ← read
  match h.environment? name with
  | none => pure ()
  | some env =>
    publishAll name (h.declared env)
    syncCommands

/-! ## Hooks -/

/-- Call hooks one after the other; an error is logged and stops none of them. -/
def runHooks (g : Guest γ α) (name kind : String) : List α → HostM γ α Unit
  | [] => pure ()
  | hook :: hooks => do
    match ← g.run hook with
    | .ok () => pure ()
    | .error e => log (scriptRecord .error name s!"{kind} hook failed: {e.display}")
    runHooks g name kind hooks

/-! ## Unloading -/

/-- Remove the shared objects of a script; gives their number. -/
def releaseObjects (name : String) : HostM γ α Nat := do
  let (count, objects) := (← read).objects.releaseOwnedBy name
  change fun h => { h with objects }
  pure count

/-- Withdraw the commands of a script. -/
def withdrawCommands (name : String) : HostM γ α Unit := do
  let owned := (← read).commands.ownedBy name
  change fun h => { h with
    commands := owned.foldl (fun t command => (t.unregister command).2) h.commands }
  syncCommands

/-- Tear a script down: its unload hooks, tasks, commands and shared objects, then its environment. -/
def unload (g : Guest γ α) (name : String) : HostM γ α (Except HostError Unit) := do
  let h ← read
  match h.environment? name, h.isLoaded name with
  | some env, true =>
    setPhase name (some .unloading)
    runHooks g name "unload" (((h.control? env.control).map Control.unloadHooks).getD [])
    let summary ← cancelAllTasks name
    withdrawCommands name
    let released ← releaseObjects name
    changeControl env.control Control.clear
    change fun h => { h with
      loaded := h.loaded.erase name
      environments := h.environments.erase name }
    setPhase name none
    log (lifeRecord .info (s!"Unloaded script '{name}' ({summary.cancelled} task(s) cancelled, "
      ++ s!"{summary.released} reference(s) released, {released} shared object(s) removed)"))
    pure (.ok ())
  | _, _ => pure (.error (.notLoaded name))

/-! ## Loading -/

/-- New surroundings for a script, with a new control object. -/
def createEnvironment (g : Guest γ α) (name : String) (origin : Origin) :
    HostM γ α (Environment α) := do
  let number := (← read).controls.size
  change fun h => { h with controls := h.controls.push { name, folder := origin.folder? } }
  let globals ← g.createGlobals name origin.folder? number
  log ⟨.debug, "luna::sandbox::factory", s!"Created sandbox for '{name}'"⟩
  pure ⟨name, origin, (← read).now, globals, number⟩

/-- Release all that the body of a script acquired. -/
def discard (env : Environment α) : HostM γ α Unit := do
  changeControl env.control Control.clear
  let summary ← cancelAllTasks env.name
  let released ← releaseObjects env.name
  log (lifeRecord .debug (s!"Discarded sandbox of '{env.name}' ({summary.cancelled} task(s) "
    ++ s!"cancelled, {released} shared object(s) removed)"))

/-- Run the body of a script in new surroundings. -/
def instantiate (g : Guest γ α) (name : String) (origin : Origin) (source : String) :
    HostM γ α (Except HostError (Environment α)) := do
  let env ← createEnvironment g name origin
  let result ← match ← g.compile name env.globals source with
    | .error e => pure (.error e)
    | .ok body => g.run body
  match result with
  | .ok () => pure (.ok env)
  | .error e =>
    discard env
    pure (.error (.ofGuest name e))

/-- Make room for a load: a loaded instance stands in the way, or is replaced. -/
def makeRoom (g : Guest γ α) (name : String) : HostM γ α (Except HostError Unit) := do
  let h ← read
  if h.isLoaded name then
    match h.policy with
    | .reject => pure (.error (.alreadyLoaded name))
    | .reload =>
      log (lifeRecord .info s!"Script '{name}' is already loaded, replacing it")
      unload g name
  else pure (.ok ())

/-- Enter a script among the loaded ones, publish its commands and call its load hooks. -/
def enter (g : Guest γ α) (name : String) (env : Environment α) : HostM γ α Unit := do
  change fun h => { h with
    loaded := h.loaded.insert name true
    environments := h.environments.insert name env }
  publish name
  runHooks g name "load" ((((← read).control? env.control).map Control.loadHooks).getD [])
  publish name
  log (lifeRecord .info s!"Loaded script '{name}'")

/-- Load a source of some origin. -/
def loadFrom (g : Guest γ α) (name : String) (origin : Origin) (source : String) :
    HostM γ α (Except HostError Unit) := do
  match ← makeRoom g name with
  | .error e => pure (.error e)
  | .ok () =>
    setPhase name (some .loading)
    let result ← instantiate g name origin source
    setPhase name none
    match result with
    | .error e =>
      log (lifeRecord .error s!"Failed to load script '{name}': {e.message}")
      pure (.error e)
    | .ok env =>
      enter g name env
      pure (.ok ())

/-- Load a source as a script. -/
def load (g : Guest γ α) (source name : String) : HostM γ α (Except HostError Unit) :=
  if isScriptName name then loadFrom g name (.inline source) source
  else pure (.error (nameError name))

/-- Load the entry point of a bundle. -/
def loadBundle (g : Guest γ α) (name : String) : HostM γ α (Except HostError Unit) := do
  if isScriptName name then
    let h ← read
    match h.bundles.read h.files name with
    | .error e => pure (.error e)
    | .ok entry => loadFrom g name (.bundle entry.folder) entry.source
  else pure (.error (nameError name))

/-- Unload a script, and load it again from its origin. -/
def reload (g : Guest γ α) (name : String) : HostM γ α (Except HostError Unit) := do
  match (← read).environment? name with
  | none => pure (.error (.notLoaded name))
  | some env =>
    match ← unload g name with
    | .error e => pure (.error e)
    | .ok () =>
      match env.origin with
      | .bundle _ => loadBundle g name
      | .inline source => loadFrom g name (.inline source) source

/-! ## Several scripts -/

/-- Do something for each of several scripts, whatever becomes of the others. -/
def forScripts (act : String → HostM γ α (Except HostError Unit)) :
    List String → HostM γ α (List Outcome)
  | [] => pure []
  | name :: names => do
    let outcome := Outcome.ofResult name (← act name)
    let outcomes ← forScripts act names
    pure (outcome :: outcomes)

/-- Load every bundle. -/
def loadAll (g : Guest γ α) : HostM γ α (Except HostError (List Outcome)) := do
  let h ← read
  match h.bundles.list h.files with
  | .error e => pure (.error e)
  | .ok names => do pure (.ok (← forScripts (loadBundle g) names))

/-- Unload every loaded script, by name. -/
def unloadAll (g : Guest γ α) : HostM γ α (List Outcome) := do
  forScripts (unload g) (← read).loadedScripts

/-! ## Commands and sharing -/

/-- The declared command that a published name means, with the script that published it. -/
def findCommand (h : Host γ α) (name : String) : Option (String × DeclaredCommand α) := do
  let script ← h.commands.owner? name
  let env ← h.environment? script
  let control ← h.control? env.control
  let command ← control.command? name
  pure (script, command)

/-- Invoke a published command; gives the text of what it returned. -/
def dispatch (g : Guest γ α) (name : String) (arguments : List String) :
    HostM γ α (Except HostError String) := do
  match (← read).findCommand name with
  | none => pure (.error (.unknownCommand name))
  | some (script, command) =>
    log ⟨.debug, "luna::registry::manager",
      s!"Dispatching command '{name}' to script '{script}'"⟩
    match ← g.call command.handler (arguments.map g.ofText) with
    | .ok values => pure (.ok (g.display values))
    | .error e => pure (.error (.ofGuest script e))

/-- What a path means to a script. -/
def inspect (g : Guest γ α) (script path : String) : HostM γ α Variable := do
  let value ← match (← read).environment? script with
    | some env => g.readVariable env.globals path
    | none => pure none
  pure ⟨script, path, value⟩

/-! ## The run loop -/

/-- A record of the run loop. -/
def loopRecord (level : Level) (message : String) : Record := ⟨level, "luna::driver", message⟩

/-- The next tick; gives the number of tasks fired. -/
def tick (g : Guest γ α) : HostM γ α Nat := do
  let fired ← TickRunner.tick (Scheduler.fire (α := α) g.run)
  if 0 < fired then
    log (loopRecord .trace s!"Tick {(← read).runner.now}: {fired} task(s) fired")
  pure fired

/-- A number of ticks; adds the number of tasks fired to `fired`. -/
def tickTimes (g : Guest γ α) : Nat → Nat → HostM γ α Nat
  | 0, fired => pure fired
  | n + 1, fired => do
    let more ← tick g
    tickTimes g n (fired + more)

/-- A number of ticks back to back; gives the number of tasks fired. -/
def runTicks (g : Guest γ α) (n : Nat) : HostM γ α Nat := tickTimes g n 0

/-- The most ticks that a run without a limit can count. -/
def maxRunTicks : Nat := 0x10000000000000000

/-- Tick until a limit is reached; gives the number of ticks. A run that is stopped before it begins has
none. -/
def runUntilStopped (g : Guest γ α) (limit : Option Nat) (running : Bool) : HostM γ α Nat := do
  if running then
    let n := limit.getD maxRunTicks
    let _ ← runTicks g n
    pure n
  else pure 0

/-- Unload everything; failures are logged. -/
def shutdown (g : Guest γ α) : HostM γ α (List Outcome) := do
  let outcomes ← unloadAll g
  logAll ((outcomes.filter fun o => !o.success).map fun o =>
    let reason := o.error.getD "unknown error"
    loopRecord .error s!"Unloading '{o.script}' failed: {reason}")
  pure outcomes

end ScriptHost.Host
