import ScriptHost.Bundles
import ScriptHost.Control
import ScriptHost.Scheduler
import ScriptHost.Settings
import ScriptHost.SharedObjects
import ScriptHost.TickRunner

/-!
# The host

The state of a host that runs scripts: the guest interpreter's own state, the tick runner and the
scheduler over it, shared objects, published commands, control objects, and what is known about each
script. The guest's state `γ` and values `α` are parameters, so that the host's rules can be stated without
an interpreter; `Guest` is what the host asks of one.

A script stands in `loaded` and in `environments` from the end of a successful load to its unload;
`phases` records transitions in progress.
-/

namespace ScriptHost

/-- Where a script's source comes from; a reload goes back there. -/
inductive Origin where
  /-- A bundle's folder; its entry point is read again. -/
  | bundle (folder : String)
  /-- Source that was handed over; it is used again. -/
  | inline (source : String)
deriving Repr, DecidableEq

/-- The folder of a script that came from a bundle. -/
def Origin.folder? : Origin → Option String
  | .bundle folder => some folder
  | .inline _ => none

/-- The surroundings of a loaded script: its own globals, and the number of its control object. -/
structure Environment (α : Type) where
  name : String
  origin : Origin
  loadedAt : Timestamp
  globals : α
  control : Nat

/-- The state of a host. -/
structure Host (γ α : Type) where
  guest : γ
  runner : TickRunner (Submission α) := {}
  scheduler : Scheduler α := {}
  objects : SharedObjects α := {}
  commands : CommandTable := {}
  controls : Array (Control α) := #[]
  loaded : Std.TreeMap String Bool := {}
  environments : Std.TreeMap String (Environment α) := {}
  phases : Std.TreeMap String Phase := {}
  policy : DoubleLoad := .reject
  bundles : BundleFolder := ⟨"scripts", "main.lua"⟩
  files : FileTree := {}
  now : Timestamp := ⟨0, 0⟩
  records : Array Record := #[]

/-- Operations that change a host. -/
abbrev HostM (γ α : Type) := StateM (Host γ α)

namespace Host

variable {γ α : Type}

/-! ## Parts -/

instance : MonadStateOf (TickRunner (Submission α)) (HostM γ α) where
  get := fun h => (h.runner, h)
  set r := fun h => ((), { h with runner := r })
  modifyGet f := fun h => let (a, r) := f h.runner; (a, { h with runner := r })

instance : MonadStateOf (Scheduler α) (HostM γ α) where
  get := fun h => (h.scheduler, h)
  set s := fun h => ((), { h with scheduler := s })
  modifyGet f := fun h => let (a, s) := f h.scheduler; (a, { h with scheduler := s })

instance : MonadLog (HostM γ α) where
  log r := fun h => ((), { h with records := h.records.push r })

/-- The state of the host. -/
def read : HostM γ α (Host γ α) := fun h => (h, h)

/-- Change the state of the host. -/
def change (f : Host γ α → Host γ α) : HostM γ α Unit := fun h => ((), f h)

/-- Log several records. -/
def logAll : List Record → HostM γ α Unit
  | [] => pure ()
  | r :: rs => do
    log r
    logAll rs

/-- The host's tick runner as the scheduler sees it. -/
def taskRunner : TaskRunner (HostM γ α) α where
  submit task lane mode := fun h =>
    let (id, r) := h.runner.submit task lane mode
    (id, { h with runner := r })
  cancel id := fun h =>
    let (found, r) := h.runner.cancel id
    (found, { h with runner := r })

/-! ## Questions -/

/-- Whether a script is loaded. -/
def isLoaded (h : Host γ α) (name : String) : Bool := (h.loaded.get? name).getD false

/-- Where a script is in its life. -/
def phase (h : Host γ α) (name : String) : Phase :=
  match h.phases.get? name with
  | some phase => phase
  | none => if h.isLoaded name then .loaded else .unloaded

/-- The names of the loaded scripts, in order. -/
def loadedScripts (h : Host γ α) : List String := h.environments.keys

/-- The surroundings of a loaded script. -/
def environment? (h : Host γ α) (name : String) : Option (Environment α) :=
  h.environments.get? name

/-- The control object of a number. -/
def control? (h : Host γ α) (number : Nat) : Option (Control α) := h.controls[number]?

/-- The commands that a loaded script declares. -/
def declared (h : Host γ α) (env : Environment α) : List (DeclaredCommand α) :=
  match h.control? env.control with
  | some c => c.commands
  | none => []

/-- One summary for each loaded script, by name. -/
def summaries (h : Host γ α) : List ScriptSummary :=
  h.environments.values.map fun env =>
    { name := env.name
      phase := h.phase env.name
      folder := env.origin.folder?
      loadedAt := env.loadedAt
      tasks := h.scheduler.outstanding env.name
      commands := (h.declared env).map DeclaredCommand.name }

/-! ## What scripts ask of their own objects -/

/-- Change a control object. -/
def changeControl (number : Nat) (f : Control α → Control α) : HostM γ α Unit :=
  change fun h => { h with controls := h.controls.modify number f }

/-- Share a value, or with none remove the name. -/
def share (owner : Owner) (name : String) (value : Option α) : HostM γ α (Except HostError Unit) := do
  match (← read).objects.register owner name value with
  | .error e => pure (.error e)
  | .ok (records, objects) =>
    change fun h => { h with objects }
    logAll records
    pure (.ok ())

/-- Remove a shared object; tells whether there was one. -/
def unshare (owner : Owner) (name : String) : HostM γ α (Except HostError Bool) := do
  match (← read).objects.unregister owner name with
  | .error e => pure (.error e)
  | .ok (found, objects) =>
    change fun h => { h with objects }
    pure (.ok found)

/-- Schedule a callable for a script. -/
def schedule (script : String) (callable : α) (lane : Lane) (mode : Mode) :
    HostM γ α (Except HostError TaskId) :=
  Scheduler.submit taskRunner script callable lane mode

/-- Cancel a task for a script. -/
def cancelTask (script : String) (id : TaskId) : HostM γ α (Except HostError Bool) :=
  Scheduler.cancel (α := α) taskRunner script id

/-- Cancel all tasks of a script. -/
def cancelAllTasks (script : String) : HostM γ α CancelSummary :=
  Scheduler.cancelAll (α := α) taskRunner script

end Host

/-! ## The guest -/

/-- What the host asks of a guest interpreter. -/
structure Guest (γ α : Type) where
  /-- New globals for a script, whose control object has a number. -/
  createGlobals : (name : String) → Option String → Nat → HostM γ α α
  /-- A function that runs a source in globals. -/
  compile : (name : String) → α → (source : String) → HostM γ α (Except GuestError α)
  /-- Call a function. -/
  call : α → List α → HostM γ α (Except GuestError (List α))
  /-- The guest string of a text. -/
  ofText : String → α
  /-- The text of what a function returned. -/
  display : List α → String
  /-- What a path means in globals, if it means anything. -/
  readVariable : (globals : α) → (path : String) → HostM γ α (Option Json)

namespace Guest

variable {γ α : Type}

/-- Call a function without arguments, for what it does. -/
def run (g : Guest γ α) (f : α) : HostM γ α (Except GuestError Unit) := do
  pure ((← g.call f []).map fun _ => ())

end Guest

end ScriptHost
