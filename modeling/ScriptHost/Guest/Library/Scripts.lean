import ScriptHost.Guest.Display
import ScriptHost.Guest.Library.Conversion

/-!
# What scripts are given

The methods of a script's control object, logger, scheduler object and tasks, and the functions `print` and
the reader of modules.
-/

namespace ScriptHost.Guest.Library

/-! ## The control object -/

/-- The name of a method in messages. -/
def controlMethodName : ControlMethod → String
  | .onLoad => "on_load"
  | .onUnload => "on_unload"
  | .registerCommand => "register_command"
  | .share => "share"
  | .unshare => "unshare"

/-- The owner that a control object stands for. -/
def controlOwner (number : Nat) : NativeM Owner := inWorld do
  pure (.script (((← Host.read).control? number).map Control.name |>.getD ""))

/-- A method of a control object. -/
def control (m : ControlMethod) (args : Args) : NativeM Outcome := do
  let name := controlMethodName m
  let number ← checkSelf "ScriptControl" name args fun
    | .control n => some n
    | _ => none
  let method := some s!"ScriptControl.{name}"
  match m with
  | .onLoad =>
    let hook ← accept method args 2 Value.takeFunction
    inWorld (Host.changeControl number fun c => c.addLoadHook hook)
    results []
  | .onUnload =>
    let hook ← accept method args 2 Value.takeFunction
    inWorld (Host.changeControl number fun c => c.addUnloadHook hook)
    results []
  | .registerCommand =>
    let command ← accept method args 2 Value.takeText
    let handler ← accept method args 3 Value.takeFunction
    let description ← accept method args 4 (Value.takeOption Value.takeText)
    if isCommandName command then
      inWorld (Host.changeControl number fun c => c.addCommand ⟨command, description, handler⟩)
      results []
    else hostFault (.runtime s!"invalid command name '{command}'")
  | .share =>
    let object ← accept method args 2 Value.takeText
    let v := args.get 3
    answer (Host.share (← controlOwner number) object (if v.isNil then none else some v))
    results []
  | .unshare =>
    let object ← accept method args 2 Value.takeText
    result (.bool (← answer (Host.unshare (← controlOwner number) object)))

/-! ## The logger -/

/-- The name and the level of a logger's method. -/
def loggerMethod : LoggerMethod → String × Level
  | .debug => ("debug", .debug)
  | .info => ("info", .info)
  | .warn => ("warn", .warn)
  | .error => ("error", .error)

/-- Log values in the name of a script. -/
def logValues (level : Level) (script : String) (vs : List Value) : NativeM Outcome := do
  inWorld (log (scriptRecord level script (displayAll vs)))
  results []

/-- A method of a logger. -/
def logger (m : LoggerMethod) (args : Args) : NativeM Outcome := do
  let (name, level) := loggerMethod m
  let script ← checkSelf "ScriptLogger" name args fun
    | .logger script _ => some script
    | _ => none
  logValues level script (args.drop 1)

/-! ## The scheduler -/

/-- The name of a scheduler object's method. -/
def schedulerMethodName : SchedulerMethod → String
  | .run => "run"
  | .runAsync => "run_async"
  | .runLater => "run_later"
  | .runLaterAsync => "run_later_async"
  | .runRepeating => "run_repeating"
  | .runRepeatingAsync => "run_repeating_async"
  | .cancel => "cancel"
  | .pending => "pending"

/-- A task given by its object or by its number. -/
def taskArgument (v : Value) : Except GuestError TaskId :=
  let refuse := .error (.runtime s!"cancel expects a task or task id, got {v.kindName}")
  match v with
  | .object (.task id _) => .ok ⟨id⟩
  | .object (.failure _) => refuse
  | .object _ => .error .wrongUserData
  | .int i => if 0 ≤ i then .ok ⟨i.toInt.toNat⟩ else refuse
  | _ => refuse

/-- Schedule a function for a script. -/
def scheduleTask (script : String) (f : Value) (lane : Lane) (mode : Mode) : NativeM Outcome := do
  let id ← answer (Host.schedule script f lane mode)
  result (.object (.task id.raw script))

/-- Cancel a task for a script. -/
def cancelTask (script : String) (id : TaskId) : NativeM Outcome := do
  result (.bool (← answer (Host.cancelTask script id)))

/-- A method of a scheduler object. -/
def scheduler (m : SchedulerMethod) (args : Args) : NativeM Outcome := do
  let name := schedulerMethodName m
  let script ← checkSelf "SchedulerApi" name args fun
    | .scheduler script _ => some script
    | _ => none
  let method := some s!"SchedulerApi.{name}"
  let immediate := fun (lane : Lane) => do
    let f ← accept method args 2 Value.takeFunction
    scheduleTask script f lane .immediate
  let delayed := fun (lane : Lane) => do
    let delay ← accept method args 2 Value.takeCount
    let f ← accept method args 3 Value.takeFunction
    scheduleTask script f lane (.delayed delay)
  let repeating := fun (lane : Lane) => do
    let delay ← accept method args 2 Value.takeCount
    let period ← accept method args 3 Value.takeCount
    let f ← accept method args 4 Value.takeFunction
    scheduleTask script f lane (.repeating delay period)
  match m with
  | .run => immediate .sync
  | .runAsync => immediate .async
  | .runLater => delayed .sync
  | .runLaterAsync => delayed .async
  | .runRepeating => repeating .sync
  | .runRepeatingAsync => repeating .async
  | .cancel =>
    match taskArgument (args.get 2) with
    | .ok id => cancelTask script id
    | .error e => hostFault e
  | .pending => do
    let count := (← inWorld Host.read).scheduler.outstanding script
    result (.int (Int64.ofNat count))

/-- Cancel a task through its object. -/
def taskCancel (args : Args) : NativeM Outcome := do
  let (id, script) ← checkSelf "TaskRef" "cancel" args fun
    | .task id script => some (id, script)
    | _ => none
  cancelTask script ⟨id⟩

/-! ## Functions -/

/-- The place of a module in a bundle's folder. -/
def modulePath (folder : Option String) (module : String) : Except String String :=
  match folder with
  | none => .error "import is only available to bundle scripts"
  | some folder =>
    if module.isEmpty || (Text.parts ".." module).length != 1 || !Path.isPlain module then
      .error s!"invalid module name '{module}'"
    else .ok (Path.join folder s!"{module}.lua")

/-- Read a module; gives its source and the name of its chunk. -/
def readModule (folder : Option String) (args : Args) : NativeM Outcome := do
  let module ← accept none args 1 Value.takeText
  match modulePath folder module with
  | .error message => hostFault (.runtime message)
  | .ok path =>
    match (← inWorld Host.read).files.readText path with
    | .error e => hostFault (.runtime s!"cannot import '{module}': {e.message}")
    | .ok source => results [.ofText source, .ofText ("@" ++ path)]

end ScriptHost.Guest.Library
