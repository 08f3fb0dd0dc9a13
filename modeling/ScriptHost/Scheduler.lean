import ScriptHost.Bridge
import ScriptHost.Log
import ScriptHost.TaskMode
import Std.Data.TreeMap

/-!
# The scheduler

The scheduler turns guest callables into tasks of a runner, and remembers which task belongs to which
script.

Every callable is pinned in the value bridge before it is submitted. An immediate task carries its own
copy of the callable, so its pin is released as soon as the runner has accepted it. Other tasks carry
only the pin, which stays in the script's task list until the task retires, is cancelled, or the
script's tasks are all cancelled. Immediate tasks are listed too, without a pin, so that they can be
cancelled before they fire.

* `TaskRunner`: what the scheduler asks of a runner.
* `submit`, `cancel`, `cancelAll`: what scripts and the host ask of the scheduler.
* `fire`: what a runner does when a task's turn comes.
-/

namespace ScriptHost

/-! ## Records -/

/-- A task of a script that has neither retired nor been cancelled. Immediate tasks have no pin. -/
structure TaskHandle where
  script : String
  task : TaskId
  pin : Option PinHandle
deriving Repr, DecidableEq

/-- Whether a handle is that of a script's task. -/
def TaskHandle.isFor (script : String) (id : TaskId) (h : TaskHandle) : Bool :=
  h.script == script && h.task == id

/-- What `cancelAll` did: the number of tasks cancelled and of pins released. -/
structure CancelSummary where
  cancelled : Nat := 0
  released : Nat := 0
deriving Repr, DecidableEq

/-- What a runner is given for a task. The ticket is the handle under which the callable was pinned;
no two submissions have the same. -/
structure Submission (α : Type) where
  ticket : PinHandle
  script : String
  /-- The copy of the callable that an immediate task carries. -/
  callable : Option α
  oneShot : Bool
deriving Repr

/-- A host facility that runs tasks. `cancel` tells whether the task was still to fire. -/
structure TaskRunner (m : Type → Type) (α : Type) where
  submit : Submission α → Lane → Mode → m TaskId
  cancel : TaskId → m Bool

/-- A runner that takes no task. -/
instance {m : Type → Type} {α : Type} [Monad m] : Inhabited (TaskRunner m α) :=
  ⟨⟨fun _ _ _ => pure ⟨0⟩, fun _ => pure false⟩⟩

/-- The pinned callables, the tasks of all scripts in the order of submission, and the numbers that
accepted submissions got. After `live` ends nothing is tracked any more. -/
structure Scheduler (α : Type) where
  bridge : ValueBridge α := {}
  handles : List TaskHandle := []
  accepted : Std.TreeMap Nat TaskId := {}
  live : Bool := true

namespace Scheduler

variable {α : Type}

/-! ## Questions -/

/-- The tasks of a script, in the order of submission. -/
def handlesOf (s : Scheduler α) (script : String) : List TaskHandle :=
  s.handles.filter fun h => h.script == script

/-- The number of tasks of a script. -/
def outstanding (s : Scheduler α) (script : String) : Nat := (s.handlesOf script).length

/-- The number of pinned callables. -/
def pinned (s : Scheduler α) : Nat := s.bridge.pinned

/-- Whether a task is tracked for another script than the given one. -/
def ownedByOther (s : Scheduler α) (script : String) (id : TaskId) : Bool :=
  s.handles.any fun h => h.script != script && h.task == id

/-! ## Steps -/

/-- Stop tracking a task of a script; gives its handle. -/
def untrack (s : Scheduler α) (script : String) (id : TaskId) :
    Option TaskHandle × Scheduler α :=
  (s.handles.find? (TaskHandle.isFor script id),
    { s with handles := s.handles.eraseP (TaskHandle.isFor script id) })

/-- Release a pin. -/
def unpin (s : Scheduler α) (pin : PinHandle) : Except HostError (Scheduler α) :=
  (s.bridge.unpin pin).map fun (_, bridge) => { s with bridge }

/-- A record of the scheduler. -/
def record (level : Level) (message : String) : Record := ⟨level, "luna::scheduler", message⟩

section

variable {m : Type → Type} [Monad m] [MonadStateOf (Scheduler α) m] [MonadLog m]

/-- Release a pin; tells why it cannot be. -/
def unpinNow (pin : PinHandle) : m (Except HostError Unit) := do
  match (← getThe (Scheduler α)).unpin pin with
  | .ok s =>
    set s
    pure (.ok ())
  | .error e => pure (.error e)

/-! ## Submitting -/

/-- Schedule a callable on behalf of a script. -/
def submit (runner : TaskRunner m α) (script : String) (callable : α) (lane : Lane) (mode : Mode) :
    m (Except HostError TaskId) := do
  let s ← getThe (Scheduler α)
  let (ticket, bridge) := s.bridge.pin callable
  set { s with bridge }
  let own := if mode.isTracked then none else some callable
  let id ← runner.submit ⟨ticket, script, own, mode.isOneShot⟩ lane mode
  modifyThe (Scheduler α) fun s => { s with accepted := s.accepted.insert ticket.raw id }
  let released ← if mode.isTracked then pure (.ok ()) else unpinNow (α := α) ticket
  match released with
  | .error e => pure (.error e)
  | .ok () =>
    let handle : TaskHandle := ⟨script, id, if mode.isTracked then some ticket else none⟩
    modifyThe (Scheduler α) fun s => { s with handles := s.handles ++ [handle] }
    log (record .debug s!"Scheduled {id.text} for '{script}' ({lane.name}, {mode.text})")
    pure (.ok id)

/-! ## Firing -/

/-- Forget a task that has fired for the only time. -/
def retire (script : String) (id : TaskId) : m Unit := do
  let (handle, s) := (← getThe (Scheduler α)).untrack script id
  set s
  match handle.bind TaskHandle.pin with
  | none => pure ()
  | some pin =>
    match ← unpinNow (α := α) pin with
    | .ok () => pure ()
    | .error e => log (record .error s!"Retiring {id.text} of '{script}': {e.message}")

/-- Retire the task of a submission, if its number is known by now. -/
def retireSubmission (task : Submission α) : m Unit := do
  let s ← getThe (Scheduler α)
  match s.live, s.accepted.get? task.ticket.raw with
  | true, some id => retire (α := α) task.script id
  | _, _ => pure ()

/-- Run a callable for a script. An error is logged and goes no further. -/
def runCallable (call : α → m (Except GuestError Unit)) (script : String) (callable : α) :
    m Unit := do
  match ← call callable with
  | .ok () => pure ()
  | .error e => log (scriptRecord .error script s!"scheduled task failed: {e.display}")

/-- What happens when a task's turn comes. A task whose pin has been released does nothing. -/
def fire (call : α → m (Except GuestError Unit)) (task : Submission α) : m Unit := do
  match task.callable with
  | some callable =>
    runCallable call task.script callable
    retireSubmission task
  | none =>
    let s ← getThe (Scheduler α)
    if !s.live then pure ()
    else
      match s.bridge.get? task.ticket with
      | none =>
        log (record .debug
          s!"Skipping firing for '{task.script}': {task.ticket.text} already released")
      | some callable =>
        runCallable call task.script callable
        if task.oneShot then retireSubmission task

/-! ## Cancelling -/

/-- Cancel a task on behalf of a script; tells whether there was something to cancel. The tasks of
other scripts are left alone. -/
def cancel (runner : TaskRunner m α) (script : String) (id : TaskId) :
    m (Except HostError Bool) := do
  if (← getThe (Scheduler α)).ownedByOther script id then pure (.ok false)
  else
    let cancelled ← runner.cancel id
    let (handle, s) := (← getThe (Scheduler α)).untrack script id
    set s
    match handle.bind TaskHandle.pin with
    | none => pure (.ok cancelled)
    | some pin => pure ((← unpinNow (α := α) pin).map fun () => true)

/-- Cancel the listed tasks of a script, and add to the summary what was done. -/
def cancelHandles (runner : TaskRunner m α) (script : String) (summary : CancelSummary) :
    List TaskHandle → m CancelSummary
  | [] => pure summary
  | handle :: handles => do
    let _ ← runner.cancel handle.task
    let summary := { summary with cancelled := summary.cancelled + 1 }
    match handle.pin with
    | none => cancelHandles runner script summary handles
    | some pin =>
      match ← unpinNow (α := α) pin with
      | .ok () =>
        cancelHandles runner script { summary with released := summary.released + 1 } handles
      | .error e =>
        log (record .error s!"Cancelling tasks of '{script}': {e.message}")
        cancelHandles runner script summary handles

/-- Cancel every task of a script and release its pins. -/
def cancelAll (runner : TaskRunner m α) (script : String) : m CancelSummary := do
  let s ← getThe (Scheduler α)
  set { s with handles := s.handles.filter fun h => h.script != script }
  let summary ← cancelHandles runner script {} (s.handlesOf script)
  if 0 < summary.cancelled then
    log (record .debug (s!"Cancelled {summary.cancelled} task(s) of '{script}', "
      ++ s!"released {summary.released} reference(s)"))
  pure summary

end

end Scheduler

end ScriptHost
