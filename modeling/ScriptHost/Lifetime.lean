import ScriptHost.Scheduler

/-!
# How long a scheduler lasts

The clones of a scheduler share its task lists and its bridge. What a runner is given for a task does not keep
them: it finds out when the task's turn comes whether they are still there. A delayed or repeating task that finds
them keeps them until its firing is over. So a scheduler whose clones are all dropped by a callable lasts until
the firings in progress have ended.

* `Keepers`: who keeps a scheduler.
* `Scheduler.invoke`: `fire`, with the firing's hold on the scheduler.
* `Scheduler.dropClones`: nobody has a clone of the scheduler any more.

A host keeps its own clone as long as it ticks, so that its ticks need no more than `fire`.
-/

namespace ScriptHost

/-- Whether anybody has a clone of a scheduler, and the number of firings in progress that hold it. -/
structure Keepers where
  clones : Bool := true
  firings : Nat := 0
deriving Repr, DecidableEq

namespace Keepers

/-- A firing takes hold of the scheduler. -/
def hold (k : Keepers) : Keepers := { k with firings := k.firings + 1 }

/-- A firing lets go of the scheduler. -/
def letGo (k : Keepers) : Keepers := { k with firings := k.firings - 1 }

/-- Whether anything keeps the scheduler. -/
def any (k : Keepers) : Bool := k.clones || 0 < k.firings

end Keepers

namespace Scheduler

variable {α : Type} {m : Type → Type} [Monad m] [MonadStateOf (Scheduler α) m]
  [MonadStateOf Keepers m] [MonadLog m]

/-- The scheduler ends when nothing keeps it. -/
def endIfUnkept : m Unit := do
  let keepers ← getThe Keepers
  if keepers.any then pure ()
  else modifyThe (Scheduler α) fun s => { s with live := false }

/-- What happens when a task's turn comes, whoever has the scheduler. An immediate task has its own copy of
the callable and does not hold the scheduler while that runs. -/
def invoke (call : α → m (Except GuestError Unit)) (task : Submission α) : m Unit := do
  let s ← getThe (Scheduler α)
  if task.callable.isNone && s.live then
    modifyThe Keepers Keepers.hold
    fire call task
    modifyThe Keepers Keepers.letGo
    endIfUnkept (α := α)
  else fire call task

/-- Every clone of the scheduler is dropped. -/
def dropClones : m Unit := do
  modifyThe Keepers fun k => { k with clones := false }
  endIfUnkept (α := α)

end Scheduler

end ScriptHost
