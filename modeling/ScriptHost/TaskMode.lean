/-!
# When tasks fire

The vocabulary of scheduling: task numbers, the two lanes of a tick, and the modes in which a task can
be submitted. Delays and periods are counted in ticks.
-/

namespace ScriptHost

/-- The number a task runner gives a task. -/
structure TaskId where
  raw : Nat
deriving Repr, DecidableEq

/-- The written form of a task number. -/
def TaskId.text (id : TaskId) : String := s!"task#{id.raw}"

/-- The lane of a task: within a tick the sync lane fires before the async lane. -/
inductive Lane where
  | sync
  | async
deriving Repr, DecidableEq

/-- The name of a lane in the log. -/
def Lane.name : Lane → String
  | .sync => "Sync"
  | .async => "Async"

/-- When, and how often, a task fires. -/
inductive Mode where
  | immediate
  | delayed (delay : Nat)
  | repeating (delay period : Nat)
deriving Repr, DecidableEq

/-- Immediate tasks are fired and forgotten; the others are tracked. -/
def Mode.isTracked : Mode → Bool
  | .immediate => false
  | _ => true

/-- A task that fires once, and not at once. -/
def Mode.isOneShot : Mode → Bool
  | .delayed _ => true
  | _ => false

/-- The form of a mode in the log. -/
def Mode.text : Mode → String
  | .immediate => "Immediate"
  | .delayed delay => s!"Delayed({delay})"
  | .repeating delay period =>
    "Repeating \x7b delay: " ++ toString delay ++ ", period: " ++ toString period ++ " \x7d"

/-! ## Ticks -/

/-- The last tick that can be counted. -/
def lastTick : Nat := 0xFFFFFFFFFFFFFFFF

/-- A number of ticks later, or the last tick if that comes first. -/
def ticksLater (now n : Nat) : Nat := min (now + n) lastTick

/-- The first tick at which a task submitted at tick `now` is due: the next one, or as many ticks
later as its delay says, but never the current one. -/
def Mode.firstDue (now : Nat) : Mode → Nat
  | .immediate => now + 1
  | .delayed delay => ticksLater now (max delay 1)
  | .repeating delay _ => ticksLater now (max delay 1)

/-- The ticks between two firings, for tasks that fire again. -/
def Mode.interval? : Mode → Option Nat
  | .repeating _ period => some (max period 1)
  | _ => none

end ScriptHost
