import ScriptHost.TaskMode

/-!
# The tick runner

A queue of tasks that fire when ticks pass. The runner does not know what a task is: `tick` is told how
to fire one, and firing may itself submit and cancel tasks.

* `submit`, `cancel`: put a task into the queue, take it out.
* `take`, `settle`: the two halves of one firing. While a task is in flight its entry stays in the
  queue without the task, so that a cancel can find it.
* `tick`: the next tick; every task due by then fires, the sync lane first, each lane in the order of
  submission.
-/

namespace ScriptHost

/-- A task in the queue. The task is absent while it fires. -/
structure Waiting (τ : Type) where
  id : Nat
  lane : Lane
  due : Nat
  interval : Option Nat
  task : Option τ
deriving Repr

/-- The current tick, the last number issued, and the queue in the order of submission. -/
structure TickRunner (τ : Type) where
  now : Nat := 0
  issued : Nat := 0
  queue : List (Waiting τ) := []
deriving Repr

namespace TickRunner

variable {τ : Type}

/-- The number of tasks in the queue. -/
def pending (r : TickRunner τ) : Nat := r.queue.length

/-- Put a task into the queue under a new number. -/
def submit (r : TickRunner τ) (task : τ) (lane : Lane) (mode : Mode) : TaskId × TickRunner τ :=
  let id := r.issued + 1
  let entry : Waiting τ := ⟨id, lane, mode.firstDue r.now, mode.interval?, some task⟩
  (⟨id⟩, { r with issued := id, queue := r.queue ++ [entry] })

/-- Take a task out of the queue; tells whether it was there. -/
def cancel (r : TickRunner τ) (id : TaskId) : Bool × TickRunner τ :=
  (r.queue.any (fun e => e.id == id.raw),
    { r with queue := r.queue.filter fun e => e.id != id.raw })

/-! ## Firing -/

/-- The tasks of a lane that are due at the current tick, in the order of submission. -/
def dueIn (r : TickRunner τ) (lane : Lane) : List Nat :=
  (r.queue.filter fun e => e.lane == lane && decide (e.due ≤ r.now)).map Waiting.id

/-- The tasks that are due at the current tick, in the order in which they fire. -/
def dueIds (r : TickRunner τ) : List Nat := r.dueIn .sync ++ r.dueIn .async

/-- The task of an entry that has one. -/
def task? (r : TickRunner τ) (id : Nat) : Option τ :=
  (r.queue.find? fun e => e.id == id).bind Waiting.task

/-- The runner while a task is in flight. -/
def take (r : TickRunner τ) (id : Nat) : TickRunner τ :=
  { r with queue := r.queue.map fun e => if e.id == id then { e with task := none } else e }

/-- What becomes of an entry whose task has fired at tick `now`: it waits for its next turn, or it
leaves the queue. -/
def Waiting.settled? (now : Nat) (task : τ) (e : Waiting τ) : Option (Waiting τ) :=
  e.interval.map fun n => { e with due := ticksLater now n, task := some task }

/-- The runner after a task has fired at tick `now`. -/
def settle (r : TickRunner τ) (now : Nat) (id : Nat) (task : τ) : TickRunner τ :=
  { r with queue := r.queue.filterMap fun e =>
      if e.id == id then Waiting.settled? now task e else some e }

section

variable {m : Type → Type} [Monad m] [MonadStateOf (TickRunner τ) m]

/-- Fire the listed tasks that are still in the queue, and add their number to `fired`. -/
def fireAll (fire : τ → m Unit) (now : Nat) (fired : Nat) : List Nat → m Nat
  | [] => pure fired
  | id :: ids => do
    match (← getThe (TickRunner τ)).task? id with
    | none => fireAll fire now fired ids
    | some task =>
      modifyThe (TickRunner τ) (take · id)
      fire task
      modifyThe (TickRunner τ) (settle · now id task)
      fireAll fire now (fired + 1) ids

/-- The next tick: fire every task that is due; gives their number. -/
def tick (fire : τ → m Unit) : m Nat := do
  modifyThe (TickRunner τ) fun r => { r with now := r.now + 1 }
  let r ← getThe (TickRunner τ)
  fireAll fire r.now 0 r.dueIds

end

end TickRunner

end ScriptHost
