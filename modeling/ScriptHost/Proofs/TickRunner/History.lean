import ScriptHost.Proofs.TickRunner.Standing

/-!
# Tick runners at work

What happens to a tick runner is decided by code around it: the host, between ticks, and the tasks, while
they fire. Both may submit and cancel; only the host lets ticks pass.

* `Deed`: a piece of such code. It has a state of its own, which is also where a task keeps what it knows.
* `Stage`: a runner, the state of the code around it, and the history of all that happened. Tasks carry the
  number they were submitted under, so that the history can tell which of them fired.
* `Turn`: what the host does next, a piece of code or a tick.
-/

namespace ScriptHost
namespace TickRunner

/-- Code around a runner: it may use its own state, look at the current tick and the number of waiting
tasks, submit, and cancel. -/
inductive Deed (σ τ : Type) where
  | done
  | own (f : σ → σ) (next : σ → Deed σ τ)
  | look (next : ℕ → ℕ → Deed σ τ)
  | submit (task : τ) (lane : Lane) (mode : Mode) (next : TaskId → Deed σ τ)
  | cancel (id : TaskId) (next : Bool → Deed σ τ)

/-- What happened, and in which tick: 0 is before the first. -/
inductive Event where
  | submitted (tick id : ℕ) (lane : Lane) (mode : Mode)
  /-- A cancel, and whether the task was found. -/
  | cancelled (tick id : ℕ) (found : Bool)
  /-- The start of a firing. -/
  | fired (tick id : ℕ)
  /-- The end of a tick, and the number of tasks that are said to have fired. -/
  | ticked (tick count : ℕ)
deriving Repr, DecidableEq

/-- The tick of an event. -/
def Event.tick : Event → ℕ
  | .submitted tick .. => tick
  | .cancelled tick .. => tick
  | .fired tick _ => tick
  | .ticked tick _ => tick

/-- The number given to a task, if the event is its submission. -/
def Event.number? : Event → Option ℕ
  | .submitted _ id .. => some id
  | _ => none

/-- The tick of the event, if it is a firing of the task. -/
def Event.firing? (id : ℕ) : Event → Option ℕ
  | .fired tick id' => if id' = id then some tick else none
  | _ => none

/-- The event is a cancel of the task. -/
def Event.Cancels (id : ℕ) : Event → Prop
  | .cancelled _ id' _ => id' = id
  | _ => False

/-- The ticks in which a task fired. -/
def firings (id : ℕ) (events : List Event) : List ℕ := events.filterMap (Event.firing? id)

/-- A runner, the state of the code around it, and what happened so far, in order. -/
structure Stage (σ τ : Type) where
  runner : TickRunner (ℕ × τ) := {}
  own : σ
  history : List Event := []

section

variable {σ τ : Type}

/-- Put an event at the end of the history. -/
def Stage.note (st : Stage σ τ) (e : Event) : Stage σ τ := { st with history := st.history ++ [e] }

/-- Submit a task. -/
def Stage.submit (st : Stage σ τ) (task : τ) (lane : Lane) (mode : Mode) : TaskId × Stage σ τ :=
  let (id, runner) := st.runner.submit (st.runner.issued + 1, task) lane mode
  (id, { st with runner }.note (.submitted st.runner.now id.raw lane mode))

/-- Cancel a task. -/
def Stage.cancel (st : Stage σ τ) (id : TaskId) : Bool × Stage σ τ :=
  let (found, runner) := st.runner.cancel id
  (found, { st with runner }.note (.cancelled st.runner.now id.raw found))

/-- Run a piece of code. -/
def Deed.exec : Deed σ τ → Stage σ τ → Stage σ τ
  | .done, st => st
  | .own f next, st => (next (f st.own)).exec { st with own := f st.own }
  | .look next, st => (next st.runner.now st.runner.pending).exec st
  | .submit task lane mode next, st =>
    (next (st.submit task lane mode).1).exec (st.submit task lane mode).2
  | .cancel id next, st => (next (st.cancel id).1).exec (st.cancel id).2

/-! ## Ticks -/

instance : MonadStateOf (TickRunner (ℕ × τ)) (StateM (Stage σ τ)) where
  get := fun st => (st.runner, st)
  set runner := fun st => ((), { st with runner })
  modifyGet f := fun st =>
    let (a, runner) := f st.runner
    (a, { st with runner })

/-- Fire a task, given the code of all tasks. -/
def Stage.fire (body : τ → Deed σ τ) (task : ℕ × τ) : StateM (Stage σ τ) Unit := fun st =>
  ((), (body task.2).exec (st.note (.fired st.runner.now task.1)))

/-- What the host does next. -/
inductive Turn (σ τ : Type) where
  | act (code : Deed σ τ)
  | tick

/-- Let the host take a turn. -/
def Turn.exec (body : τ → Deed σ τ) : Turn σ τ → Stage σ τ → Stage σ τ
  | .act code, st => code.exec st
  | .tick, st =>
    let (count, st') := TickRunner.tick (Stage.fire body) st
    st'.note (.ticked st'.runner.now count)

/-- Let the host take its turns, starting with an empty runner. -/
def run (body : τ → Deed σ τ) (turns : List (Turn σ τ)) (own : σ) : Stage σ τ :=
  turns.foldl (fun st turn => turn.exec body st) { own }

/-- The number of ticks among some turns. -/
def ticksIn (turns : List (Turn σ τ)) : ℕ :=
  turns.countP fun | .act _ => false | .tick => true

/-! ## One firing after the other -/

variable {body : τ → Deed σ τ} {now fired id : ℕ} {ids : List ℕ} {st : Stage σ τ}

/-- The stage during the firing of a task, at its start. -/
def Stage.launch (st : Stage σ τ) (task : ℕ × τ) (id : ℕ) : Stage σ τ :=
  { st with runner := st.runner.take id }.note (.fired st.runner.now task.1)

/-- The stage after the firing of a task. -/
def Stage.land (st : Stage σ τ) (now : ℕ) (id : ℕ) (task : ℕ × τ) : Stage σ τ :=
  { st with runner := st.runner.settle now id task }

theorem bind_eq {α : Type} (f : TickRunner (ℕ × τ) → StateM (Stage σ τ) α) :
    (getThe (TickRunner (ℕ × τ)) >>= f) st = f st.runner st := rfl

/-- A task that is no longer in the queue is passed over. -/
theorem fireAll_skip (h : st.runner.task? id = none) :
    fireAll (Stage.fire body) now fired (id :: ids) st = fireAll (Stage.fire body) now fired ids st := by
  rw [fireAll, bind_eq, h]

/-- A task that is still in the queue fires. -/
theorem fireAll_fire {task : ℕ × τ} (h : st.runner.task? id = some task) :
    fireAll (Stage.fire body) now fired (id :: ids) st =
      fireAll (Stage.fire body) now (fired + 1) ids
        (((body task.2).exec (st.launch task id)).land now id task) := by
  rw [fireAll, bind_eq, h]
  rfl

/-- The stage at the start of a tick. -/
def Stage.dawn (st : Stage σ τ) : Stage σ τ :=
  { st with runner := st.runner.dawn }

end

end TickRunner
end ScriptHost
