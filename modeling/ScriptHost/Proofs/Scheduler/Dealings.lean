import ScriptHost.Lifetime
import ScriptHost.Proofs.Scheduler.Agreement

/-!
# Dealings with a scheduler

What a runner, callables and the owners of a scheduler can do with it, over its whole life. They may call it, look
at it, invoke what the runner was given, whenever and as often as they like, and drop their clones of it.

* `Dealing`: such code. `Manner`: how a runner answers, and what callables do.
* `Dealing.exec`: what becomes of a scheduler when code runs. Calls may nest in one another to any depth; code that
  goes deeper than `company n` allows is abandoned there, so that runs without an end are covered by their
  beginnings.
* `Scene`: the scheduler with what keeps it, the calls in progress, and the story so far. A call in progress is
  charged with the pins of the handles that it takes off the task lists itself.
* `Occurrence`: what the story tells, the oldest first.

A call borrows a clone of the scheduler until it returns, so that clones cannot all be dropped meanwhile; code that
calls a scheduler without a clone is abandoned. What is logged is left out.
-/

namespace ScriptHost
namespace Scheduler

/-! ## Code -/

/-- Code of a runner, a callable or an owner of the scheduler. -/
inductive Dealing (σ α β : Type) where
  | done (b : β)
  | own (f : σ → σ) (next : σ → Dealing σ α β)
  | look (next : Scheduler α → Dealing σ α β)
  | submit (script : String) (callable : α) (lane : Lane) (mode : Mode)
      (next : Except HostError TaskId → Dealing σ α β)
  | cancel (script : String) (id : TaskId) (next : Except HostError Bool → Dealing σ α β)
  | cancelAll (script : String) (next : CancelSummary → Dealing σ α β)
  | invoke (task : Submission α) (next : Dealing σ α β)
  /-- Drop every clone of the scheduler that is not in use. -/
  | drop (next : Dealing σ α β)

/-- How a runner answers the scheduler, and what callables do; a callable may come to an error. -/
structure Manner (σ α : Type) where
  submit : Submission α → Lane → Mode → Dealing σ α TaskId
  cancel : TaskId → Dealing σ α Bool
  call : α → Dealing σ α (Except GuestError Unit)

/-! ## The scene -/

/-- What a call in progress was called for. -/
inductive Purpose (α : Type) where
  | submit (task : Submission α)
  | cancel
  | cancelAll
  | invoke (task : Submission α)

/-- A call in progress, the pins of the handles that it has taken off the task lists, and whether it has run the
callable of the task that it invokes. -/
structure OpenCall (α : Type) where
  purpose : Purpose α
  taken : List PinHandle := []
  ran : Bool := false

/-- Whether the call borrows a clone of the scheduler. -/
def Purpose.borrows {α : Type} : Purpose α → Bool
  | .invoke _ => false
  | _ => true

/-- What the story of a scheduler tells. -/
inductive Occurrence (α : Type) where
  /-- Code is at work, and the scheduler is as given. The pins are those that calls in progress have taken. -/
  | moment (s : Scheduler α) (taken : List PinHandle)
  /-- A submission has returned, and left the scheduler as given. -/
  | submitted (task : Submission α) (answer : Except HostError TaskId) (s : Scheduler α)
  /-- A cancel has returned that took the handles of the given pins off the lists. -/
  | cancelled (taken : List PinHandle) (answer : Except HostError Bool)
  | cancelledAll (taken : List PinHandle) (summary : CancelSummary)
  /-- The runner invokes a task. -/
  | invoked (task : Submission α) (s : Scheduler α)
  /-- The callable of the task starts. -/
  | began (task : Submission α)
  /-- The invocation is over. It has run the callable or not, and its retirement took the handle of the given pin. -/
  | returned (task : Submission α) (ran : Bool) (s : Scheduler α) (taken : List PinHandle)
  /-- Every clone of the scheduler is dropped. -/
  | dropped

/-- A scheduler, what keeps it, the state of the code around it, the calls in progress with the innermost one first,
and what occurred so far. -/
structure Scene (σ α : Type) where
  scheduler : Scheduler α := {}
  keepers : Keepers := {}
  own : σ
  calls : List (OpenCall α) := []
  story : List (Occurrence α) := []

/-- The pins of handles that are on the task lists before a change and not after it. -/
def leaving {α : Type} (s s' : Scheduler α) : List PinHandle :=
  (pinsOf s.handles).filter fun p => p ∉ pinsOf s'.handles

namespace Scene

variable {σ α : Type}

/-- Charge the innermost call with pins that it has taken. -/
def charge (pins : List PinHandle) : List (OpenCall α) → List (OpenCall α)
  | [] => []
  | call :: calls => { call with taken := call.taken ++ pins } :: calls

/-- The scheduler changes. -/
def become (w : Scene σ α) (s : Scheduler α) : Scene σ α :=
  { w with scheduler := s, calls := charge (leaving w.scheduler s) w.calls }

/-- Something occurs. -/
def tell (w : Scene σ α) (e : Occurrence α) : Scene σ α := { w with story := w.story ++ [e] }

/-- A call begins. -/
def enter (w : Scene σ α) (purpose : Purpose α) : Scene σ α :=
  { w with calls := { purpose } :: w.calls }

/-- The innermost call in progress, which was called for a purpose. -/
def innermost (w : Scene σ α) (purpose : Purpose α) : OpenCall α :=
  w.calls.head?.getD { purpose }

/-- The innermost call returns. -/
def leave (w : Scene σ α) : Scene σ α := { w with calls := w.calls.tail }

/-- The pins that calls in progress have taken. -/
def taken (w : Scene σ α) : List PinHandle := w.calls.flatMap OpenCall.taken

/-- Whether a call borrows a clone of the scheduler. -/
def borrowed (w : Scene σ α) : Bool := w.calls.any fun call => call.purpose.borrows

/-- The innermost call has run the callable of its task. -/
def started (w : Scene σ α) : Scene σ α :=
  { w with
    calls := match w.calls with
      | [] => []
      | call :: calls => { call with ran := true } :: calls }

end Scene

/-! ## Execution -/

/-- Code that runs on a scene; it may be abandoned. -/
abbrev SceneM (σ α : Type) := ExceptT Unit (StateM (Scene σ α))

namespace SceneM

variable {σ α : Type}

instance : MonadStateOf (Scheduler α) (SceneM σ α) where
  get := fun w => (.ok w.scheduler, w)
  set s := fun w => (.ok (), w.become s)
  modifyGet f := fun w =>
    let (a, s) := f w.scheduler
    (.ok a, w.become s)

instance : MonadStateOf Keepers (SceneM σ α) where
  get := fun w => (.ok w.keepers, w)
  set keepers := fun w => (.ok (), { w with keepers })
  modifyGet f := fun w =>
    let (a, keepers) := f w.keepers
    (.ok a, { w with keepers })

instance : MonadLog (SceneM σ α) where
  log _ := pure ()

/-- The scene as it is. -/
def scene : SceneM σ α (Scene σ α) := fun w => (.ok w, w)

/-- Change the scene. -/
def change (f : Scene σ α → Scene σ α) : SceneM σ α Unit := fun w => (.ok (), f w)

/-- Go no further. -/
def abandon {β : Type} : SceneM σ α β := fun w => (.error (), w)

/-- A moment between two things that code does. -/
def pause : SceneM σ α Unit := change fun w => w.tell (.moment w.scheduler w.taken)

/-- A call of the scheduler, which needs a clone of it; `outcome` is what occurs when it returns. -/
def calling {β : Type} (purpose : Purpose α) (call : SceneM σ α β)
    (outcome : OpenCall α → β → Scheduler α → Occurrence α) : SceneM σ α β := do
  let w ← scene
  if w.keepers.clones then
    change fun w => w.enter purpose
    let answer ← call
    change fun w => w.leave.tell (outcome (w.innermost purpose) answer w.scheduler)
    pure answer
  else abandon

end SceneM

section

variable {σ α β : Type}

open SceneM

/-- The runner invokes a task. -/
def invoking (call : α → SceneM σ α (Except GuestError Unit)) (task : Submission α) :
    SceneM σ α Unit := do
  change fun w => (w.tell (.invoked task w.scheduler)).enter (.invoke task)
  Scheduler.invoke (fun callable => do
    change fun w => w.started.tell (.began task)
    call callable) task
  change fun w =>
    let call := w.innermost (.invoke task)
    w.leave.tell (.returned task call.ran w.scheduler call.taken)

/-- The clones of the scheduler are dropped, unless one is in use. -/
def dropping : SceneM σ α Unit := do
  let w ← scene
  if w.borrowed then pure ()
  else
    change fun w => w.tell .dropped
    dropClones (α := α)

/-- Run code with a runner and callables. -/
def Dealing.exec (runner : TaskRunner (SceneM σ α) α)
    (call : α → SceneM σ α (Except GuestError Unit)) : Dealing σ α β → SceneM σ α β
  | .done b => do
    pause
    pure b
  | .own f next => do
    pause
    change fun w => { w with own := f w.own }
    let w ← scene
    (next w.own).exec runner call
  | .look next => do
    pause
    let w ← scene
    (next w.scheduler).exec runner call
  | .submit script callable lane mode next => do
    pause
    let w ← scene
    let task := w.scheduler.submission script callable mode
    let answer ← calling (.submit task) (Scheduler.submit runner script callable lane mode)
      fun _ answer s => .submitted task answer s
    (next answer).exec runner call
  | .cancel script id next => do
    pause
    let answer ← calling .cancel (Scheduler.cancel (α := α) runner script id)
      fun call answer _ => .cancelled call.taken answer
    (next answer).exec runner call
  | .cancelAll script next => do
    pause
    let summary ← calling .cancelAll (Scheduler.cancelAll (α := α) runner script)
      fun call summary _ => .cancelledAll call.taken summary
    (next summary).exec runner call
  | .invoke task next => do
    pause
    invoking call task
    next.exec runner call
  | .drop next => do
    pause
    dropping
    next.exec runner call

/-- A runner, and callables. -/
structure Company (σ α : Type) where
  runner : TaskRunner (SceneM σ α) α
  call : α → SceneM σ α (Except GuestError Unit)

/-- The runner and the callables of a manner, whose calls may nest in one another `n` deep. -/
def company (m : Manner σ α) : Nat → Company σ α
  | 0 => ⟨⟨fun _ _ _ => abandon, fun _ => abandon⟩, fun _ => abandon⟩
  | n + 1 =>
    let inner := company m n
    ⟨⟨fun task lane mode => (m.submit task lane mode).exec inner.runner inner.call,
        fun id => (m.cancel id).exec inner.runner inner.call⟩,
      fun callable => (m.call callable).exec inner.runner inner.call⟩

/-- Run code on a new scheduler, under a manner and a depth of nesting. -/
def Dealing.run (m : Manner σ α) (depth : Nat) (code : Dealing σ α β) (own : σ) :
    Except Unit β × Scene σ α :=
  (code.exec (company m depth).runner (company m depth).call).run.run { own }

end

end Scheduler
end ScriptHost
