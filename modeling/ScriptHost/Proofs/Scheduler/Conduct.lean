import ScriptHost.Scheduler

/-!
# Schedulers at work under any runner

What can happen to a scheduler is decided by code that it does not know: the runner, which may fire what it
was given whenever and as often as it likes, also before it has accepted it, and the callables, which may turn
to the scheduler again while they run.

* `Conduct`: such code. It has a state of its own, can look at the scheduler, call it, and fire submissions.
* `Behaviour`: how a runner answers the scheduler and what callables do. Together with a state of its own it
  is any runner there is: it may ignore a cancel, give out any numbers and any answers.
* `Conduct.exec`: what becomes of a scheduler when code runs. Calls may nest in one another to any depth;
  `crew n` is a runner, and callables, whose calls nest at most `n` deep. Code that goes deeper is abandoned
  there, with all that happened before on record, so that runs without an end are covered by their
  beginnings.
* `Seen`: the record. It has the answer to every call, what the scheduler logged, and the scheduler itself at
  every moment at which none of its calls is in progress.
-/

namespace ScriptHost
namespace Scheduler

/-! ## Code -/

/-- Code of a runner or a callable: it may use its own state, look at the scheduler, submit, cancel, and
fire a submission. -/
inductive Conduct (σ α β : Type) where
  | done (b : β)
  | own (f : σ → σ) (next : σ → Conduct σ α β)
  | look (next : Scheduler α → Conduct σ α β)
  | submit (script : String) (callable : α) (lane : Lane) (mode : Mode)
      (next : Except HostError TaskId → Conduct σ α β)
  | cancel (script : String) (id : TaskId) (next : Except HostError Bool → Conduct σ α β)
  | cancelAll (script : String) (next : CancelSummary → Conduct σ α β)
  | fire (task : Submission α) (next : Conduct σ α β)

/-- How a runner answers the scheduler, and what callables do; a callable may come to an error. -/
structure Behaviour (σ α : Type) where
  submit : Submission α → Lane → Mode → Conduct σ α TaskId
  cancel : TaskId → Conduct σ α Bool
  call : α → Conduct σ α (Except GuestError Unit)

/-! ## The record of a run -/

/-- What is seen of a run. -/
inductive Seen (α : Type) where
  /-- The scheduler while none of its calls is in progress. -/
  | rest (s : Scheduler α)
  | submitted (answer : Except HostError TaskId)
  | cancelled (answer : Except HostError Bool)
  /-- The number of handles with a pin that a script had, and what `cancelAll` said. -/
  | cancelledAll (withPin : Nat) (summary : CancelSummary)
  | logged (r : Record)

/-- A scheduler, the state of the code around it, and what was seen so far, the latest first. -/
structure Rig (σ α : Type) where
  scheduler : Scheduler α := {}
  own : σ
  seen : List (Seen α) := []

/-- Code that runs on a rig; it may be abandoned. -/
abbrev RigM (σ α : Type) := ExceptT Unit (StateM (Rig σ α))

namespace RigM

variable {σ α : Type}

instance : MonadStateOf (Scheduler α) (RigM σ α) where
  get := fun rig => (.ok rig.scheduler, rig)
  set s := fun rig => (.ok (), { rig with scheduler := s })
  modifyGet f := fun rig =>
    let (a, s) := f rig.scheduler
    (.ok a, { rig with scheduler := s })

/-- Put something on record. -/
def note (e : Seen α) : RigM σ α Unit := fun rig => (.ok (), { rig with seen := e :: rig.seen })

instance : MonadLog (RigM σ α) where
  log r := note (.logged r)

/-- The scheduler as it is. -/
def scheduler : RigM σ α (Scheduler α) := getThe (Scheduler α)

/-- Change the state of the code around the scheduler. -/
def changeOwn (f : σ → σ) : RigM σ α σ :=
  fun rig => (.ok (f rig.own), { rig with own := f rig.own })

/-- Go no further. -/
def abandon {β : Type} : RigM σ α β := fun rig => (.error (), rig)

/-- A moment between two things that code does. The scheduler is put on record if no call is in
progress. -/
def pause (isRest : Bool) : RigM σ α Unit := do
  if isRest then note (.rest (← scheduler)) else pure ()

end RigM

/-! ## Execution -/

section

variable {σ α β : Type}

open RigM

/-- Run code with a runner and callables; `isRest` tells that no call of the scheduler is in progress. -/
def Conduct.exec (runner : TaskRunner (RigM σ α) α) (call : α → RigM σ α (Except GuestError Unit))
    (isRest : Bool) : Conduct σ α β → RigM σ α β
  | .done b => do
    pause isRest
    pure b
  | .own f next => do
    pause isRest
    let own ← changeOwn f
    (next own).exec runner call isRest
  | .look next => do
    pause isRest
    let s ← scheduler
    (next s).exec runner call isRest
  | .submit script callable lane mode next => do
    pause isRest
    let answer ← Scheduler.submit runner script callable lane mode
    note (.submitted answer)
    (next answer).exec runner call isRest
  | .cancel script id next => do
    pause isRest
    let answer ← Scheduler.cancel (α := α) runner script id
    note (.cancelled answer)
    (next answer).exec runner call isRest
  | .cancelAll script next => do
    pause isRest
    let withPin := ((← scheduler).handlesOf script).countP fun h => h.pin.isSome
    let summary ← Scheduler.cancelAll (α := α) runner script
    note (.cancelledAll withPin summary)
    (next summary).exec runner call isRest
  | .fire task next => do
    pause isRest
    Scheduler.fire call task
    next.exec runner call isRest

/-- A runner, and callables; these are told whether a call is in progress around them. -/
structure Crew (σ α : Type) where
  runner : TaskRunner (RigM σ α) α
  call : Bool → α → RigM σ α (Except GuestError Unit)

/-- The runner and the callables of a behaviour, whose calls may nest in one another `n` deep. Whatever
runs within the runner runs within a call of the scheduler. -/
def crew (b : Behaviour σ α) : Nat → Crew σ α
  | 0 => ⟨⟨fun _ _ _ => abandon, fun _ => abandon⟩, fun _ _ => abandon⟩
  | n + 1 =>
    let inner := crew b n
    ⟨⟨fun task lane mode => (b.submit task lane mode).exec inner.runner (inner.call false) false,
        fun id => (b.cancel id).exec inner.runner (inner.call false) false⟩,
      fun isRest callable => (b.call callable).exec inner.runner (inner.call isRest) isRest⟩

/-- Run code on a new scheduler, under a behaviour and a depth of nesting. -/
def Conduct.run (b : Behaviour σ α) (depth : Nat) (code : Conduct σ α β) (own : σ) :
    Except Unit β × Rig σ α :=
  (code.exec (crew b depth).runner ((crew b depth).call true) true).run.run { own }

end

end Scheduler
end ScriptHost
