import ScriptHost.Proofs.Host.Modest
import ScriptHost.Proofs.Host.Reach

/-!
# Errands

What a host's tasks can do with its scheduler, and what comes of it when nothing else uses the runner. The code
of a task, and of the host between ticks, is an `Errand`; all that happens is written into a diary, which takes
the place of the guest's state. An errand uses the scheduler for any script, and tasks can be cancelled and
submitted while one of them fires.

* `Errand.exec`, `fireTask`, `tick`, `run`: the host at work, with the operations of the scheduler and the runner.
* `Steady P`: every single step keeps `P`. `Steady.run`: then every run does.
-/

namespace ScriptHost
namespace Tasks

open Scheduler

/-- Code that may use its own state, look at the runner and the scheduler, submit, and cancel; it ends with an
answer, which may be an error. -/
inductive Errand (σ α : Type) where
  | done (answer : Except GuestError Unit)
  | own (f : σ → σ) (next : σ → Errand σ α)
  | look (next : TickRunner (Submission α) → Scheduler α → Errand σ α)
  | submit (script : String) (callable : α) (lane : Lane) (mode : Mode)
      (next : Except HostError TaskId → Errand σ α)
  | cancel (script : String) (id : TaskId) (next : Except HostError Bool → Errand σ α)
  | cancelAll (script : String) (next : CancelSummary → Errand σ α)

/-- What is written into the diary. -/
inductive Event (α : Type) where
  /-- Code is at work, and finds the runner and the scheduler like this. -/
  | moment (r : TickRunner (Submission α)) (s : Scheduler α)
  | submitted (script : String) (lane : Lane) (mode : Mode) (answer : Except HostError TaskId)
  /-- A cancel; `tracked` tells whether the task was tracked for the script when it was called. -/
  | cancelled (script : String) (id : TaskId) (tracked : Bool) (answer : Except HostError Bool)
  | cancelledAll (script : String) (summary : CancelSummary)
  /-- The next tick begins. -/
  | dawned
  /-- The callable of a task begins to run. -/
  | began (script : String) (id : Option TaskId)
  /-- The callable of a task has run. -/
  | ended (script : String) (id : Option TaskId)
  /-- The tick is over, and leaves the runner and the scheduler like this. -/
  | ticked (r : TickRunner (Submission α)) (s : Scheduler α)

/-- What errands share, and what happened so far, in order. -/
structure Diary (σ α : Type) where
  own : σ
  events : List (Event α) := []

end Tasks

/-- Whether a task is tracked for a script. -/
def Scheduler.isTracked {α : Type} (s : Scheduler α) (script : String) (id : TaskId) : Bool :=
  s.handles.any fun k => k.script == script && k.task == id

namespace Host

open Tasks

variable {σ α : Type}

/-- The host with one more event in its diary. -/
def noted (h : Host (Diary σ α) α) (e : Event α) : Host (Diary σ α) α :=
  { h with guest := { h.guest with events := h.guest.events ++ [e] } }

end Host

namespace Tasks

open Scheduler

variable {σ α : Type}

/-! ## At work -/

/-- Write an event into the diary. -/
def note (e : Event α) : HostM (Diary σ α) α Unit := fun h => ((), h.noted e)

/-- Write down how the code at work finds things. -/
def noteMoment : HostM (Diary σ α) α Unit := do
  let h ← Host.read
  note (.moment h.runner h.scheduler)

/-- Run a piece of code. -/
def Errand.exec : Errand σ α → HostM (Diary σ α) α (Except GuestError Unit)
  | .done answer => do
    noteMoment
    pure answer
  | .own f next => do
    noteMoment
    Host.change fun h => { h with guest := { h.guest with own := f h.guest.own } }
    (next (← Host.read).guest.own).exec
  | .look next => do
    noteMoment
    let h ← Host.read
    (next h.runner h.scheduler).exec
  | .submit script callable lane mode next => do
    noteMoment
    let answer ← Host.schedule script callable lane mode
    note (.submitted script lane mode answer)
    (next answer).exec
  | .cancel script id next => do
    noteMoment
    let tracked := (← Host.read).scheduler.isTracked script id
    let answer ← Host.cancelTask script id
    note (.cancelled script id tracked answer)
    (next answer).exec
  | .cancelAll script next => do
    noteMoment
    let summary ← Host.cancelAllTasks script
    note (.cancelledAll script summary)
    (next summary).exec

/-- Run the callable of a task, given the code of all callables. -/
def runTask (body : α → Errand σ α) (task : Submission α) (callable : α) :
    HostM (Diary σ α) α (Except GuestError Unit) := do
  let id := (← Host.read).scheduler.accepted.get? task.ticket.raw
  note (.began task.script id)
  let answer ← (body callable).exec
  note (.ended task.script id)
  pure answer

/-- The turn of a task. -/
def fireTask (body : α → Errand σ α) (task : Submission α) : HostM (Diary σ α) α Unit :=
  Scheduler.fire (runTask body task) task

/-- Let a tick pass. -/
def tick (body : α → Errand σ α) : HostM (Diary σ α) α Unit := do
  note .dawned
  let _ ← TickRunner.tick (fireTask body)
  let h ← Host.read
  note (.ticked h.runner h.scheduler)

/-- What the host does next. -/
inductive Turn (σ α : Type) where
  | act (code : Errand σ α)
  | tick

/-- Let the host take a turn. -/
def Turn.exec (body : α → Errand σ α) : Turn σ α → Host (Diary σ α) α → Host (Diary σ α) α
  | .act code, h => (code.exec h).2
  | .tick, h => (Tasks.tick body h).2

/-- Let the host take its turns, starting with no tasks. -/
def run (body : α → Errand σ α) (turns : List (Turn σ α)) (own : σ) : Host (Diary σ α) α :=
  turns.foldl (fun h turn => turn.exec body h) { guest := { own } }

/-- The number of ticks among some turns. -/
def ticksIn (turns : List (Turn σ α)) : ℕ :=
  turns.countP fun | .act _ => false | .tick => true

theorem ticksIn_act (code : Errand σ α) (turns : List (Turn σ α)) :
    ticksIn (.act code :: turns) = ticksIn turns :=
  List.countP_cons_of_neg Bool.false_ne_true

theorem ticksIn_tick (turns : List (Turn σ α)) : ticksIn (.tick :: turns) = ticksIn turns + 1 :=
  List.countP_cons_of_pos rfl

/-! ## Step by step -/

end Tasks

namespace Host

open Tasks Scheduler

variable {σ α : Type}

/-- The host when code at work has noted how it finds things. -/
def observed (h : Host (Diary σ α) α) : Host (Diary σ α) α :=
  h.noted (.moment h.runner h.scheduler)

/-- The host after a submission. -/
def submitted (h : Host (Diary σ α) α) (script : String) (callable : α) (lane : Lane) (mode : Mode) :
    Host (Diary σ α) α :=
  { h with
    runner := (h.runner.submit (h.scheduler.submission script callable mode) lane mode).2
    scheduler := h.scheduler.enroll script callable mode ⟨h.runner.issued + 1⟩ }.noted
    (.submitted script lane mode (.ok ⟨h.runner.issued + 1⟩))

/-- The host after a cancel of a task that is not another script's. -/
def cancelled (h : Host (Diary σ α) α) (script : String) (id : TaskId) : Host (Diary σ α) α :=
  { h with
    runner := (h.runner.cancel id).2
    scheduler := h.scheduler.drop script id }.noted
    (.cancelled script id (h.scheduler.isTracked script id)
      (.ok (((h.scheduler.untrack script id).1.bind TaskHandle.pin).isSome || (h.runner.cancel id).1)))

/-- The host after all tasks of a script were cancelled. -/
def cancelledAll (h : Host (Diary σ α) α) (script : String) : Host (Diary σ α) α :=
  { h with
    runner := cancelEach h.runner ((h.scheduler.handlesOf script).map TaskHandle.task)
    scheduler := h.scheduler.dropAll script }.noted
    (.cancelledAll script ⟨h.scheduler.outstanding script,
      (pinsOf (h.scheduler.handlesOf script)).length⟩)

/-- The host when the callable of a task begins to run. -/
def launched (h : Host (Diary σ α) α) (id : ℕ) (task : Submission α) : Host (Diary σ α) α :=
  { h with runner := h.runner.take id }.noted (.began task.script (some ⟨id⟩))

/-- The host when the callable of a task has run: a task that does not repeat is not tracked any more. -/
def retired (h : Host (Diary σ α) α) (id : ℕ) (task : Submission α) : Host (Diary σ α) α :=
  { h with
    scheduler :=
      if task.callable.isSome || task.oneShot then h.scheduler.drop task.script ⟨id⟩
      else h.scheduler }.noted (.ended task.script (some ⟨id⟩))

/-- The host when the turn of a task is over. -/
def landed (h : Host (Diary σ α) α) (id : ℕ) (task : Submission α) : Host (Diary σ α) α :=
  (h.retired id task).settle h.runner.now id task

end Host

namespace Tasks

open Scheduler

/-- Where a run is: between ticks; in a tick, with the numbers of the tasks that have their turns ahead of them; or
in the turn of a task. -/
inductive Situation (α : Type) where
  | between
  | waiting (rest : List ℕ)
  | firing (id : ℕ) (task : Submission α) (rest : List ℕ)

/-- The task that is firing, with its number. -/
def Situation.flying {α : Type} : Situation α → Option (ℕ × Submission α)
  | .firing id task _ => some (id, task)
  | _ => none

/-- Every step keeps a condition, if scheduler and runner agree. -/
structure Steady {σ α : Type} (P : Situation α → Host (Diary σ α) α → Prop) : Prop where
  log : ∀ {sit h}, P sit h → ∀ records, P sit { h with records := records }
  think : ∀ {sit h}, P sit h → ∀ own, P sit { h with guest := { h.guest with own := own } }
  moment : ∀ {sit h}, Agree sit.flying h.runner h.scheduler → P sit h → P sit h.observed
  submit : ∀ {sit h}, Agree sit.flying h.runner h.scheduler → P sit h →
    ∀ script callable lane mode, P sit (h.submitted script callable lane mode)
  /-- A cancel of another script's task does nothing. -/
  decline : ∀ {sit h}, Agree sit.flying h.runner h.scheduler → P sit h →
    ∀ script id, h.scheduler.ownedByOther script id = true →
      P sit (h.noted (.cancelled script id (h.scheduler.isTracked script id) (.ok false)))
  cancel : ∀ {sit h}, Agree sit.flying h.runner h.scheduler → P sit h →
    ∀ script id, h.scheduler.ownedByOther script id = false → P sit (h.cancelled script id)
  cancelAll : ∀ {sit h}, Agree sit.flying h.runner h.scheduler → P sit h →
    ∀ script, P sit (h.cancelledAll script)
  dawn : ∀ {h}, Agree none h.runner h.scheduler → P .between h →
    P (.waiting h.atDawn.runner.dueIds) (h.noted .dawned).atDawn
  skip : ∀ {h id rest}, Agree none h.runner h.scheduler → P (.waiting (id :: rest)) h →
    h.runner.task? id = none → P (.waiting rest) h
  launch : ∀ {h id task rest}, Agree none h.runner h.scheduler → P (.waiting (id :: rest)) h →
    h.runner.task? id = some task → P (.firing id task rest) (h.launched id task)
  land : ∀ {h id task rest}, Agree (some (id, task)) h.runner h.scheduler →
    P (.firing id task rest) h → P (.waiting rest) (h.landed id task)
  dusk : ∀ {h}, Agree none h.runner h.scheduler → P (.waiting []) h →
    P .between (h.noted (.ticked h.runner h.scheduler))

/-- Scheduler and runner agree, and the condition holds. -/
structure Holds {σ α : Type} (P : Situation α → Host (Diary σ α) α → Prop) (sit : Situation α)
    (h : Host (Diary σ α) α) : Prop where
  agree : Agree sit.flying h.runner h.scheduler
  holds : P sit h

variable {σ α : Type} (body : α → Errand σ α) {h : Host (Diary σ α) α}
  {P : Situation α → Host (Diary σ α) α → Prop} {sit : Situation α} {rest : List ℕ} {id : ℕ}
  {task : Submission α}

theorem Steady.note_moment (hP : Steady P) (hh : Holds P sit h) : Holds P sit h.observed :=
  ⟨hh.agree, hP.moment hh.agree hh.holds⟩

/-- A piece of code keeps what every step keeps; time stands still meanwhile. -/
theorem Steady.exec (hP : Steady P) (code : Errand σ α) (hh : Holds P sit h) :
    Holds P sit (code.exec h).2 ∧ (code.exec h).2.runner.now = h.runner.now := by
  induction code generalizing h with
  | done answer => exact ⟨hP.note_moment hh, rfl⟩
  | own f next ih =>
    -- the rest of the code depends on what is found, so the induction is for every answer
    have hmoment := hP.note_moment hh
    exact ih _ (h := { h.observed with guest := { h.observed.guest with own := f h.guest.own } })
      ⟨hmoment.agree, hP.think hmoment.holds _⟩
  | look next ih => exact ih _ _ (hP.note_moment hh)
  | submit script callable lane mode next ih =>
    have hmoment := hP.note_moment hh
    obtain ⟨record, heq⟩ := Host.schedule_eq hmoment.agree.balances script callable lane mode
    have hread : (Errand.submit script callable lane mode next).exec h =
        (fun x : Except HostError TaskId × Host (Diary σ α) α =>
          (next x.1).exec (x.2.noted (.submitted script lane mode x.1)))
          (Host.schedule script callable lane mode h.observed) := rfl
    have hnext : Holds P sit (h.observed.submitted script callable lane mode) :=
      ⟨hmoment.agree.submit script callable lane mode,
        hP.submit hmoment.agree hmoment.holds script callable lane mode⟩
    rw [hread, heq]
    exact ih _ ⟨hnext.agree, hP.log hnext.holds _⟩
  | cancel script id next ih =>
    have hmoment := hP.note_moment hh
    have hread : (Errand.cancel script id next).exec h =
        (fun x : Except HostError Bool × Host (Diary σ α) α =>
          (next x.1).exec (x.2.noted (.cancelled script id (h.scheduler.isTracked script id) x.1)))
          (Host.cancelTask script id h.observed) := rfl
    rw [hread, Host.cancelTask_eq hmoment.agree.balances]
    cases hown : h.observed.scheduler.ownedByOther script id with
    | true =>
      rw [if_pos rfl]
      exact ih _ ⟨hmoment.agree, hP.decline hmoment.agree hmoment.holds script id hown⟩
    | false =>
      rw [if_neg Bool.false_ne_true]
      exact ih _ ⟨hmoment.agree.cancel hown, hP.cancel hmoment.agree hmoment.holds script id hown⟩
  | cancelAll script next ih =>
    have hmoment := hP.note_moment hh
    obtain ⟨records, heq⟩ := Host.cancelAllTasks_eq hmoment.agree.balances script
    have hread : (Errand.cancelAll script next).exec h =
        (fun x : CancelSummary × Host (Diary σ α) α =>
          (next x.1).exec (x.2.noted (.cancelledAll script x.1)))
          (Host.cancelAllTasks script h.observed) := rfl
    have hnext : Holds P sit (h.observed.cancelledAll script) :=
      ⟨hmoment.agree.cancelAll script, hP.cancelAll hmoment.agree hmoment.holds script⟩
    have hnow := now_cancelEach h.runner ((h.scheduler.handlesOf script).map TaskHandle.task)
    obtain ⟨hend, htime⟩ := ih _ (h := { h.observed.cancelledAll script with
      records := records }) ⟨hnext.agree, hP.log hnext.holds _⟩
    rw [hread, heq]
    exact ⟨hend, htime.trans hnow⟩

/-- What a callable raises is logged. -/
theorem runCallable_run (call : α → HostM (Diary σ α) α (Except GuestError Unit)) (script : String)
    (callable : α) (h : Host (Diary σ α) α) : ∃ records, (runCallable call script callable h).2 =
      { (call callable h).2 with records := records } := by
  rw [runCallable, Host.bind_run]
  cases (call callable h).1 with
  | ok _ => exact ⟨_, rfl⟩
  | error e => exact ⟨_, rfl⟩

/-- The callable of a task is run between two notes, and the task retires if it does not repeat. -/
theorem fireTask_state {callable : α} (hcarried : h.scheduler.carried? task = some callable)
    (hnumber : h.scheduler.accepted.get? task.ticket.raw = some ⟨id⟩) {h' : Host (Diary σ α) α}
    (hran : ((body callable).exec (h.noted (.began task.script (some ⟨id⟩)))).2 = h')
    (hagree : Agree (some (id, task)) h'.runner h'.scheduler) :
    ∃ records, (fireTask body task h).2 = { h'.retired id task with records := records } := by
  have hread : (runTask body task callable h).2 =
      ((body callable).exec (h.noted (.began task.script (h.scheduler.accepted.get?
        task.ticket.raw)))).2.noted (.ended task.script (h.scheduler.accepted.get?
        task.ticket.raw)) := rfl
  obtain ⟨records, hcalled⟩ := runCallable_run (runTask body task) task.script callable h
  rw [hread, hnumber, hran] at hcalled
  have hfired := Host.fire_state hcarried hcalled hagree
  refine ⟨records, hfired.trans ?_⟩
  unfold Host.retired
  cases task.callable.isSome || task.oneShot with
  | true => rfl
  | false => rfl

/-- A turn leaves scheduler and runner in agreement. -/
theorem agree_landed (hagree : Agree (some (id, task)) h.runner h.scheduler) :
    Agree none (h.landed id task).runner (h.landed id task).scheduler := by
  by_cases honce : task.callable.isSome ∨ task.oneShot
  · have hdrop : (h.landed id task).scheduler = h.scheduler.drop task.script ⟨id⟩ :=
      if_pos (by simpa using honce)
    rw [hdrop]
    exact hagree.retire honce
  · have hkeep : (h.landed id task).scheduler = h.scheduler := if_neg (by simpa using honce)
    rw [hkeep]
    exact hagree.settle honce

/-- A task takes its turn, and the runner goes on. -/
theorem Steady.fire (hP : Steady P) (hh : Holds P (.waiting (id :: rest)) h)
    (htask : h.runner.task? id = some task) {h' : Host (Diary σ α) α}
    (hturn : (fireTask body task { h with runner := h.runner.take id }).2.settle h.runner.now id task =
      h') : Holds P (.waiting rest) h' ∧ h'.runner.now = h.runner.now := by
  obtain ⟨hhandle, htaken⟩ := hh.agree.take htask
  obtain ⟨callable, hcarried⟩ := htaken.carried hhandle
  have hnumber := (htaken.inFlight id task rfl).number
  have hlaunched : Holds P (.firing id task rest) (h.launched id task) :=
    ⟨htaken, hP.launch hh.agree hh.holds htask⟩
  obtain ⟨hran, htime⟩ := hP.exec (body callable) hlaunched
  obtain ⟨records, hfired⟩ := fireTask_state body
    (h := { h with runner := h.runner.take id }) hcarried hnumber rfl hran.agree
  -- the callable has not changed the time at which its task goes back to the queue
  have hlanded : { ((body callable).exec (h.launched id task)).2.landed id task with
      records := records } = h' := by
    rw [← hturn, hfired]
    unfold Host.landed
    rw [htime]
    rfl
  rw [← hlanded]
  exact ⟨⟨agree_landed hran.agree, hP.log (hP.land hran.agree hran.holds) records⟩, htime⟩

/-- Whatever is due takes its turn, if it still waits then. -/
theorem Steady.fireAll (hP : Steady P) {now : ℕ} (fired : ℕ) (hnow : now = h.runner.now)
    (hh : Holds P (.waiting rest) h) :
    Holds P (.waiting []) (TickRunner.fireAll (fireTask body) now fired rest h).2 ∧
      (TickRunner.fireAll (fireTask body) now fired rest h).2.runner.now = now := by
  induction rest generalizing h fired with
  | nil => exact ⟨hh, hnow.symm⟩
  | cons id rest ih =>
    cases htask : h.runner.task? id with
    | none =>
      -- it was cancelled by a task that fired before it
      rw [Host.fireAll_skip htask]
      exact ih fired hnow ⟨hh.agree, hP.skip hh.agree hh.holds htask⟩
    | some task =>
      rw [Host.fireAll_fire htask, hnow]
      obtain ⟨hturn, htime⟩ := hP.fire body hh htask rfl
      rw [← hnow] at hturn htime ⊢
      exact ih (fired + 1) htime.symm hturn

theorem Steady.tick (hP : Steady P) (hh : Holds P .between h) :
    Holds P .between (Tasks.tick body h).2 ∧
      (Tasks.tick body h).2.runner.now = h.runner.now + 1 := by
  have hdawn : Holds P (.waiting h.atDawn.runner.dueIds) (h.noted .dawned).atDawn :=
    ⟨hh.agree.dawn, hP.dawn hh.agree hh.holds⟩
  obtain ⟨hfired, htime⟩ := hP.fireAll body 0 rfl hdawn
  exact ⟨⟨hfired.agree, hP.dusk hfired.agree hfired.holds⟩, htime⟩

theorem Steady.turns (hP : Steady P) (turns : List (Turn σ α)) (hh : Holds P .between h) :
    Holds P .between (turns.foldl (fun h turn => turn.exec body h) h) ∧
      (turns.foldl (fun h turn => turn.exec body h) h).runner.now = h.runner.now + ticksIn turns := by
  induction turns generalizing h with
  | nil => exact ⟨hh, rfl⟩
  | cons turn turns ih =>
    cases turn with
    | act code =>
      obtain ⟨hran, htime⟩ := hP.exec code hh
      obtain ⟨hend, hnow⟩ := ih hran
      refine ⟨hend, hnow.trans ?_⟩
      rw [htime, ticksIn_act]
    | tick =>
      obtain ⟨hticked, htime⟩ := hP.tick body hh
      obtain ⟨hend, hnow⟩ := ih hticked
      refine ⟨hend, hnow.trans ?_⟩
      rw [htime, ticksIn_tick]
      omega

/-- What every step keeps holds after every run, if it holds at its start. -/
theorem Steady.run (hP : Steady P) (turns : List (Turn σ α)) (own : σ)
    (hstart : P .between ({ guest := { own } } : Host (Diary σ α) α)) :
    Holds P .between (Tasks.run body turns own) ∧
      (Tasks.run body turns own).runner.now = ticksIn turns := by
  obtain ⟨hend, hnow⟩ := hP.turns body turns (h := { guest := { own } })
    ⟨agree_empty, hstart⟩
  exact ⟨hend, hnow.trans (Nat.zero_add _)⟩

end Tasks
end ScriptHost
