import ScriptHost.Host
import ScriptHost.Proofs.Scheduler.Agreement

/-!
# Tasks of a host

A host's scheduler works over its tick runner. The runner does not turn back to the scheduler, so that each
call comes to one step of both (`schedule_eq`, `cancelTask_eq`, `cancelAllTasks_eq`, `retire_eq`), besides
what it logs. The firing of a task comes to a run of its callable and a retirement (`fire_eq`).
-/

namespace ScriptHost
namespace Host

open Scheduler

variable {γ α β : Type} {h : Host γ α}

/-! ## One step, and what follows -/

/-- What follows begins with the answer and the host that were left to it. -/
theorem bind_run {δ : Type} (x : HostM γ α β) (f : β → HostM γ α δ) (h : Host γ α) :
    (x >>= f) h = f (x h).1 (x h).2 := rfl

theorem read_bind {δ : Type} (f : Host γ α → HostM γ α δ) (h : Host γ α) :
    (Host.read >>= f) h = f h h := rfl

theorem getThe_bind (f : Scheduler α → HostM γ α β) (h : Host γ α) :
    (getThe (Scheduler α) >>= f) h = f h.scheduler h := rfl

theorem cancel_bind (id : TaskId) (f : Bool → HostM γ α β) (h : Host γ α) :
    ((taskRunner (γ := γ) (α := α)).cancel id >>= f) h =
      f (h.runner.cancel id).1 { h with runner := (h.runner.cancel id).2 } := rfl

/-! ## Releasing a pin -/

/-- A pin that is live can be released. -/
theorem unpinNow_bind {p : PinHandle} {s : Scheduler α} (hunpin : h.scheduler.unpin p = .ok s)
    (next : Except HostError Unit → HostM γ α β) :
    (unpinNow (α := α) p >>= next) h = next (.ok ()) { h with scheduler := s } := by
  have hstep : (unpinNow (α := α) p : HostM γ α (Except HostError Unit)) h =
      (.ok (), { h with scheduler := s }) := by
    rw [unpinNow, getThe_bind, hunpin]
    rfl
  exact congrArg (fun x => next x.1 x.2) hstep

/-- A task handle that was taken off the list gives up its pin, if it has one. -/
theorem untracked_bind (hbalances : Balances [] h.scheduler) {script : String} {id : TaskId}
    (pinless : HostM γ α β) (next : Except HostError Unit → HostM γ α β) :
    (match (h.scheduler.untrack script id).1.bind TaskHandle.pin with
      | none => pinless
      | some pin => unpinNow (α := α) pin >>= next)
      { h with scheduler := (h.scheduler.untrack script id).2 } =
    (if ((h.scheduler.untrack script id).1.bind TaskHandle.pin).isSome then next (.ok ())
      else pinless)
      { h with scheduler := h.scheduler.drop script id } := by
  have huntrack := hbalances.untrack script id
  unfold drop
  cases hpin : (h.scheduler.untrack script id).1.bind TaskHandle.pin with
  | none => rfl
  | some pin =>
    rw [hpin] at huntrack
    exact unpinNow_bind (h := { h with scheduler := _ }) (Balances.unpin huntrack).1 next

/-! ## Submitting -/

/-- The end of a submission, when it is known whether the pin could be released. -/
def track (script : String) (id : TaskId) (pin : Option PinHandle) (message : String) :
    Except HostError Unit → HostM γ α (Except HostError TaskId)
  | .error e => pure (.error e)
  | .ok () => do
    modifyThe (Scheduler α) fun s => { s with handles := s.handles ++ [⟨script, id, pin⟩] }
    log (record .debug message)
    pure (.ok id)

/-- A submission is answered with the runner's next number. -/
theorem schedule_eq (hbalances : Balances [] h.scheduler) (script : String) (callable : α) (lane : Lane)
    (mode : Mode) :
    ∃ record, schedule script callable lane mode h = (.ok ⟨h.runner.issued + 1⟩,
      { h with
        runner := (h.runner.submit (h.scheduler.submission script callable mode) lane mode).2
        scheduler := h.scheduler.enroll script callable mode ⟨h.runner.issued + 1⟩
        records := h.records.push record }) := by
  unfold schedule Scheduler.submit submission enroll
  cases hmode : mode.isTracked with
  | true =>
    simp only [if_true]
    exact ⟨_, rfl⟩
  | false =>
    -- the pin is released as soon as the runner has the task
    simp only [Bool.false_eq_true, if_false]
    have hpin := (hbalances.pin callable).accept
      (h.scheduler.accepted.insert (h.scheduler.bridge.pin callable).1.raw ⟨h.runner.issued + 1⟩)
    exact ⟨_, (unpinNow_bind (h := { h with
      runner := (h.runner.submit
        ⟨(h.scheduler.bridge.pin callable).1, script, some callable, mode.isOneShot⟩ lane mode).2
      scheduler := _ }) (Balances.unpin hpin).1
      (track script ⟨h.runner.issued + 1⟩ none _)).trans rfl⟩

/-! ## Cancelling -/

/-- A cancel of another script's task does nothing. -/
theorem cancelTask_of_ownedByOther {script : String} {id : TaskId}
    (hother : h.scheduler.ownedByOther script id = true) :
    cancelTask script id h = (.ok false, h) := by
  rw [cancelTask, Scheduler.cancel, getThe_bind, if_pos hother]
  rfl

/-- A task that is not another script's is cancelled. It was found if its handle had a pin, or if the runner
still had it. -/
theorem cancelTask_eq (hbalances : Balances [] h.scheduler) (script : String) (id : TaskId) :
    cancelTask script id h =
      if h.scheduler.ownedByOther script id then (.ok false, h)
      else (.ok (((h.scheduler.untrack script id).1.bind TaskHandle.pin).isSome ||
          (h.runner.cancel id).1),
        { h with
          runner := (h.runner.cancel id).2
          scheduler := h.scheduler.drop script id }) := by
  cases hown : h.scheduler.ownedByOther script id with
  | true => exact cancelTask_of_ownedByOther hown
  | false =>
    rw [cancelTask, Scheduler.cancel, getThe_bind, hown]
    refine (untracked_bind (h := { h with runner := (h.runner.cancel id).2 }) hbalances
      (pure (Except.ok (h.runner.cancel id).1))
      fun answer => pure (answer.map fun () => true)).trans ?_
    cases ((h.scheduler.untrack script id).1.bind TaskHandle.pin).isSome <;> rfl

theorem retire_eq (hbalances : Balances [] h.scheduler) (script : String) (id : TaskId) :
    (retire (α := α) script id : HostM γ α Unit) h =
      ((), { h with scheduler := h.scheduler.drop script id }) := by
  refine Eq.trans (untracked_bind hbalances (pure ()) _) ?_
  split <;> rfl

/-- Cancelling the listed tasks releases each of their pins. -/
theorem cancelHandles_eq (script : String) (handles : List TaskHandle) (summary : CancelSummary)
    {held : List PinHandle} (hbalances : Balances (pinsOf handles ++ held) h.scheduler) :
    cancelHandles (taskRunner (γ := γ)) script summary handles h =
      (⟨summary.cancelled + handles.length, summary.released + (pinsOf handles).length⟩,
        { h with
          runner := cancelEach h.runner (handles.map TaskHandle.task)
          scheduler := { h.scheduler with
            bridge := releaseAll h.scheduler.bridge (pinsOf handles) } }) := by
  induction handles generalizing h summary with
  | nil => rfl
  | cons k handles ih =>
    rw [cancelHandles, cancel_bind]
    cases hpin : k.pin with
    | none =>
      have hrest : Balances (pinsOf handles ++ held) h.scheduler := by
        simpa only [pinsOf, List.filterMap_cons, hpin] using hbalances
      refine (ih (h := { h with runner := (h.runner.cancel k.task).2 })
        { summary with cancelled := summary.cancelled + 1 } hrest).trans ?_
      simp only [pinsOf, List.filterMap_cons, hpin, List.length_cons, Nat.add_assoc,
        Nat.add_comm 1]
      rfl
    | some pin =>
      -- the pin of the first handle is held, so it can be released
      have hfirst : Balances (pin :: (pinsOf handles ++ held)) h.scheduler := by
        simpa only [pinsOf, List.filterMap_cons, hpin, List.cons_append] using hbalances
      obtain ⟨hunpin, hrest⟩ := Balances.unpin hfirst
      refine (unpinNow_bind (h := { h with runner := (h.runner.cancel k.task).2 }) hunpin _).trans ?_
      refine (ih (h := { h with runner := (h.runner.cancel k.task).2, scheduler := _ })
        ⟨summary.cancelled + 1, summary.released + 1⟩ hrest).trans ?_
      simp only [pinsOf, List.filterMap_cons, hpin, List.length_cons, Nat.add_assoc,
        Nat.add_comm 1]
      rfl

/-- Every task of the script is cancelled, every pin of its handles released. -/
theorem cancelAllTasks_eq (hbalances : Balances [] h.scheduler) (script : String) :
    ∃ records, cancelAllTasks script h =
      (⟨h.scheduler.outstanding script, (pinsOf (h.scheduler.handlesOf script)).length⟩,
        { h with
          runner := cancelEach h.runner ((h.scheduler.handlesOf script).map TaskHandle.task)
          scheduler := h.scheduler.dropAll script
          records := records }) := by
  have hcancel := cancelHandles_eq (γ := γ) (h := { h with
    scheduler := { h.scheduler with handles := h.scheduler.handles.filter fun k => k.script != script } })
    script (h.scheduler.handlesOf script) {} (hbalances.dropScript script)
  have hread : cancelAllTasks script h =
      (fun x : CancelSummary × Host γ α => ((do
        if 0 < x.1.cancelled then
          log (record .debug (s!"Cancelled {x.1.cancelled} task(s) of '{script}', "
            ++ s!"released {x.1.released} reference(s)"))
        pure x.1 : HostM γ α CancelSummary) x.2))
      (cancelHandles taskRunner script {} (h.scheduler.handlesOf script) { h with
        scheduler := { h.scheduler with
          handles := h.scheduler.handles.filter fun k => k.script != script } }) := rfl
  rw [hread, hcancel]
  dsimp only
  rw [Nat.zero_add, Nat.zero_add]
  split
  · exact ⟨_, rfl⟩
  · exact ⟨_, rfl⟩

/-! ## Firing -/

/-- The task that is firing can be retired by its number. -/
theorem retireSubmission_eq {id : ℕ} {task : Submission α}
    (h₀ : Agree (some (id, task)) h.runner h.scheduler) :
    (retireSubmission task : HostM γ α Unit) h =
      ((), { h with scheduler := h.scheduler.drop task.script ⟨id⟩ }) := by
  rw [retireSubmission, getThe_bind, h₀.live, (h₀.inFlight id task rfl).number]
  exact retire_eq h₀.balances task.script ⟨id⟩

/-- A task that has its callable runs it, and retires if it does not repeat. -/
theorem fire_eq {call : α → HostM γ α (Except GuestError Unit)} {task : Submission α} {callable : α}
    (hcarried : h.scheduler.carried? task = some callable) :
    Scheduler.fire call task h =
      (do
        runCallable call task.script callable
        if task.callable.isSome || task.oneShot then retireSubmission task : HostM γ α Unit) h := by
  unfold carried? at hcarried
  unfold Scheduler.fire
  cases hown : task.callable with
  | some own =>
    rw [hown] at hcarried
    obtain rfl := Option.some.inj hcarried
    rfl
  | none =>
    rw [hown] at hcarried
    dsimp only
    rw [getThe_bind]
    cases hlive : h.scheduler.live with
    | false => rw [hlive] at hcarried; cases hcarried
    | true =>
      rw [hlive] at hcarried
      rw [show h.scheduler.bridge.get? task.ticket = some callable from hcarried]
      rfl

/-- What a firing leaves, if its callable left the scheduler and the runner in agreement. -/
theorem fire_state {call : α → HostM γ α (Except GuestError Unit)} {id : ℕ} {task : Submission α}
    {callable : α} (hcarried : h.scheduler.carried? task = some callable) {h' : Host γ α}
    (hran : (runCallable call task.script callable h).2 = h')
    (hagree : Agree (some (id, task)) h'.runner h'.scheduler) :
    (Scheduler.fire call task h).2 =
      if task.callable.isSome || task.oneShot then
        { h' with scheduler := h'.scheduler.drop task.script ⟨id⟩ }
      else h' := by
  have hread : (Scheduler.fire call task h).2 =
      ((if task.callable.isSome || task.oneShot then retireSubmission task else pure () :
        HostM γ α Unit) (runCallable call task.script callable h).2).2 := by
    rw [fire_eq hcarried]
    rfl
  rw [hread, hran]
  cases task.callable.isSome || task.oneShot with
  | false => rfl
  | true => exact congrArg Prod.snd (retireSubmission_eq hagree)

end Host
end ScriptHost
