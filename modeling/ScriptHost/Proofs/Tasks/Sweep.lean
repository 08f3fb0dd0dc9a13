import ScriptHost.Proofs.Scheduler.Others
import ScriptHost.Proofs.Tasks.Outstanding

/-!
# Cancelling all tasks of a script

A script's tasks can be cancelled all at once, from everywhere: by the host between ticks, and by a task in the
middle of a tick, whose list of due tasks may have some of them, the task itself included. `Sweeps` says what such
a call does to the scheduler and the runner as code at work finds them, and `Barred` that no task that was submitted
before it begins to run after it. Both hold throughout every run (`cancelAll_sweeps`).
-/

namespace ScriptHost

open Scheduler

namespace Host

variable {γ α : Type} {h : Host γ α} {script : String}

/-- Where a script has no tasks, there is nothing to cancel, and nothing happens. -/
theorem cancelAllTasks_of_no_handles (hnone : ∀ k ∈ h.scheduler.handles, k.script ≠ script) :
    cancelAllTasks script h = (⟨0, 0⟩, h) := by
  have hkept : (h.scheduler.handles.filter fun k => k.script != script) = h.scheduler.handles :=
    List.filter_eq_self.mpr fun k hk => bne_iff_ne.mpr (hnone k hk)
  have hlisted : h.scheduler.handlesOf script = [] := by
    refine List.filter_eq_nil_iff.mpr ?_
    intro k hk heq
    exact hnone k hk (beq_iff_eq.mp heq)
  have hread : cancelAllTasks script h = (do
      let summary ← cancelHandles taskRunner script {} (h.scheduler.handlesOf script)
      if 0 < summary.cancelled then
        log (record .debug (s!"Cancelled {summary.cancelled} task(s) of '{script}', "
          ++ s!"released {summary.released} reference(s)"))
      pure summary : HostM γ α CancelSummary) { h with
        scheduler := { h.scheduler with
          handles := h.scheduler.handles.filter fun k => k.script != script } } := rfl
  rw [hread, hlisted, hkept]
  rfl

end Host

namespace Tasks

variable {γ σ α : Type} {r : TickRunner (Submission α)} {s s' : Scheduler α}
  {flying : Option (ℕ × Submission α)} {events : List (Event α)} {script : String}

/-! ## One call -/

/-- The event is the submission of a task of a script, and the task is not an immediate one. -/
def Event.defers (script : String) (id : TaskId) : Event α → Bool
  | .submitted owner _ mode (.ok new) => owner == script && new == id && mode != .immediate
  | _ => false

/-- The entries of a script's tasks. -/
def waitingFor (script : String) (r : TickRunner (Submission α)) (s : Scheduler α) :
    List (Waiting (Submission α)) :=
  r.queue.filter fun e => s.isTracked script ⟨e.id⟩

/-- What comes of cancelling all tasks of a script, where `before` is what happened before. -/
structure Sweeps (before : List (Event α)) (script : String) (h : Host γ α) : Prop where
  cancelled : (Host.cancelAllTasks script h).1.cancelled = h.scheduler.outstanding script
  /-- The tasks that are not immediate ones give up their pins. -/
  released : (Host.cancelAllTasks script h).1.released =
    (h.scheduler.handlesOf script).countP fun k => before.any (Event.defers script k.task)
  given : ∀ k ∈ h.scheduler.handlesOf script, k.task ∈ givenTo script before
  emptied : (Host.cancelAllTasks script h).2.scheduler.handlesOf script = []
  /-- No entry is left of a task that was cancelled. -/
  removed : ∀ k ∈ h.scheduler.handlesOf script,
    ∀ e ∈ (Host.cancelAllTasks script h).2.runner.queue, e.id ≠ k.task.raw
  handles : ∀ other, other ≠ script →
    (Host.cancelAllTasks script h).2.scheduler.handlesOf other = h.scheduler.handlesOf other
  pins : ∀ k ∈ h.scheduler.handles, k.script ≠ script → ∀ p, k.pin = some p →
    (Host.cancelAllTasks script h).2.scheduler.bridge.get? p = h.scheduler.bridge.get? p
  waiting : ∀ other, other ≠ script →
    waitingFor other (Host.cancelAllTasks script h).2.runner (Host.cancelAllTasks script h).2.scheduler =
      waitingFor other h.runner h.scheduler
  /-- A second call does nothing at all. -/
  again : Host.cancelAllTasks script (Host.cancelAllTasks script h).2 =
    (⟨0, 0⟩, (Host.cancelAllTasks script h).2)

/-- The submission of a task tells whether it has a pin. -/
theorem Ledger.defers_iff (hl : Ledger events flying r s) {k : TaskHandle} (hk : k ∈ s.handles) :
    events.any (Event.defers k.script k.task) = k.pin.isSome := by
  obtain ⟨lane, mode, hid, hpin⟩ := hl.pins k hk
  rw [Bool.eq_iff_iff, hpin, List.any_eq_true]
  constructor
  · rintro ⟨e, he, hdefers⟩
    unfold Event.defers at hdefers
    split at hdefers
    · rename_i owner lane' mode' id'
      simp only [Bool.and_eq_true, beq_iff_eq, bne_iff_ne] at hdefers
      obtain ⟨⟨rfl, rfl⟩, hmode⟩ := hdefers
      obtain ⟨-, -, rfl⟩ := hl.unique _ _ _ _ _ _ _ he hid
      exact hmode
    · cases hdefers
  · intro hmode
    exact ⟨_, hid, by simp [Event.defers, hmode]⟩

/-- The number of the next task has not been given to any yet. -/
theorem Ledger.next_not_given (hl : Ledger events flying r s) (script : String) :
    ⟨r.issued + 1⟩ ∉ givenTo script events := by
  intro hgiven
  obtain ⟨lane, mode, hsubmitted⟩ := mem_givenTo.mp hgiven
  have hle : r.issued + 1 ≤ r.issued := hl.numbered _ _ _ _ hsubmitted
  omega

theorem handlesOf_dropAll_self (s : Scheduler α) (script : String) : (s.dropAll script).handlesOf script = [] := by
  refine List.filter_eq_nil_iff.mpr ?_
  intro k hk heq
  exact (mem_dropAll.mp hk).2 (beq_iff_eq.mp heq)

theorem handlesOf_dropAll_other (s : Scheduler α) {other : String} (hne : other ≠ script) :
    (s.dropAll script).handlesOf other = s.handlesOf other := by
  unfold handlesOf
  show (s.handles.filter _).filter _ = _
  rw [List.filter_filter]
  refine List.filter_congr ?_
  intro k _
  by_cases hk : k.script = other
  · simp [hk, hne]
  · simp [hk]

/-- A script's tasks are tracked for it alone. -/
theorem isTracked_dropAll_other (s : Scheduler α) {other : String} (hne : other ≠ script) (id : TaskId) :
    (s.dropAll script).isTracked other id = s.isTracked other id := by
  rw [Bool.eq_iff_iff, isTracked_iff, isTracked_iff]
  refine exists_congr ?_
  intro k
  rw [mem_dropAll]
  constructor
  · rintro ⟨⟨hk, -⟩, hrest⟩
    exact ⟨hk, hrest⟩
  · rintro ⟨hk, rfl, htask⟩
    exact ⟨⟨hk, hne⟩, rfl, htask⟩

/-- The entries of other scripts stay, since no task is tracked for two scripts. -/
theorem waitingFor_cancelEach (hagree : Agree flying r s) {other : String} (hne : other ≠ script) :
    waitingFor other (cancelEach r ((s.handlesOf script).map TaskHandle.task)) (s.dropAll script) =
      waitingFor other r s := by
  unfold waitingFor
  rw [queue_cancelEach, List.filter_filter]
  refine List.filter_congr ?_
  intro e _
  rw [isTracked_dropAll_other s hne]
  cases htracked : s.isTracked other ⟨e.id⟩ with
  | false => rfl
  | true =>
    obtain ⟨k, hk, hscript, htask⟩ := isTracked_iff.mp htracked
    rw [Bool.true_and, List.all_eq_true]
    intro id hid
    obtain ⟨k', hk', rfl⟩ := List.mem_map.mp hid
    obtain ⟨hk', hscript'⟩ := mem_handlesOf.mp hk'
    refine bne_iff_ne.mpr ?_
    intro heq
    have hsame : k = k' := hagree.eq_of_task hk hk' (htask.trans (congrArg TaskId.mk heq))
    exact hne (hscript.symm.trans ((congrArg TaskHandle.script hsame).trans hscript'))

/-- Scheduler and runner agree, so all that is tracked for the script is cancelled and nothing else. -/
theorem sweeps_of_agree {h : Host γ α} (hagree : Agree flying h.runner h.scheduler)
    (hl : Ledger events flying h.runner h.scheduler) (script : String) : Sweeps events script h := by
  obtain ⟨records, heq⟩ := Host.cancelAllTasks_eq hagree.balances script
  constructor
  · rw [heq]
  · rw [heq]
    show (pinsOf _).length = _
    rw [length_pinsOf]
    refine List.countP_congr ?_
    intro k hk
    obtain ⟨hmem, rfl⟩ := mem_handlesOf.mp hk
    rw [hl.defers_iff hmem]
  · intro k hk
    obtain ⟨hmem, rfl⟩ := mem_handlesOf.mp hk
    obtain ⟨lane, mode, hid, -⟩ := hl.pins k hmem
    exact mem_givenTo.mpr ⟨lane, mode, hid⟩
  · rw [heq]
    exact handlesOf_dropAll_self _ _
  · intro k hk e he
    rw [heq] at he
    exact (mem_cancelEach.mp he).2 k.task (List.mem_map_of_mem hk)
  · intro other hne
    rw [heq]
    exact handlesOf_dropAll_other _ hne
  · intro k hk hscript p hp
    rw [heq]
    show (releaseAll _ _).get? p = _
    rw [get?_releaseAll, if_neg]
    intro hmem
    obtain ⟨k', hk', hp'⟩ := mem_pinsOf.mp hmem
    obtain ⟨hk', hscript'⟩ := mem_handlesOf.mp hk'
    obtain rfl := hagree.balances.eq_of_pin hk hk' hp hp'
    exact hscript hscript'
  · intro other hne
    rw [heq]
    exact waitingFor_cancelEach hagree hne
  · rw [heq]
    refine Host.cancelAllTasks_of_no_handles ?_
    intro k hk
    exact (mem_dropAll.mp hk).2

/-! ## Ever after -/

/-- No task that was submitted for a script before all its tasks were cancelled has begun to run since, nor is it
tracked. -/
def Barred (events : List (Event α)) (s : Scheduler α) : Prop :=
  ∀ before script summary after, events = before ++ .cancelledAll script summary :: after →
    ∀ id ∈ givenTo script before, (∀ owner, .began owner (some id) ∉ after) ∧ ∀ k ∈ s.handles, k.task ≠ id

/-- Whatever else happens: only tracked tasks begin to run, and only new ones come to be tracked. -/
theorem Barred.note (h : Barred events s) {e : Event α}
    (hplain : ∀ script summary, e ≠ .cancelledAll script summary)
    (hbegan : ∀ owner id, e = .began owner (some id) → ∃ k ∈ s.handles, k.task = id)
    (hhandles : ∀ k ∈ s'.handles, k ∈ s.handles ∨ ∀ script, k.task ∉ givenTo script events) :
    Barred (events ++ [e]) s' := by
  intro before script summary after hsplit id hid
  rcases append_singleton_split hsplit with ⟨-, -, hlast⟩ | ⟨after', rfl, hinit⟩
  · exact absurd hlast.symm (hplain script summary)
  · obtain ⟨hquiet, hgone⟩ := h before script summary after' hinit id hid
    have hold : id ∈ givenTo script events := by
      rw [hinit, givenTo, List.filterMap_append]
      exact List.mem_append_left _ hid
    constructor
    · intro owner hmem
      rcases List.mem_append.mp hmem with hmem | hmem
      · exact hquiet owner hmem
      · obtain ⟨k, hk, htask⟩ := hbegan owner id (List.mem_singleton.mp hmem).symm
        exact hgone k hk htask
    · intro k hk htask
      rcases hhandles k hk with hk | hnew
      · exact hgone k hk htask
      · exact hnew script (htask ▸ hold)

/-- Nothing is left of the tasks of a script, whoever submitted what. -/
theorem Barred.sweep (h : Barred events s) (hl : Ledger events flying r s) (script : String)
    (summary : CancelSummary) : Barred (events ++ [.cancelledAll script summary]) (s.dropAll script) := by
  intro before owner summary' after hsplit id hid
  rcases append_singleton_split hsplit with ⟨rfl, rfl, hlast⟩ | ⟨after', rfl, hinit⟩
  · obtain ⟨rfl, rfl⟩ := Event.cancelledAll.inj hlast
    refine ⟨fun _ hmem => absurd hmem List.not_mem_nil, ?_⟩
    intro k hk htask
    obtain ⟨hk, hother⟩ := mem_dropAll.mp hk
    -- the task of a handle was submitted for the script of the handle
    obtain ⟨lane, mode, hsubmitted⟩ := mem_givenTo.mp hid
    obtain ⟨lane', mode', hsubmitted', -⟩ := hl.pins k hk
    rw [htask] at hsubmitted'
    exact hother (hl.unique _ _ _ _ _ _ _ hsubmitted' hsubmitted).1
  · obtain ⟨hquiet, hgone⟩ := h before owner summary' after' hinit id hid
    refine ⟨?_, fun k hk => hgone k (mem_dropAll.mp hk).1⟩
    intro owner' hmem
    rcases List.mem_append.mp hmem with hmem | hmem
    · exact hquiet owner' hmem
    · cases List.mem_singleton.mp hmem

/-- The code at work always finds scheduler and runner in agreement, with each other and with what happened. -/
def Found (events : List (Event α)) : Prop :=
  ∀ before r s after, events = before ++ .moment r s :: after →
    ∃ flying, Agree flying r s ∧ Ledger before flying r s

theorem Found.note (h : Found events) {e : Event α}
    (hmoment : ∀ r s, e = .moment r s → ∃ flying, Agree flying r s ∧ Ledger events flying r s) :
    Found (events ++ [e]) := by
  intro before r s after hsplit
  rcases append_singleton_split hsplit with ⟨-, rfl, hlast⟩ | ⟨after', -, hinit⟩
  · exact hmoment r s hlast.symm
  · exact h before r s after' hinit

/-! ## Every run -/

/-- The diary accounts for the tasks, and for the sweeps among what has happened. -/
structure Kept (sit : Situation α) (h : Host (Diary σ α) α) : Prop where
  accounts : Accounts sit h
  found : Found h.guest.events
  barred : Barred h.guest.events h.scheduler

/-- The event is no note of a moment, no sweep and not the beginning of a firing. -/
def Event.IsMinor : Event α → Prop
  | .moment _ _ => False
  | .cancelledAll _ _ => False
  | .began _ _ => False
  | _ => True

/-- A minor event, after which no other tasks are tracked than before. -/
theorem Kept.note {sit sit' : Situation α} {h h' : Host (Diary σ α) α} (hk : Kept sit h) {e : Event α}
    (haccounts : Accounts sit' h') (hevents : h'.guest.events = h.guest.events ++ [e]) (hminor : e.IsMinor)
    (hhandles : ∀ k ∈ h'.scheduler.handles, k ∈ h.scheduler.handles) : Kept sit' h' where
  accounts := haccounts
  found := by
    rw [hevents]
    refine hk.found.note ?_
    rintro r s rfl
    exact hminor.elim
  barred := by
    rw [hevents]
    refine hk.barred.note ?_ ?_ fun k hmem => .inl (hhandles k hmem)
    · rintro script summary rfl
      exact hminor.elim
    · rintro owner id rfl
      exact hminor.elim

theorem steady_kept : Steady (Kept (σ := σ) (α := α)) := by
  have hsteady := steady_accounts (σ := σ) (α := α)
  -- what happens is minor but for the notes of a moment, submissions, sweeps and firings
  constructor
  case log =>
    intro sit h hk records
    exact ⟨hsteady.log hk.accounts records, hk.found, hk.barred⟩
  case think =>
    intro sit h hk own
    exact ⟨hsteady.think hk.accounts own, hk.found, hk.barred⟩
  case moment =>
    intro sit h hagree hk
    refine ⟨hsteady.moment hagree hk.accounts, hk.found.note ?_, hk.barred.note ?_ ?_ fun k hk => .inl hk⟩
    · intro r s heq
      obtain ⟨rfl, rfl⟩ := Event.moment.inj heq
      exact ⟨sit.flying, hagree, hk.accounts⟩
    · intro script summary heq
      cases heq
    · intro owner id heq
      cases heq
  case submit =>
    intro sit h hagree hk script callable lane mode
    refine ⟨hsteady.submit hagree hk.accounts script callable lane mode, hk.found.note ?_, hk.barred.note ?_ ?_ ?_⟩
    · intro r s heq
      cases heq
    · intro script summary heq
      cases heq
    · intro owner id heq
      cases heq
    · intro k hmem
      rcases List.mem_append.mp hmem with hold | hnew
      · exact .inl hold
      · rw [List.mem_singleton.mp hnew]
        exact .inr fun owner => hk.accounts.next_not_given owner
  case decline =>
    intro sit h hagree hk script id hother
    exact hk.note (hsteady.decline hagree hk.accounts script id hother) rfl trivial fun k hmem => hmem
  case cancel =>
    intro sit h hagree hk script id hown
    exact hk.note (hsteady.cancel hagree hk.accounts script id hown) rfl trivial fun k hmem =>
      List.mem_of_mem_eraseP hmem
  case cancelAll =>
    intro sit h hagree hk script
    refine ⟨hsteady.cancelAll hagree hk.accounts script, hk.found.note ?_, hk.barred.sweep hk.accounts script _⟩
    intro r s heq
    cases heq
  case dawn =>
    intro h hagree hk
    exact hk.note (hsteady.dawn hagree hk.accounts) rfl trivial fun k hmem => hmem
  case skip =>
    intro h id rest hagree hk hnone
    exact ⟨hsteady.skip hagree hk.accounts hnone, hk.found, hk.barred⟩
  case launch =>
    intro h id task rest hagree hk htask
    refine ⟨hsteady.launch hagree hk.accounts htask, hk.found.note ?_, hk.barred.note ?_ ?_ fun k hmem => .inl hmem⟩
    · intro r s heq
      cases heq
    · intro script summary heq
      cases heq
    · -- the task that begins to run is tracked
      intro owner number heq
      obtain ⟨-, hnumber⟩ := Event.began.inj heq
      exact ⟨_, (hagree.take htask).1, Option.some.inj hnumber⟩
  case land =>
    intro h id task rest hagree hk
    refine hk.note (hsteady.land hagree hk.accounts) rfl trivial ?_
    intro k hmem
    have hlanded : k ∈ (if task.callable.isSome || task.oneShot then h.scheduler.drop task.script ⟨id⟩
      else h.scheduler).handles := hmem
    split at hlanded
    · exact List.mem_of_mem_eraseP hlanded
    · exact hlanded
  case dusk =>
    intro h hagree hk
    exact hk.note (hsteady.dusk hagree hk.accounts) rfl trivial fun k hmem => hmem

/-- **Cancelling all tasks of a script is complete, exact and idempotent.** Wherever code is at work in a run, be it
the host's or that of a task, the call cancels what is outstanding of the script and nothing else; and from then on no
task begins to run that was submitted for the script before. -/
theorem cancelAll_sweeps (body : α → Errand σ α) (turns : List (Turn σ α)) (own : σ) :
    let events := (run body turns own).guest.events
    (∀ before r s after, events = before ++ .moment r s :: after →
      ∀ script (h : Host γ α), h.runner = r → h.scheduler = s → Sweeps before script h) ∧
    ∀ before script summary after, events = before ++ .cancelledAll script summary :: after →
      ∀ id ∈ givenTo script before, ∀ owner, .began owner (some id) ∉ after := by
  intro events
  -- before anything has happened there is no moment and no sweep
  have hempty : Kept .between ({ guest := { own } } : Host (Diary σ α) α) := by
    refine ⟨ledger_empty, ?_, ?_⟩
    · intro before r s after hsplit
      cases before <;> cases hsplit
    · intro before script summary after hsplit
      cases before <;> cases hsplit
  obtain ⟨-, hkept⟩ := (steady_kept.run body turns own hempty).1
  constructor
  · rintro before r s after hsplit script h rfl rfl
    obtain ⟨flying, hagree, hl⟩ := hkept.found before _ _ after hsplit
    exact sweeps_of_agree hagree hl script
  · intro before script summary after hsplit id hid
    exact (hkept.barred before script summary after hsplit id hid).1

end Tasks
end ScriptHost
