import ScriptHost.Proofs.Scheduler.Course

/-!
# Code on a course

Code that uses a scheduler only by its operations takes the steps of a course, one after the other. Each operation is
looked at once; what a run comes to follows from them.

* `Leads`: code follows a course, and leaves the calls in progress as they are if it comes to its end.
* `leads_submit`, `leads_cancelAll`, `leads_invoking`: the operations.
* `Dealing.run_attained`: every run comes to an attained scene.
-/

namespace ScriptHost
namespace Scheduler

variable {σ α β : Type}

/-! ## Code -/

/-- Code that runs on a scene follows a course. If it comes to its end, it leaves the calls in progress as they
are. -/
def LeadsFrom (w : Scene σ α) (x : SceneM σ α β) : Prop :=
  Course w (x w).2 ∧ ∀ b, (x w).1 = .ok b → (x w).2.calls = w.calls

/-- Code follows a course wherever it runs. -/
def Leads (x : SceneM σ α β) : Prop := ∀ w, Attained w → LeadsFrom w x

namespace SceneM

theorem bind_scene {γ : Type} (x : SceneM σ α β) (f : β → SceneM σ α γ) (w : Scene σ α) :
    (x >>= f) w = match x w with
      | (.ok b, w') => f b w'
      | (.error e, w') => (.error e, w') := by
  simp only [bind, ExceptT.bind, ExceptT.mk, ExceptT.bindCont, StateT.bind]
  rcases x w with ⟨(e | b), w'⟩ <;> rfl

@[simp] theorem pure_apply (b : β) (w : Scene σ α) : (pure b : SceneM σ α β) w = (.ok b, w) := rfl

@[simp] theorem get_apply (w : Scene σ α) :
    (getThe (Scheduler α) : SceneM σ α (Scheduler α)) w = (.ok w.scheduler, w) := rfl

@[simp] theorem set_apply (s : Scheduler α) (w : Scene σ α) :
    (set s : SceneM σ α PUnit) w = (.ok (), w.become s) := rfl

@[simp] theorem modify_apply (f : Scheduler α → Scheduler α) (w : Scene σ α) :
    (modifyThe (Scheduler α) f : SceneM σ α PUnit) w = (.ok (), w.become (f w.scheduler)) := rfl

@[simp] theorem getKeepers_apply (w : Scene σ α) :
    (getThe Keepers : SceneM σ α Keepers) w = (.ok w.keepers, w) := rfl

@[simp] theorem modifyKeepers_apply (f : Keepers → Keepers) (w : Scene σ α) :
    (modifyThe Keepers f : SceneM σ α PUnit) w = (.ok (), { w with keepers := f w.keepers }) := rfl

@[simp] theorem log_apply (r : Record) (w : Scene σ α) : (log r : SceneM σ α Unit) w = (.ok (), w) := rfl

@[simp] theorem scene_apply (w : Scene σ α) : (scene : SceneM σ α (Scene σ α)) w = (.ok w, w) := rfl

@[simp] theorem change_apply (f : Scene σ α → Scene σ α) (w : Scene σ α) :
    change f w = (.ok (), f w) := rfl

@[simp] theorem abandon_apply (w : Scene σ α) : (abandon : SceneM σ α β) w = (.error (), w) := rfl

end SceneM

open SceneM

theorem leads_pure (b : β) : Leads (pure b : SceneM σ α β) :=
  fun _ _ => ⟨.refl, fun _ _ => rfl⟩

theorem leads_abandon : Leads (abandon : SceneM σ α β) :=
  fun _ _ => ⟨.refl, fun _ _ => rfl⟩

theorem leads_pause : Leads (pause : SceneM σ α Unit) :=
  fun w _ => ⟨.single (.moment w), fun _ _ => rfl⟩

theorem LeadsFrom.bind {γ : Type} {x : SceneM σ α β} {f : β → SceneM σ α γ} {w : Scene σ α} (hw : Attained w)
    (hx : LeadsFrom w x) (hf : ∀ b, Leads (f b)) : LeadsFrom w (x >>= f) := by
  obtain ⟨hcourse, hcalls⟩ := hx
  unfold LeadsFrom
  rw [bind_scene]
  rcases hxw : x w with ⟨(e | b), w'⟩ <;> rw [hxw] at hcourse hcalls
  · exact ⟨hcourse, fun c hc => nomatch hc⟩
  · obtain ⟨hcourse', hcalls'⟩ := hf b w' (hw.course hcourse)
    exact ⟨hcourse.trans hcourse', fun c hc => (hcalls' c hc).trans (hcalls b rfl)⟩

theorem Leads.bind {γ : Type} {x : SceneM σ α β} {f : β → SceneM σ α γ} (hx : Leads x)
    (hf : ∀ b, Leads (f b)) : Leads (x >>= f) :=
  fun w hw => (hx w hw).bind hw hf

/-! ## Small changes -/

theorem charge_nil (calls : List (OpenCall α)) : Scene.charge [] calls = calls := by
  cases calls with
  | nil => rfl
  | cons call calls => rw [Scene.charge, List.append_nil]

/-- A change of the scheduler by which no pin leaves the task lists. -/
theorem become_eq {w : Scene σ α} {s : Scheduler α} (h : ∀ p ∈ pinsOf w.scheduler.handles, p ∈ pinsOf s.handles) :
    w.become s = { w with scheduler := s } := by
  have hnil : leaving w.scheduler s = [] := by
    refine List.filter_eq_nil_iff.mpr fun p hp => ?_
    simpa using h p hp
  unfold Scene.become
  rw [hnil, charge_nil]

@[simp] theorem become_same (w : Scene σ α) (bridge : ValueBridge α) (accepted : Std.TreeMap Nat TaskId)
    (live : Bool) : w.become ⟨bridge, w.scheduler.handles, accepted, live⟩ =
      { w with scheduler := ⟨bridge, w.scheduler.handles, accepted, live⟩ } :=
  become_eq fun _ hp => hp

@[simp] theorem become_push (w : Scene σ α) (bridge : ValueBridge α) (handles : List TaskHandle)
    (accepted : Std.TreeMap Nat TaskId) (live : Bool) :
    w.become ⟨bridge, w.scheduler.handles ++ handles, accepted, live⟩ =
      { w with scheduler := ⟨bridge, w.scheduler.handles ++ handles, accepted, live⟩ } :=
  become_eq fun p hp => by
    show p ∈ (w.scheduler.handles ++ handles).filterMap TaskHandle.pin
    rw [List.filterMap_append]
    exact List.mem_append_left _ hp

theorem release_of_get?_none {b : ValueBridge α} {p : PinHandle} (h : b.get? p = none) : b.release p = b := by
  unfold ValueBridge.release
  rw [List.filter_eq_self.mpr]
  intro slot hslot
  have hne := List.lookup_eq_none_iff.mp h slot hslot
  rw [bne_iff_ne] at hne ⊢
  exact fun heq => hne heq.symm

/-- Whether or not it can be, the pin is not there any more. -/
theorem unpinNow_apply (p : PinHandle) (w : Scene σ α) :
    (unpinNow (α := α) p : SceneM σ α (Except HostError Unit)) w =
      (.ok ((w.scheduler.unpin p).map fun _ => ()), { w with scheduler := w.scheduler.unpinned p }) := by
  unfold unpinNow
  rw [bind_scene]
  dsimp only [get_apply]
  unfold Scheduler.unpin ValueBridge.unpin
  cases hget : w.scheduler.bridge.get? p with
  | none =>
    have hsame : w.scheduler.unpinned p = w.scheduler := by
      unfold unpinned
      rw [release_of_get?_none hget]
    rw [hsame]
    rfl
  | some callable =>
    dsimp only [Except.map]
    rw [bind_scene]
    have hbecome : w.become (w.scheduler.unpinned p) = { w with scheduler := w.scheduler.unpinned p } :=
      become_eq fun _ hp => hp
    exact congrArg (Prod.mk _) hbecome

/-- A task is taken off the list, and its pin is released. -/
theorem retire_apply (script : String) (id : TaskId) (w : Scene σ α) :
    (retire (α := α) script id : SceneM σ α Unit) w = (.ok (), w.become (w.scheduler.drop script id)) := by
  unfold retire
  rw [bind_scene]
  dsimp only [get_apply]
  rw [bind_scene]
  dsimp only [set_apply]
  unfold drop
  cases hpin : (w.scheduler.untrack script id).1.bind TaskHandle.pin with
  | none => rfl
  | some p =>
    dsimp only
    rw [bind_scene, unpinNow_apply]
    dsimp only
    generalize Except.map _ _ = outcome
    cases outcome <;> rfl

/-! ## Calls -/

/-- A call without a clone is abandoned. -/
theorem calling_of_no_clones {purpose : Purpose α} {call : SceneM σ α β}
    {outcome : OpenCall α → β → Scheduler α → Occurrence α} {w : Scene σ α} (h : w.keepers.clones = false) :
    calling purpose call outcome w = (.error (), w) := by
  unfold calling
  rw [bind_scene]
  dsimp only [scene_apply]
  rw [h]
  rfl

/-- A call with a clone, from its beginning to its end. -/
theorem calling_of_clones {purpose : Purpose α} {call : SceneM σ α β}
    {outcome : OpenCall α → β → Scheduler α → Occurrence α} {w : Scene σ α} (h : w.keepers.clones = true) :
    calling purpose call outcome w =
      match call (w.enter purpose) with
      | (.error e, w') => (.error e, w')
      | (.ok b, w') => (.ok b, w'.leave.tell (outcome (w'.innermost purpose) b w'.scheduler)) := by
  unfold calling
  rw [bind_scene]
  dsimp only [scene_apply]
  rw [if_pos h, bind_scene]
  dsimp only [change_apply]
  rw [bind_scene]
  rcases call (w.enter purpose) with ⟨(e | b), w'⟩ <;> rfl

/-! ## Submitting -/

theorem unpin_of_isPinned {s : Scheduler α} {p : PinHandle} (h : s.bridge.isPinned p = true) :
    s.unpin p = .ok (s.unpinned p) := by
  obtain ⟨callable, -, hunpin⟩ := ValueBridge.unpin_of_mem ((ValueBridge.isPinned_iff _ _).mp h)
  rw [Scheduler.unpin, hunpin]
  rfl

/-- A submission is what the runner makes of it, between its beginning and its end. -/
theorem submit_apply (runner : TaskRunner (SceneM σ α) α) (script : String) (callable : α) (lane : Lane)
    (mode : Mode) (w : Scene σ α) (hclones : w.keepers.clones = true) (task : Submission α)
    (htask : w.scheduler.submission script callable mode = task)
    (hheld : ∀ id w', runner.submit task lane mode (w.ask script callable mode) = (.ok id, w') →
      w'.scheduler.bridge.isPinned task.ticket = true) :
    calling (.submit task) (Scheduler.submit runner script callable lane mode)
      (fun _ answer s => .submitted task answer s) w =
    match runner.submit task lane mode (w.ask script callable mode) with
    | (.error e, w') => (.error e, w')
    | (.ok id, w') => (.ok (.ok id), w'.enlist task id) := by
  unfold calling
  rw [bind_scene]
  dsimp only [scene_apply]
  rw [if_pos hclones]
  unfold Scheduler.submit
  simp only [bind_scene, change_apply, get_apply, set_apply]
  -- the call is entered and the callable pinned, which begins the submission
  have hticket : ((w.enter (.submit task)).scheduler.bridge.pin callable).1 = task.ticket := htask ▸ rfl
  have hgiven : (⟨task.ticket, script, if mode.isTracked then none else some callable, mode.isOneShot⟩ :
      Submission α) = task := htask ▸ rfl
  have hask : (w.enter (.submit task)).become { (w.enter (.submit task)).scheduler with
      bridge := ((w.enter (.submit task)).scheduler.bridge.pin callable).2 } = w.ask script callable mode := by
    rw [Scene.ask, htask]
    exact become_eq fun _ hp => hp
  rw [hask, hticket, hgiven]
  rcases hanswer : runner.submit task lane mode (w.ask script callable mode) with ⟨(e | id), w'⟩
  · rfl
  · cases hmode : mode.isTracked with
    | true =>
      have hhandle : handleOf id.raw task = ⟨script, id, some task.ticket⟩ := by
        rw [← hgiven, hmode]
        rfl
      have hcallable : task.callable = none := by
        rw [← hgiven, hmode]
        rfl
      simp only [if_true, bind_scene, modify_apply, become_same, become_push, log_apply, pure_apply]
      simp only [Scene.enlist, enlisted, hcallable, hhandle]
      rfl
    | false =>
      have hhandle : handleOf id.raw task = ⟨script, id, none⟩ := by
        rw [← hgiven, hmode]
        rfl
      have hcallable : task.callable = some callable := by
        rw [← hgiven, hmode]
        rfl
      have hunpin : Scheduler.unpin ⟨w'.scheduler.bridge, w'.scheduler.handles,
          w'.scheduler.accepted.insert task.ticket.raw id, w'.scheduler.live⟩ task.ticket = _ :=
        unpin_of_isPinned (hheld id w' hanswer)
      simp only [Bool.false_eq_true, if_false, bind_scene, modify_apply, become_same, unpinNow_apply, hunpin,
        Except.map, unpinned, become_push, log_apply, pure_apply]
      simp only [Scene.enlist, enlisted, hcallable, hhandle]
      rfl

theorem leads_submit {runner : TaskRunner (SceneM σ α) α}
    (hrunner : ∀ task lane mode, Leads (runner.submit task lane mode)) (script : String) (callable : α)
    (lane : Lane) (mode : Mode) (w : Scene σ α) (hw : Attained w) :
    let task := w.scheduler.submission script callable mode
    LeadsFrom w (calling (.submit task) (Scheduler.submit runner script callable lane mode)
      fun _ answer s => .submitted task answer s) := by
  intro task
  unfold LeadsFrom
  cases hclones : w.keepers.clones with
  | false =>
    have hx : calling (.submit task) (Scheduler.submit runner script callable lane mode)
        (fun _ answer s => .submitted task answer s) w = (.error (), w) := calling_of_no_clones hclones
    rw [hx]
    exact ⟨.refl, fun _ hb => nomatch hb⟩
  | true =>
    -- the scheduler pins the callable, and the runner does what it does before it answers
    have hask : Course w (w.ask script callable mode) := .single (.submit w script callable mode hclones)
    obtain ⟨hcourse, hcalls⟩ := hrunner task lane mode _ (hw.course hask)
    have hx := submit_apply runner script callable lane mode w hclones task rfl fun id w' hanswer => by
      rw [hanswer] at hcourse hcalls
      refine (hw.course (hask.trans hcourse)).lodged.held _ ?_
      unfold Scene.tickets
      rw [hcalls id rfl]
      exact List.mem_cons_self
    rw [hx]
    rcases hanswer : runner.submit task lane mode (w.ask script callable mode) with ⟨(e | id), w'⟩ <;>
      rw [hanswer] at hcourse hcalls
    · exact ⟨hask.trans hcourse, fun _ hb => nomatch hb⟩
    · refine ⟨(hask.trans hcourse).tail (.accept id (hcalls id rfl)), fun _ _ => ?_⟩
      show w'.calls.tail = w.calls
      rw [hcalls id rfl]
      rfl

/-! ## Cancelling -/

/-- A cancel goes as far as the runner goes, and then drops the task. -/
theorem cancel_cases (runner : TaskRunner (SceneM σ α) α) {script : String} {id : TaskId} {w : Scene σ α}
    (hown : w.scheduler.ownedByOther script id = false) :
    (∃ e w', runner.cancel id w = (.error e, w') ∧
      Scheduler.cancel (α := α) runner script id w = (.error e, w')) ∨
    ∃ found answer w', runner.cancel id w = (.ok found, w') ∧
      Scheduler.cancel (α := α) runner script id w = (.ok answer, w'.become (w'.scheduler.drop script id)) := by
  unfold Scheduler.cancel
  rw [bind_scene]
  dsimp only [get_apply]
  rw [hown, if_neg (by simp), bind_scene]
  rcases runner.cancel id w with ⟨(e | found), w'⟩
  · exact .inl ⟨e, w', rfl, rfl⟩
  · refine .inr ⟨found, ?_⟩
    dsimp only
    rw [bind_scene]
    dsimp only [get_apply]
    rw [bind_scene]
    dsimp only [set_apply]
    unfold drop
    cases hpin : (w'.scheduler.untrack script id).1.bind TaskHandle.pin with
    | none => exact ⟨_, w', rfl, by rw [hpin]; rfl⟩
    | some p =>
      dsimp only
      rw [bind_scene, unpinNow_apply]
      exact ⟨_, w', rfl, by rw [hpin]; rfl⟩

theorem get?_releaseAll_of_mem {b : ValueBridge α} {pins : List PinHandle} {p : PinHandle} (h : p ∈ pins) :
    (releaseAll b pins).get? p = none :=
  Option.not_isSome_iff_eq_none.mp fun hlive => (isPinned_releaseAll.mp hlive).1 h

/-- The pins that leave the lists when a task is dropped are released. -/
theorem Lodged.released {w : Scene σ α} (h : Lodged w) (script : String) (id : TaskId) :
    ∀ p ∈ leaving w.scheduler (w.scheduler.drop script id),
      (w.scheduler.drop script id).bridge.get? p = none := fun _ hp =>
  get?_releaseAll_of_mem
    ((leaving_perm (List.nodup_append.mp h.nodup).1 (pinsOf_drop w.scheduler script id)).subset hp)

theorem leaving_self (s : Scheduler α) : leaving s s = [] :=
  List.filter_eq_nil_iff.mpr fun p hp => by simpa using hp

/-- The pins that leave the lists when a task retires are released. -/
theorem Lodged.released_retired {w : Scene σ α} (h : Lodged w) (task : Submission α) :
    ∀ p ∈ leaving w.scheduler (w.scheduler.retired task), (w.scheduler.retired task).bridge.get? p = none := by
  rcases retired_cases w.scheduler task with ⟨id, hretired⟩ | hretired <;> rw [hretired]
  · exact h.released task.script id
  · rw [leaving_self]
    exact fun _ hp => nomatch hp

theorem cancel_course {runner : TaskRunner (SceneM σ α) α} (hrunner : ∀ id, Leads (runner.cancel id))
    (script : String) (id : TaskId) {w : Scene σ α} (hw : Attained w) {calls : List (OpenCall α)}
    (hcalls : w.calls = { purpose := .cancel } :: calls) :
    Course w (Scheduler.cancel (α := α) runner script id w).2 ∧
      ∀ answer, (Scheduler.cancel (α := α) runner script id w).1 = .ok answer →
        ∃ taken, (Scheduler.cancel (α := α) runner script id w).2.calls = { purpose := .cancel, taken } :: calls ∧
          ∀ p ∈ taken, (Scheduler.cancel (α := α) runner script id w).2.scheduler.bridge.get? p = none := by
  cases hown : w.scheduler.ownedByOther script id with
  | true =>
    have hsame : Scheduler.cancel (α := α) runner script id w = (.ok (.ok false), w) := by
      unfold Scheduler.cancel
      rw [bind_scene]
      dsimp only [get_apply]
      rw [hown]
      rfl
    rw [hsame]
    exact ⟨.refl, fun _ _ => ⟨[], hcalls, fun _ hp => nomatch hp⟩⟩
  | false =>
    obtain ⟨hcourse, hkept⟩ := hrunner id w hw
    rcases cancel_cases runner hown with ⟨e, w', hrun, hcancel⟩ | ⟨found, answer, w', hrun, hcancel⟩ <;>
      rw [hrun] at hcourse hkept <;> rw [hcancel]
    · exact ⟨hcourse, fun _ hok => nomatch hok⟩
    · -- the runner has done with its calls, so the cancel is the innermost again
      have hcalls' : w'.calls = { purpose := .cancel } :: calls := (hkept found rfl).trans hcalls
      refine ⟨hcourse.tail (.drop script id hcalls'), fun _ _ => ⟨_, ?_, (hw.course hcourse).lodged.released script id⟩⟩
      unfold Scene.become
      dsimp only
      rw [hcalls', Scene.charge]
      rfl

theorem leads_cancel {runner : TaskRunner (SceneM σ α) α} (hrunner : ∀ id, Leads (runner.cancel id))
    (script : String) (id : TaskId) :
    Leads (calling .cancel (Scheduler.cancel (α := α) runner script id)
      fun call answer _ => .cancelled call.taken answer) := by
  intro w hw
  unfold LeadsFrom
  cases hclones : w.keepers.clones with
  | false =>
    rw [calling_of_no_clones hclones]
    exact ⟨.refl, fun _ hb => nomatch hb⟩
  | true =>
    have henter : Course w (w.enter .cancel) := .single (.cancel w hclones)
    obtain ⟨hcourse, hend⟩ := cancel_course hrunner script id (hw.course henter) rfl
    rw [calling_of_clones hclones]
    rcases hrun : Scheduler.cancel (α := α) runner script id (w.enter .cancel) with ⟨(e | answer), w'⟩ <;>
      rw [hrun] at hcourse hend
    · exact ⟨henter.trans hcourse, fun _ hb => nomatch hb⟩
    · obtain ⟨taken, hcalls, hreleased⟩ := hend answer rfl
      have hinnermost : w'.innermost .cancel = { purpose := .cancel, taken } := by
        rw [Scene.innermost, hcalls]
        rfl
      dsimp only
      rw [hinnermost]
      refine ⟨(henter.trans hcourse).tail (.cancelled answer hcalls hreleased), fun _ _ => ?_⟩
      show w'.calls.tail = w.calls
      rw [hcalls]
      rfl

theorem cancelHandles_course {runner : TaskRunner (SceneM σ α) α} (hrunner : ∀ id, Leads (runner.cancel id))
    (script : String) (handles : List TaskHandle) {taken : List PinHandle} {calls : List (OpenCall α)}
    (hpins : ∀ p ∈ pinsOf handles, p ∈ taken) (summary : CancelSummary) {w : Scene σ α} (hw : Attained w)
    (hcalls : w.calls = { purpose := .cancelAll, taken } :: calls) :
    Course w (cancelHandles (α := α) runner script summary handles w).2 ∧
      ∀ summary', (cancelHandles (α := α) runner script summary handles w).1 = .ok summary' →
        (cancelHandles (α := α) runner script summary handles w).2.calls = w.calls ∧
          ∀ p ∈ pinsOf handles, Spent p (cancelHandles (α := α) runner script summary handles w).2.scheduler := by
  induction handles generalizing summary w with
  | nil => exact ⟨.refl, fun _ _ => ⟨rfl, fun _ hp => nomatch hp⟩⟩
  | cons k handles ih =>
    unfold cancelHandles
    rw [bind_scene]
    obtain ⟨hcourse, hkept⟩ := hrunner k.task w hw
    rcases hrun : runner.cancel k.task w with ⟨(e | found), w'⟩ <;> rw [hrun] at hcourse hkept
    · exact ⟨hcourse, fun _ hok => nomatch hok⟩
    · have hsame := hkept found rfl
      have hcalls' := hsame.trans hcalls
      dsimp only at hsame hcalls' hcourse ⊢
      cases hpin : k.pin with
      | none =>
        simp only [pinsOf, List.filterMap_cons, hpin] at hpins ⊢
        obtain ⟨hrest, hend⟩ := ih hpins { summary with cancelled := summary.cancelled + 1 } (hw.course hcourse) hcalls'
        exact ⟨hcourse.trans hrest, fun _ hok => ⟨(hend _ hok).1.trans hsame, (hend _ hok).2⟩⟩
      | some p =>
        simp only [pinsOf, List.filterMap_cons, hpin, List.forall_mem_cons] at hpins ⊢
        have hunpin := hcourse.tail (.unpin p hcalls' hpins.1)
        have hissued : p.raw ≤ w'.scheduler.bridge.issued := by
          refine (hw.course hcourse).lodged.issued p (List.mem_append_right _ (List.mem_append_left _ ?_))
          unfold Scene.taken
          rw [hcalls']
          exact List.mem_append_left _ hpins.1
        have hspent := spent_unpinned hissued
        rw [bind_scene, unpinNow_apply]
        dsimp only
        -- the rest goes on from here, whether or not the pin could be released
        generalize Except.map _ _ = outcome
        cases outcome with
        | ok _ =>
          obtain ⟨hrest, hend⟩ := ih hpins.2 _ (hw.course hunpin) hcalls'
          exact ⟨hunpin.trans hrest, fun _ hok =>
            ⟨(hend _ hok).1.trans hsame, Spent.course hspent hrest, (hend _ hok).2⟩⟩
        | error e =>
          dsimp only
          rw [bind_scene]
          dsimp only [log_apply]
          obtain ⟨hrest, hend⟩ := ih hpins.2 _ (hw.course hunpin) hcalls'
          exact ⟨hunpin.trans hrest, fun _ hok =>
            ⟨(hend _ hok).1.trans hsame, Spent.course hspent hrest, (hend _ hok).2⟩⟩

theorem cancelAll_apply (runner : TaskRunner (SceneM σ α) α) (script : String) (w : Scene σ α) :
    Scheduler.cancelAll (α := α) runner script w =
      cancelHandles (α := α) runner script {} (w.scheduler.handlesOf script)
        (w.become (w.scheduler.without script)) := by
  have hset : w.become { w.scheduler with handles := w.scheduler.handles.filter fun h => h.script != script } =
      w.become (w.scheduler.without script) := rfl
  unfold Scheduler.cancelAll
  rw [bind_scene]
  dsimp only [get_apply]
  rw [bind_scene]
  dsimp only [set_apply]
  rw [hset, bind_scene]
  rcases cancelHandles (α := α) runner script {} (w.scheduler.handlesOf script)
    (w.become (w.scheduler.without script)) with ⟨(e | summary), w'⟩
  · rfl
  · dsimp only
    split <;> rfl

theorem leads_cancelAll {runner : TaskRunner (SceneM σ α) α} (hrunner : ∀ id, Leads (runner.cancel id))
    (script : String) :
    Leads (calling .cancelAll (Scheduler.cancelAll (α := α) runner script)
      fun call summary _ => .cancelledAll call.taken summary) := by
  intro w hw
  unfold LeadsFrom
  cases hclones : w.keepers.clones with
  | false =>
    rw [calling_of_no_clones hclones]
    exact ⟨.refl, fun _ hb => nomatch hb⟩
  | true =>
    have henter : Course w (w.enter .cancelAll) := .single (.cancelAll w hclones)
    have hremove := henter.tail (.remove script rfl)
    -- the handles are removed first; their pins are in the hands of the call
    have hperm := leaving_perm (List.nodup_append.mp (hw.course henter).lodged.nodup).1
      (pinsOf_without (w.enter .cancelAll).scheduler script)
    obtain ⟨hcourse, hend⟩ := cancelHandles_course hrunner script ((w.enter .cancelAll).scheduler.handlesOf script)
      (fun p hp => hperm.symm.subset hp) {} (hw.course hremove) rfl
    rw [calling_of_clones hclones, cancelAll_apply]
    rcases hrun : cancelHandles (α := α) runner script {} ((w.enter .cancelAll).scheduler.handlesOf script)
      ((w.enter .cancelAll).become ((w.enter .cancelAll).scheduler.without script)) with ⟨(e | summary), w'⟩ <;>
      rw [hrun] at hcourse hend
    · exact ⟨hremove.trans hcourse, fun _ hb => nomatch hb⟩
    · obtain ⟨hcalls, hspent⟩ := hend summary rfl
      dsimp only at hcalls hspent ⊢
      have hinnermost : w'.innermost .cancelAll =
          { purpose := .cancelAll, taken := leaving w.scheduler (w.scheduler.without script) } := by
        rw [Scene.innermost, hcalls]
        rfl
      rw [hinnermost]
      refine ⟨(hremove.trans hcourse).tail (.cancelledAll summary hcalls fun p hp => ?_), fun _ _ => ?_⟩
      · exact (hspent p (hperm.subset hp)).gone
      · show w'.calls.tail = w.calls
        rw [hcalls]
        rfl

/-! ## Invoking -/

theorem retireSubmission_apply (task : Submission α) (w : Scene σ α) :
    (retireSubmission task : SceneM σ α Unit) w =
      (.ok (), match w.scheduler.live, w.scheduler.accepted.get? task.ticket.raw with
        | true, some id => w.become (w.scheduler.drop task.script id)
        | _, _ => w) := by
  unfold retireSubmission
  rw [bind_scene]
  dsimp only [get_apply]
  cases w.scheduler.live with
  | false => rfl
  | true =>
    cases w.scheduler.accepted.get? task.ticket.raw with
    | none => rfl
    | some id => exact retire_apply _ _ _

/-- The end of a firing: a task that fires once retires. -/
theorem retired_apply (task : Submission α) (w : Scene σ α) :
    (if task.callable.isSome || task.oneShot then retireSubmission task else pure () : SceneM σ α Unit) w =
      (.ok (), w.become (w.scheduler.retired task)) := by
  have hsame : w.become w.scheduler = w := become_eq fun _ hp => hp
  unfold retired
  split
  · rw [retireSubmission_apply]
    cases w.scheduler.live with
    | false => exact congrArg (Prod.mk _) hsame.symm
    | true =>
      cases w.scheduler.accepted.get? task.ticket.raw with
      | none => exact congrArg (Prod.mk _) hsame.symm
      | some id => rfl
  · rw [hsame]
    rfl

theorem runCallable_apply (call : α → SceneM σ α (Except GuestError Unit)) (script : String) (callable : α)
    (w : Scene σ α) :
    runCallable call script callable w =
      match call callable w with
      | (.error e, w') => (.error e, w')
      | (.ok _, w') => (.ok (), w') := by
  unfold runCallable
  rw [bind_scene]
  rcases call callable w with ⟨(e | (e | _)), w'⟩ <;> rfl

theorem endIfUnkept_apply (w : Scene σ α) :
    (endIfUnkept (α := α) : SceneM σ α Unit) w = (.ok (), w.settle) := by
  unfold endIfUnkept Scene.settle
  rw [bind_scene]
  dsimp only [getKeepers_apply]
  split
  · rfl
  · exact congrArg (Prod.mk _) (become_same w _ _ _)

/-- A firing whose callable starts. -/
theorem fire_apply (call : α → SceneM σ α (Except GuestError Unit)) {task : Submission α} {w : Scene σ α}
    {callable : α} (hcallable : w.scheduler.carried? task = some callable) :
    fire call task w =
      match call callable w with
      | (.error e, w') => (.error e, w')
      | (.ok _, w') => (.ok (), w'.become (w'.scheduler.retired task)) := by
  unfold fire
  cases hown : task.callable with
  | some own =>
    -- a task that is not tracked has its callable with it
    have hsame : own = callable := by
      rw [carried?, hown] at hcallable
      exact Option.some.inj hcallable
    dsimp only
    rw [bind_scene, runCallable_apply, hsame]
    rcases call callable w with ⟨(e | answer), w'⟩
    · rfl
    · have hend := retired_apply task w'
      rw [hown] at hend
      exact hend
  | none =>
    -- a tracked one is looked up, which it can be as long as the scheduler lives
    have hget : w.scheduler.live = true ∧ w.scheduler.bridge.get? task.ticket = some callable := by
      rw [carried?, hown] at hcallable
      dsimp only at hcallable
      split at hcallable
      · next hlive => exact ⟨hlive, hcallable⟩
      · cases hcallable
    dsimp only
    rw [bind_scene]
    dsimp only [get_apply]
    rw [hget.1, hget.2]
    simp only [Bool.not_true, Bool.false_eq_true, if_false]
    rw [bind_scene, runCallable_apply]
    rcases call callable w with ⟨(e | answer), w'⟩
    · rfl
    · have hend := retired_apply task w'
      rw [hown] at hend
      exact hend

theorem canStart_iff {s : Scheduler α} {task : Submission α} :
    s.canStart task = true ↔ ∃ callable, s.carried? task = some callable := by
  unfold canStart carried?
  cases task.callable with
  | some callable => simp
  | none =>
    cases s.live with
    | false => simp
    | true => simp [ValueBridge.isPinned, Option.isSome_iff_exists]

/-- A firing whose callable does not start. -/
theorem fire_of_not_canStart (call : α → SceneM σ α (Except GuestError Unit)) {task : Submission α}
    {w : Scene σ α} (hcan : w.scheduler.canStart task = false) : fire call task w = (.ok (), w) := by
  rw [canStart, Bool.or_eq_false_iff] at hcan
  have hown : task.callable = none := Option.not_isSome_iff_eq_none.mp (by simp [hcan.1])
  unfold fire
  rw [hown]
  dsimp only
  rw [bind_scene]
  dsimp only [get_apply]
  cases hlive : w.scheduler.live with
  | false => rfl
  | true =>
    have hget : w.scheduler.bridge.get? task.ticket = none := by
      have hpinned := hcan.2
      rw [hlive, Bool.true_and] at hpinned
      exact Option.not_isSome_iff_eq_none.mp (ne_true_of_eq_false hpinned)
    rw [hget]
    rfl

theorem invoke_of_not_canStart (call : α → SceneM σ α (Except GuestError Unit)) {task : Submission α}
    {w : Scene σ α} (hkept : Kept w) (hcan : w.scheduler.canStart task = false) :
    Scheduler.invoke call task w = (.ok (), w) := by
  unfold Scheduler.invoke
  rw [bind_scene]
  dsimp only [get_apply]
  split
  · next hlive =>
    have hheld : ({ w with keepers := w.keepers.hold } : Scene σ α).scheduler.canStart task = false := hcan
    have hany : w.keepers.any = true := hkept (Bool.and_eq_true_iff.mp hlive).2
    rw [bind_scene]
    dsimp only [modifyKeepers_apply]
    rw [bind_scene, fire_of_not_canStart _ hheld]
    dsimp only
    rw [bind_scene]
    dsimp only [modifyKeepers_apply]
    rw [endIfUnkept_apply]
    -- the hold is given back as it was taken
    exact congrArg (Prod.mk _) (if_pos hany)
  · exact fire_of_not_canStart _ hcan

/-- The hold that the firing of a task takes on the scheduler. -/
def Scene.hold (w : Scene σ α) (task : Submission α) : Scene σ α :=
  { w with keepers := if task.callable.isNone then w.keepers.hold else w.keepers }

theorem invoke_apply (call : α → SceneM σ α (Except GuestError Unit)) {task : Submission α} {w : Scene σ α}
    {callable : α} (hcallable : w.scheduler.carried? task = some callable) :
    Scheduler.invoke call task w =
      match call callable (w.hold task) with
      | (.error e, w') => (.error e, w')
      | (.ok _, w') => (.ok (), (w'.become (w'.scheduler.retired task)).letGo task) := by
  have hheld : (w.hold task).scheduler.carried? task = some callable := hcallable
  unfold Scheduler.invoke
  rw [bind_scene]
  dsimp only [get_apply]
  cases hown : task.callable with
  | some own =>
    -- only the firing of a tracked task keeps the scheduler
    have hsame : w.hold task = w := by
      unfold Scene.hold
      rw [hown]
      rfl
    have hletGo : ∀ w' : Scene σ α, w'.letGo task = w' := fun w' => if_neg (by simp [hown])
    simp only [Option.isNone_some, Bool.false_and, Bool.false_eq_true, if_false, hsame, hletGo]
    exact fire_apply call hcallable
  | none =>
    have hlive : w.scheduler.live = true := by
      rw [carried?, hown] at hcallable
      dsimp only at hcallable
      split at hcallable
      · assumption
      · cases hcallable
    have hletGo : ∀ w' : Scene σ α, w'.letGo task = { w' with keepers := w'.keepers.letGo }.settle :=
      fun w' => if_pos (by simp [hown])
    have hhold : ({ w with keepers := w.keepers.hold } : Scene σ α) = w.hold task := by
      unfold Scene.hold
      rw [hown]
      rfl
    simp only [Option.isNone_none, hlive, Bool.and_self, if_true]
    rw [bind_scene]
    dsimp only [modifyKeepers_apply]
    rw [hhold, bind_scene, fire_apply call hheld]
    rcases call callable (w.hold task) with ⟨(e | answer), w'⟩
    · rfl
    · dsimp only
      rw [bind_scene]
      dsimp only [modifyKeepers_apply]
      rw [endIfUnkept_apply, hletGo]

theorem leads_invoking {call : α → SceneM σ α (Except GuestError Unit)} (hcall : ∀ callable, Leads (call callable))
    (task : Submission α) : Leads (invoking call task) := by
  intro w hw
  unfold LeadsFrom invoking
  rw [bind_scene]
  dsimp only [change_apply]
  rw [bind_scene]
  cases hcan : w.scheduler.canStart task with
  | false =>
    rw [invoke_of_not_canStart (w := (w.tell (.invoked task w.scheduler)).enter (.invoke task)) _ hw.kept hcan]
    exact ⟨.single (.pass w task hcan), fun _ _ => rfl⟩
  | true =>
    obtain ⟨callable, hcallable⟩ := canStart_iff.mp hcan
    have hstart : Course w (w.start task) := .single (.start w task hcan)
    obtain ⟨hcourse, hkept⟩ := hcall callable _ (hw.course hstart)
    rw [invoke_apply (w := (w.tell (.invoked task w.scheduler)).enter (.invoke task)) _ hcallable, bind_scene]
    dsimp only [change_apply]
    -- the invocation is noted, entered and begun before the callable is called
    have hbegun : ((((w.tell (.invoked task w.scheduler)).enter (.invoke task)).hold task).started.tell
        (.began task)) = w.start task := by
      simp [Scene.tell, Scene.enter, Scene.hold, Scene.started, Scene.start]
    rw [hbegun]
    rcases hrun : call callable (w.start task) with ⟨(e | answer), w'⟩ <;> rw [hrun] at hcourse hkept
    · exact ⟨hstart.trans hcourse, fun _ hb => by cases hb⟩
    · have hcalls : w'.calls = { purpose := .invoke task, ran := true } :: w.calls := hkept answer rfl
      have hinnermost : ((w'.become (w'.scheduler.retired task)).letGo task).innermost (.invoke task) =
          { purpose := .invoke task, taken := leaving w'.scheduler (w'.scheduler.retired task), ran := true } := by
        rw [Scene.innermost, Scene.calls_letGo]
        unfold Scene.become
        dsimp only
        rw [hcalls]
        rfl
      have hconclude := hstart.trans hcourse |>.tail (.conclude hcalls)
      dsimp only
      rw [hinnermost]
      unfold Scene.conclude at hconclude
      dsimp only at hconclude
      rw [Scene.leaving_letGo] at hconclude
      refine ⟨hconclude, fun _ _ => ?_⟩
      show (Scene.letGo _ task).calls.tail = w.calls
      rw [Scene.calls_letGo]
      show (Scene.charge _ w'.calls).tail = w.calls
      rw [hcalls]
      rfl

/-! ## Runs -/

theorem leads_dropping : Leads (dropping : SceneM σ α Unit) := by
  intro w hw
  unfold LeadsFrom dropping
  rw [bind_scene]
  dsimp only [scene_apply]
  cases hfree : w.borrowed with
  | true => exact ⟨.refl, fun _ _ => rfl⟩
  | false =>
    rw [if_neg (by simp), bind_scene]
    dsimp only [change_apply]
    unfold dropClones
    rw [bind_scene]
    dsimp only [modifyKeepers_apply]
    rw [endIfUnkept_apply]
    exact ⟨.single (.abandon w hfree), fun _ _ => Scene.calls_settle⟩

/-- Code follows a course, if the runner and the callables do. -/
theorem leads_exec {runner : TaskRunner (SceneM σ α) α}
    (hsubmit : ∀ task lane mode, Leads (runner.submit task lane mode)) (hcancel : ∀ id, Leads (runner.cancel id))
    {call : α → SceneM σ α (Except GuestError Unit)} (hcall : ∀ callable, Leads (call callable))
    (code : Dealing σ α β) : Leads (code.exec runner call) := by
  induction code with
  | done b => exact leads_pause.bind fun _ => leads_pure b
  | own f next ih =>
    refine leads_pause.bind fun _ => ?_
    refine Leads.bind (fun w _ => ⟨.single (.own w f), fun _ _ => rfl⟩) fun _ => ?_
    exact Leads.bind (fun w _ => ⟨.refl, fun _ _ => rfl⟩) fun w => ih w.own
  | look next ih =>
    refine leads_pause.bind fun _ => ?_
    exact Leads.bind (fun w _ => ⟨.refl, fun _ _ => rfl⟩) fun w => ih w.scheduler
  | submit script callable lane mode next ih =>
    refine leads_pause.bind fun _ w hw => ?_
    -- the task is known only now, from the scheduler as it is
    have hsubmitted := (leads_submit hsubmit script callable lane mode w hw).bind hw ih
    exact hsubmitted
  | cancel script id next ih =>
    refine leads_pause.bind fun _ => ?_
    exact (leads_cancel hcancel script id).bind ih
  | cancelAll script next ih =>
    refine leads_pause.bind fun _ => ?_
    exact (leads_cancelAll hcancel script).bind ih
  | invoke task next ih =>
    refine leads_pause.bind fun _ => ?_
    exact (leads_invoking hcall task).bind fun _ => ih
  | drop next ih =>
    refine leads_pause.bind fun _ => ?_
    exact leads_dropping.bind fun _ => ih

/-- At every depth of nesting the runner and the callables follow a course. -/
theorem leads_company (m : Manner σ α) (depth : Nat) :
    (∀ task lane mode, Leads ((company m depth).runner.submit task lane mode)) ∧
      (∀ id, Leads ((company m depth).runner.cancel id)) ∧ ∀ callable, Leads ((company m depth).call callable) := by
  induction depth with
  | zero => exact ⟨fun _ _ _ => leads_abandon, fun _ => leads_abandon, fun _ => leads_abandon⟩
  | succ depth ih =>
    obtain ⟨hsubmit, hcancel, hcall⟩ := ih
    exact ⟨fun _ _ _ => leads_exec hsubmit hcancel hcall _, fun _ => leads_exec hsubmit hcancel hcall _,
      fun _ => leads_exec hsubmit hcancel hcall _⟩

/-- Every run comes to an attained scene. -/
theorem Dealing.run_attained (m : Manner σ α) (depth : Nat) (code : Dealing σ α β) (own : σ) :
    Attained (code.run m depth own).2 := by
  obtain ⟨hsubmit, hcancel, hcall⟩ := leads_company m depth
  exact ⟨own, (leads_exec hsubmit hcancel hcall code { own } ⟨own, .refl⟩).1⟩

end Scheduler
end ScriptHost
