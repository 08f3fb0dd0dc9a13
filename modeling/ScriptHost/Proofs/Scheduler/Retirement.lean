import ScriptHost.Proofs.Histories
import ScriptHost.Proofs.Scheduler.Leading

/-!
# Retirement

A task that fires once leaves the task lists when it has fired, and its pin is released, if it fires after its
submission has returned. While the submission is in progress the number of the task is not known yet, and the task
is not listed: a firing then retires nothing.

* `enrolments`: the submissions that have returned, with the numbers that the tasks got.
* `Enrolled`: the handles and the known numbers are those of enrolments, and no two submissions have one ticket.
* `Fired`: a task has fired since its submission returned.
-/

namespace ScriptHost
namespace Scheduler

variable {σ α β : Type}

/-! ## Enrolments -/

/-- The task that a submission has returned for, and its number. -/
def Occurrence.enrolment? : Occurrence α → Option (Submission α × TaskId)
  | .submitted task (.ok id) _ => some (task, id)
  | _ => none

/-- The tasks that submissions have returned for, and their numbers. -/
def enrolments (story : List (Occurrence α)) : List (Submission α × TaskId) :=
  story.filterMap Occurrence.enrolment?

/-- How often a number was given to a task of a script. -/
def timesGiven (story : List (Occurrence α)) (script : String) (id : TaskId) : Nat :=
  (enrolments story).countP fun e => e.1.script == script && e.2 == id

/-- The handle of an enrolment. -/
def enrolledHandle (e : Submission α × TaskId) : TaskHandle := handleOf e.2.raw e.1

/-- The tickets of the submissions that have returned, and of those in progress. -/
def Scene.drawn (w : Scene σ α) : List PinHandle :=
  (enrolments w.story).map (fun e => e.1.ticket) ++ w.tickets

/-- The lists and the known numbers are as the story says. -/
structure Enrolled (w : Scene σ α) : Prop where
  handles : w.scheduler.handles.Sublist ((enrolments w.story).map enrolledHandle)
  numbers : ∀ e ∈ enrolments w.story, w.scheduler.accepted.get? e.1.ticket.raw = some e.2
  nodup : w.drawn.Nodup
  issued : ∀ p ∈ w.drawn, p.raw ≤ w.scheduler.bridge.issued

theorem enrolled_new (own : σ) : Enrolled ({ own } : Scene σ α) where
  handles := .slnil
  numbers _ h := nomatch h
  nodup := .nil
  issued _ h := nomatch h

theorem enrolments_append (story story' : List (Occurrence α)) :
    enrolments (story ++ story') = enrolments story ++ enrolments story' := List.filterMap_append

/-- A step that enrols nobody leaves the numbers as they are, and adds nothing to the lists. A ticket that it draws is
a new one. -/
structure Plain (w w' : Scene σ α) : Prop where
  enrolments : enrolments w'.story = enrolments w.story
  handles : w'.scheduler.handles.Sublist w.scheduler.handles
  accepted : w'.scheduler.accepted = w.scheduler.accepted
  tickets : w'.tickets.Sublist w.tickets ∨
    ∃ p : PinHandle, w'.tickets = p :: w.tickets ∧ w.scheduler.bridge.issued < p.raw ∧ p.raw ≤ w'.scheduler.bridge.issued

theorem Step.issued_le {w w' : Scene σ α} (hstep : Step w w') :
    w.scheduler.bridge.issued ≤ w'.scheduler.bridge.issued := by
  rcases hstep.bridge with ⟨callable, h⟩ | ⟨pins, h⟩ <;> rw [h]
  · exact Nat.le_succ _
  · exact Nat.le_of_eq (issued_releaseAll _ _).symm

theorem tickets_tail {w w' : Scene σ α} (h : w'.calls = w.calls.tail) : w'.tickets.Sublist w.tickets := by
  unfold Scene.tickets
  rw [h]
  exact (List.tail_sublist _).filterMap _

theorem handles_drop (s : Scheduler α) (script : String) (id : TaskId) :
    (s.drop script id).handles.Sublist s.handles := List.eraseP_sublist

theorem plain_conclude (w : Scene σ α) (task : Submission α) : Plain w (w.conclude task) where
  enrolments := by
    rw [Scene.story_conclude, enrolments_append]
    exact List.append_nil _
  handles := by
    rw [Scene.handles_conclude]
    rcases retired_cases w.scheduler task with ⟨id, h⟩ | h <;> rw [h]
    exact handles_drop _ _ _
  accepted := by
    rw [Scene.accepted_conclude]
    rcases retired_cases w.scheduler task with ⟨id, h⟩ | h <;> rw [h]
    rfl
  tickets := .inl (tickets_tail Scene.calls_conclude)

theorem plain_abandoned (w : Scene σ α) : Plain w w.abandoned where
  enrolments := by
    show enrolments (Scene.settle _).story = _
    rw [Scene.story_settle]
    exact (enrolments_append _ _).trans (List.append_nil _)
  handles := by
    show (Scene.settle _).scheduler.handles.Sublist _
    rw [Scene.handles_settle]
    exact .refl _
  accepted := Scene.accepted_settle
  tickets := by
    refine .inl ?_
    show ((Scene.settle _).calls.filterMap _).Sublist _
    rw [Scene.calls_settle]
    exact .refl _

/-- A submission returns, or the step enrols nobody. -/
theorem Step.enrols {w w' : Scene σ α} (hstep : Step w w') :
    (∃ task id calls, w.calls = { purpose := .submit task } :: calls ∧ w' = w.enlist task id) ∨ Plain w w' := by
  have hnone : ∀ e : Occurrence α, e.enrolment? = none → enrolments (w.story ++ [e]) = enrolments w.story :=
    fun e he => by
      rw [enrolments_append, show enrolments [e] = [] from List.filterMap_cons_none he, List.append_nil]
  cases hstep with
  | accept id hcalls => exact .inl ⟨_, id, _, hcalls, rfl⟩
  | moment => exact .inr ⟨hnone _ rfl, .refl _, rfl, .inl (.refl _)⟩
  | own | cancel | cancelAll | unpin => exact .inr ⟨rfl, .refl _, rfl, .inl (.refl _)⟩
  | submit script callable mode _ =>
    exact .inr ⟨rfl, .refl _, rfl, .inr ⟨⟨w.scheduler.bridge.issued + 1⟩, rfl, Nat.lt_succ_self _, Nat.le_refl _⟩⟩
  | drop script id _ =>
    refine .inr ⟨rfl, handles_drop _ _ _, rfl, .inl ?_⟩
    rw [tickets_become]
  | remove script _ =>
    refine .inr ⟨rfl, List.filter_sublist, rfl, .inl ?_⟩
    rw [tickets_become]
  | cancelled | cancelledAll => exact .inr ⟨hnone _ rfl, .refl _, rfl, .inl (tickets_tail rfl)⟩
  | pass task _ =>
    refine .inr ⟨?_, .refl _, rfl, .inl (.refl _)⟩
    show enrolments ((w.story ++ [_]) ++ [_]) = _
    rw [List.append_assoc, enrolments_append]
    exact List.append_nil _
  | start task _ =>
    refine .inr ⟨?_, .refl _, rfl, .inl (.refl _)⟩
    show enrolments (w.story ++ [_, _]) = _
    rw [enrolments_append]
    exact List.append_nil _
  | conclude _ => exact .inr (plain_conclude w _)
  | abandon _ => exact .inr (plain_abandoned w)

theorem Enrolled.plain {w w' : Scene σ α} (h : Enrolled w) (hstep : Step w w') (hplain : Plain w w') :
    Enrolled w' where
  handles := by
    rw [hplain.enrolments]
    exact hplain.handles.trans h.handles
  numbers := by
    rw [hplain.enrolments, hplain.accepted]
    exact h.numbers
  nodup := by
    unfold Scene.drawn
    rw [hplain.enrolments]
    rcases hplain.tickets with hsub | ⟨p, htickets, hnew, -⟩
    · exact h.nodup.sublist (hsub.append_left _)
    · rw [htickets]
      refine List.perm_middle.nodup_iff.mpr (List.nodup_cons.mpr ⟨fun hp => ?_, h.nodup⟩)
      have hle := h.issued p hp
      omega
  issued p hp := by
    have hle := hstep.issued_le
    unfold Scene.drawn at hp
    rw [hplain.enrolments] at hp
    rcases List.mem_append.mp hp with hp | hp
    · exact Nat.le_trans (h.issued p (List.mem_append_left _ hp)) hle
    · rcases hplain.tickets with hsub | ⟨q, htickets, -, hq⟩
      · exact Nat.le_trans (h.issued p (List.mem_append_right _ (hsub.subset hp))) hle
      · rw [htickets] at hp
        rcases List.mem_cons.mp hp with rfl | hp
        · exact hq
        · exact Nat.le_trans (h.issued p (List.mem_append_right _ hp)) hle

theorem enrolments_enlist (w : Scene σ α) (task : Submission α) (id : TaskId) :
    enrolments (w.enlist task id).story = enrolments w.story ++ [(task, id)] :=
  enrolments_append _ _

theorem handles_enlist (w : Scene σ α) (task : Submission α) (id : TaskId) :
    (w.enlist task id).scheduler.handles = w.scheduler.handles ++ [enrolledHandle (task, id)] := rfl

theorem accepted_enlist (w : Scene σ α) (task : Submission α) (id : TaskId) :
    (w.enlist task id).scheduler.accepted = w.scheduler.accepted.insert task.ticket.raw id := by
  show (w.scheduler.enlisted task id).accepted = _
  unfold enlisted
  dsimp only
  split <;> rfl

theorem Enrolled.enlist {w : Scene σ α} (h : Enrolled w) {task : Submission α} {calls : List (OpenCall α)}
    (hcalls : w.calls = { purpose := .submit task } :: calls) (id : TaskId) : Enrolled (w.enlist task id) := by
  have htickets : w.tickets = task.ticket :: (w.enlist task id).tickets := by
    show w.calls.filterMap _ = _ :: w.calls.tail.filterMap _
    rw [hcalls]
    rfl
  -- the ticket was drawn when the submission began, and stays drawn
  have hdrawn : (w.enlist task id).drawn = w.drawn := by
    unfold Scene.drawn
    rw [enrolments_enlist, List.map_append, htickets, List.append_assoc]
    rfl
  refine ⟨?_, fun e he => ?_, hdrawn ▸ h.nodup, fun p hp => ?_⟩
  · rw [handles_enlist, enrolments_enlist, List.map_append]
    exact h.handles.append (.refl _)
  · rw [enrolments_enlist] at he
    rw [accepted_enlist, Std.TreeMap.get?_eq_getElem?, Std.TreeMap.getElem?_insert]
    rcases List.mem_append.mp he with he | he
    · have hne : task.ticket.raw ≠ e.1.ticket.raw := fun heq => by
        have hnodup := List.nodup_append.mp h.nodup
        refine hnodup.2.2 e.1.ticket (List.mem_map_of_mem he) task.ticket ?_ (congrArg PinHandle.mk heq.symm)
        rw [htickets]
        exact List.mem_cons_self
      rw [if_neg (fun heq => hne (Std.LawfulEqCmp.eq_of_compare heq)), ← Std.TreeMap.get?_eq_getElem?]
      exact h.numbers e he
    · rw [List.mem_singleton.mp he, if_pos (by simp)]
  · rw [hdrawn] at hp
    exact Nat.le_trans (h.issued p hp) (Step.accept id hcalls).issued_le

theorem Step.enrolled {w w' : Scene σ α} (hstep : Step w w') (h : Enrolled w) : Enrolled w' := by
  rcases hstep.enrols with ⟨task, id, calls, hcalls, rfl⟩ | hplain
  · exact h.enlist hcalls id
  · exact h.plain hstep hplain

theorem Attained.enrolled {w : Scene σ α} (h : Attained w) : Enrolled w :=
  h.invariant Enrolled enrolled_new fun _ _ _ hstep => hstep.enrolled

/-! ## Firing after the submission -/

/-- A task got a number when its submission returned, and has fired since. -/
def Fired (task : Submission α) (id : TaskId) (story : List (Occurrence α)) : Prop :=
  ∃ before s after, story = before ++ .submitted task (.ok id) s :: after ∧
    ∃ s' taken, .returned task true s' taken ∈ after

theorem Fired.mem_enrolments {task : Submission α} {id : TaskId} {story : List (Occurrence α)}
    (h : Fired task id story) : (task, id) ∈ enrolments story := by
  obtain ⟨before, s, after, rfl, -⟩ := h
  rw [enrolments_append]
  exact List.mem_append_right _ List.mem_cons_self

/-- A task has fired, and has just done so or had before. -/
theorem Fired.snoc {task : Submission α} {id : TaskId} {story : List (Occurrence α)} {e : Occurrence α}
    (h : Fired task id (story ++ [e])) : Fired task id story ∨ ∃ s taken, e = .returned task true s taken := by
  obtain ⟨before, s, after, hstory, s', taken, hmem⟩ := h
  rcases append_singleton_split hstory with ⟨rfl, -, -⟩ | ⟨after', rfl, hbefore⟩
  · cases hmem
  · rcases List.mem_append.mp hmem with hmem | hmem
    · exact .inl ⟨before, s, after', hbefore, s', taken, hmem⟩
    · exact .inr ⟨s', taken, (List.mem_singleton.mp hmem).symm⟩

/-- A firing is over, or no task has fired by the step. -/
theorem Step.concludes {w w' : Scene σ α} (hstep : Step w w') :
    (∃ task calls, w.calls = { purpose := .invoke task, ran := true } :: calls ∧ w' = w.conclude task) ∨
      ∀ task id, Fired task id w'.story → Fired task id w.story := by
  have hother : ∀ story e task id, (∀ s taken, e ≠ .returned task true s taken) →
      Fired (α := α) task id (story ++ [e]) → Fired task id story :=
    fun story e task id hne h => h.snoc.resolve_right fun ⟨s, taken, heq⟩ => hne s taken heq
  cases hstep with
  | own | submit | cancel | drop | cancelAll | remove | unpin => exact .inr fun _ _ h => h
  | moment | accept | cancelled | cancelledAll => exact .inr fun task id => hother _ _ task id (by simp)
  | pass task' _ =>
    exact .inr fun task id h => hother _ _ task id (by simp) (hother _ _ task id (by simp) h)
  | start task' _ =>
    refine .inr fun task id h => hother _ (.invoked task' w.scheduler) task id (by simp)
      (hother _ (.began task') task id (by simp) ?_)
    rwa [List.append_assoc]
  | conclude hcalls => exact .inl ⟨_, _, hcalls, rfl⟩
  | abandon _ =>
    refine .inr fun task id h => hother _ .dropped task id (by simp) ?_
    have hstory : w.abandoned.story = w.story ++ [.dropped] := Scene.story_settle
    exact hstory ▸ h

/-! ## Handles of tasks that have fired -/

theorem isFor_enrolledHandle (e : Submission α × TaskId) (script : String) (id : TaskId) :
    (enrolledHandle e).isFor script id = (e.1.script == script && e.2 == id) := rfl

/-- A script has no more handles with a number than tasks that got it. -/
theorem Enrolled.countP_le {w : Scene σ α} (h : Enrolled w) (script : String) (id : TaskId) :
    w.scheduler.handles.countP (TaskHandle.isFor script id) ≤ timesGiven w.story script id := by
  refine Nat.le_trans h.handles.countP_le ?_
  rw [List.countP_map]
  exact Nat.le_refl _

theorem not_mem_eraseP {τ : Type} {p : τ → Bool} {l : List τ} (h : l.countP p ≤ 1) :
    ∀ a ∈ l.eraseP p, p a = false := by
  cases hfind : l.find? p with
  | none =>
    intro a ha
    have hnone := List.find?_eq_none.mp hfind a (List.mem_of_mem_eraseP ha)
    exact Bool.eq_false_iff.mpr hnone
  | some b =>
    have hcount := (perm_cons_eraseP hfind).countP_eq p
    rw [List.countP_cons_of_pos (List.find?_some hfind)] at hcount
    have hzero : (l.eraseP p).countP p = 0 := by omega
    exact fun a ha => Bool.eq_false_iff.mpr (List.countP_eq_zero.mp hzero a ha)

/-- A task that fires once and has fired is not listed, as long as its number is given to no other task of its
script. -/
def Retires (w : Scene σ α) : Prop :=
  ∀ task id, (task.callable.isSome || task.oneShot) = true → Fired task id w.story →
    timesGiven w.story task.script id ≤ 1 → w.scheduler.live = true →
      ∀ h ∈ w.scheduler.handles, h.isFor task.script id = false

theorem Fired.given {task : Submission α} {id : TaskId} {story : List (Occurrence α)} (h : Fired task id story) :
    1 ≤ timesGiven story task.script id :=
  List.countP_pos_iff.mpr ⟨_, h.mem_enrolments, by simp⟩

theorem timesGiven_congr {story story' : List (Occurrence α)} (h : enrolments story' = enrolments story)
    (script : String) (id : TaskId) : timesGiven story' script id = timesGiven story script id := by
  unfold timesGiven
  rw [h]

theorem Retires.enlist {w : Scene σ α} (h : Retires w) {task : Submission α} {calls : List (OpenCall α)}
    (hcalls : w.calls = { purpose := .submit task } :: calls) (id : TaskId)
    (hfired : ∀ task' id', Fired task' id' (w.enlist task id).story → Fired task' id' w.story) :
    Retires (w.enlist task id) := by
  intro task' id' honce hfired' hgiven hlive k hk
  have hbefore := hfired task' id' hfired'
  have hlive' := (Step.accept id hcalls).live hlive
  unfold timesGiven at hgiven
  rw [enrolments_enlist, List.countP_append, List.countP_singleton] at hgiven
  have hone := hbefore.given
  unfold timesGiven at hone
  rw [handles_enlist] at hk
  rcases List.mem_append.mp hk with hk | hk
  · exact h task' id' honce hbefore (by unfold timesGiven; omega) hlive' k hk
  · -- the number was given before, so it is not given again
    rw [List.mem_singleton.mp hk, isFor_enrolledHandle]
    by_contra hsame
    rw [Bool.not_eq_false] at hsame
    rw [if_pos hsame] at hgiven
    omega

theorem Retires.plain {w w' : Scene σ α} (h : Retires w) (hstep : Step w w') (hplain : Plain w w')
    (hfired : ∀ task id, Fired task id w'.story → Fired task id w.story) : Retires w' := by
  intro task id honce hfired' hgiven hlive k hk
  have hlive' := hstep.live hlive
  rw [timesGiven_congr hplain.enrolments] at hgiven
  exact h task id honce (hfired task id hfired') hgiven hlive' k (hplain.handles.subset hk)

/-- The firing that is over retires its task: the number is known, and no other handle has it. -/
theorem Retires.conclude {w : Scene σ α} (h : Retires w) (henrolled : Enrolled w) {task : Submission α}
    {calls : List (OpenCall α)} (hcalls : w.calls = { purpose := .invoke task, ran := true } :: calls) :
    Retires (w.conclude task) := by
  intro task' id honce hfired hgiven hlive k hk
  have hplain := plain_conclude w task
  have hlive' := (Step.conclude hcalls).live hlive
  have henrolls := hfired.mem_enrolments
  rw [hplain.enrolments] at henrolls
  rw [timesGiven_congr hplain.enrolments] at hgiven
  rw [Scene.story_conclude] at hfired
  rcases hfired.snoc with hbefore | ⟨s, taken, heq⟩
  · exact h task' id honce hbefore hgiven hlive' k (hplain.handles.subset hk)
  · obtain ⟨rfl, -⟩ := Occurrence.returned.inj heq
    have hretired : w.scheduler.retired task = w.scheduler.drop task.script id := by
      have hnumber := henrolled.numbers _ henrolls
      dsimp only at hnumber
      unfold retired
      rw [if_pos honce, hlive', hnumber]
    rw [Scene.handles_conclude, hretired] at hk
    exact not_mem_eraseP (Nat.le_trans (henrolled.countP_le _ _) hgiven) k hk

theorem Step.retires {w w' : Scene σ α} (hstep : Step w w') (henrolled : Enrolled w) (h : Retires w) :
    Retires w' := by
  rcases hstep.concludes with ⟨task, calls, hcalls, rfl⟩ | hfired
  · exact h.conclude henrolled hcalls
  · rcases hstep.enrols with ⟨task, id, calls, hcalls, rfl⟩ | hplain
    · exact h.enlist hcalls id hfired
    · exact h.plain hstep hplain hfired

theorem Attained.retires {w : Scene σ α} (h : Attained w) : Retires w := by
  refine h.invariant Retires (fun own task id _ hfired => ?_) fun _ _ hw hstep => hstep.retires hw.enrolled
  cases hfired.mem_enrolments

/-! ## Pins of tasks that have fired -/

/-- Enrolments with one ticket are one. -/
theorem Enrolled.eq_of_ticket {w : Scene σ α} (h : Enrolled w) {e e' : Submission α × TaskId}
    (he : e ∈ enrolments w.story) (he' : e' ∈ enrolments w.story) (hticket : e.1.ticket = e'.1.ticket) : e = e' :=
  List.inj_on_of_nodup_map (List.nodup_append.mp h.nodup).1 he he' hticket

/-- The pin of a task that is enrolled and not listed is released, or was taken by a call in progress. -/
theorem Enrolled.pin_taken {w : Scene σ α} (h : Enrolled w) (hlodged : Lodged w) {task : Submission α} {id : TaskId}
    (henrolls : (task, id) ∈ enrolments w.story)
    (hnone : ∀ k ∈ w.scheduler.handles, k.isFor task.script id = false)
    (hpinned : w.scheduler.bridge.isPinned task.ticket = true) : task.ticket ∈ w.taken := by
  rcases List.mem_append.mp (hlodged.place _ hpinned) with hlisted | hrest
  · -- the handle with the pin would be that of the task
    obtain ⟨k, hk, hpin⟩ := mem_pinsOf.mp hlisted
    obtain ⟨e, he, rfl⟩ := List.mem_map.mp (h.handles.subset hk)
    have hticket : e.1.ticket = task.ticket := by
      unfold enrolledHandle handleOf at hpin
      dsimp only at hpin
      split at hpin
      · cases hpin
      · exact Option.some.inj hpin
    rw [h.eq_of_ticket he henrolls hticket] at hk
    have hfor := hnone _ hk
    rw [isFor_enrolledHandle] at hfor
    simp at hfor
  · rcases List.mem_append.mp hrest with htaken | hopen
    · exact htaken
    · exact absurd rfl ((List.nodup_append.mp h.nodup).2.2 _ (List.mem_map_of_mem henrolls) _ hopen)

/-! ## Every run -/

/-- A submission that returns is answered with a number, and has listed its task. -/
theorem Step.submits {w w' : Scene σ α} (hstep : Step w w') {task : Submission α}
    {answer : Except HostError TaskId} {s : Scheduler α} (h : .submitted task answer s ∈ w'.story) :
    .submitted task answer s ∈ w.story ∨ ∃ id, answer = .ok id ∧ enrolledHandle (task, id) ∈ s.handles := by
  have hother : ∀ e, e ≠ .submitted task answer s → .submitted task answer s ∈ w.story ++ [e] →
      .submitted task answer s ∈ w.story := fun e hne hmem =>
    (List.mem_append.mp hmem).resolve_right fun hlast => hne (List.mem_singleton.mp hlast).symm
  cases hstep with
  | own | submit | cancel | drop | cancelAll | remove | unpin => exact .inl h
  | moment | cancelled | cancelledAll => exact .inl (hother _ (by simp) h)
  | accept id _ =>
    rcases List.mem_append.mp h with hmem | hlast
    · exact .inl hmem
    · obtain ⟨rfl, rfl, rfl⟩ := Occurrence.submitted.inj (List.mem_singleton.mp hlast)
      exact .inr ⟨id, rfl, List.mem_append_right _ (List.mem_singleton.mpr rfl)⟩
  | pass | start => exact .inl (by simpa [Scene.pass, Scene.start, Scene.tell] using h)
  | conclude _ => exact .inl (hother _ (by simp) (Scene.story_conclude ▸ h))
  | abandon _ =>
    have hstory : w.abandoned.story = w.story ++ [.dropped] := Scene.story_settle
    exact .inl (hother _ (by simp) (hstory ▸ h))

theorem Attained.lists {w : Scene σ α} (h : Attained w) : ∀ task answer s, .submitted task answer s ∈ w.story →
    ∃ id, answer = .ok id ∧ enrolledHandle (task, id) ∈ s.handles :=
  h.invariant (fun w => ∀ task answer s, .submitted task answer s ∈ w.story →
    ∃ id, answer = .ok id ∧ enrolledHandle (task, id) ∈ s.handles) (fun _ _ _ _ hmem => nomatch hmem)
    fun _ _ _ hstep ih task answer s hmem => (hstep.submits hmem).elim (ih task answer s) id

/-- A task is not tracked: no task of its script has its number, and its pin is released, unless a call in progress
has taken it. -/
structure Untracked (task : Submission α) (id : TaskId) (s : Scheduler α) (taken : List PinHandle) : Prop where
  unlisted : ∀ k ∈ s.handlesOf task.script, k.task ≠ id
  unpinned : s.bridge.isPinned task.ticket = true → task.ticket ∈ taken

/-- **One-shot tasks retire when they fire.** Under any runner and any callables, whatever code does with a new
scheduler and however deeply calls nest: every submission is answered with a number, and has listed its task when it
returns, whether or not the task has fired by then. Once a task that fires once has fired after its submission
returned, it is not tracked any more. This holds at every moment at which the scheduler has not ended, if the runner
has given the number to no other task of the script. -/
theorem one_shot_retires (m : Manner σ α) (depth : Nat) (code : Dealing σ α β) (own : σ) :
    (∀ task answer s, .submitted task answer s ∈ (code.run m depth own).2.story →
      ∃ id, answer = .ok id ∧ enrolledHandle (task, id) ∈ s.handles) ∧
    ∀ earlier s taken later, (code.run m depth own).2.story = earlier ++ .moment s taken :: later →
      s.live = true →
      ∀ task id, (task.callable.isSome || task.oneShot) = true → Fired task id earlier →
        timesGiven earlier task.script id ≤ 1 → Untracked task id s taken := by
  have hrun := Dealing.run_attained m depth code own
  refine ⟨hrun.lists, hrun.moments (fun earlier s taken => s.live = true →
    ∀ task id, (task.callable.isSome || task.oneShot) = true → Fired task id earlier →
      timesGiven earlier task.script id ≤ 1 → Untracked task id s taken) ?_⟩
  intro w hw hlive task id honce hfired hgiven
  -- its handle is gone; a handle with its number would be one of the same task
  have hnone := hw.retires task id honce hfired hgiven hlive
  refine ⟨fun k hk htask => ?_, hw.enrolled.pin_taken hw.lodged hfired.mem_enrolments hnone⟩
  obtain ⟨hk, hscript⟩ := mem_handlesOf.mp hk
  have hfor := hnone k hk
  rw [isFor_iff.mpr ⟨hscript, htask⟩] at hfor
  cases hfor

/-! ## A runner that is punctual or too early -/

/-- A runner that keeps what it is given and, if it is early, invokes a task before it accepts it. Callables do
nothing. -/
def punctual (early : Bool) : Manner (List (Submission Unit)) Unit where
  submit task _ _ := .own (task :: ·) fun given =>
    if early then .invoke task (.done ⟨given.length⟩) else .done ⟨given.length⟩
  cancel _ := .done false
  call _ := .done (.ok ())

/-- The task of the runs below. -/
def delayedTask : Submission Unit := ⟨⟨1⟩, "a", none, true⟩

/-- A delayed task is submitted, and invoked when its submission has returned. -/
def onTime : Scene (List (Submission Unit)) Unit :=
  ((Dealing.submit "a" () .sync (.delayed 1) fun _ => .own id fun given => match given with
    | [] => .done ()
    | task :: _ => .invoke task (.done ())).run (punctual false) 1 []).2

theorem one_shot_retires_on_time :
    onTime.scheduler.live = true ∧ Fired delayedTask ⟨1⟩ (onTime.story.take 10) ∧
      timesGiven (onTime.story.take 10) "a" ⟨1⟩ = 1 ∧ Untracked delayedTask ⟨1⟩ onTime.scheduler [] := by
  have hlast : onTime.story.drop 10 = [.moment onTime.scheduler []] := rfl
  have hstory : onTime.story = onTime.story.take 10 ++ .moment onTime.scheduler [] :: [] :=
    hlast ▸ (List.take_append_drop 10 onTime.story).symm
  have hfired : Fired delayedTask ⟨1⟩ (onTime.story.take 10) :=
    ⟨onTime.story.take 3, _, (onTime.story.take 10).drop 4, rfl, _, _, List.mem_of_getElem? (i := 5) rfl⟩
  have hgiven : timesGiven (onTime.story.take 10) "a" ⟨1⟩ = 1 := by decide +kernel
  refine ⟨rfl, hfired, hgiven, ?_⟩
  exact (one_shot_retires (punctual false) 1 _ []).2 _ _ _ _ hstory rfl delayedTask ⟨1⟩ rfl hfired
    (Nat.le_of_eq hgiven)

/-- A delayed task is submitted, and invoked before its submission has returned. -/
def tooEarly : Scene (List (Submission Unit)) Unit :=
  ((Dealing.submit "a" () .sync (.delayed 1) fun _ => .done ()).run (punctual true) 2 []).2

/-- A task that fires before its submission has returned is not retired: when no call is in progress any more, it is
still listed, and its callable is still pinned. -/
theorem early_task_stays :
    (∃ s taken, .returned delayedTask true s taken ∈ tooEarly.story) ∧
      (∃ s, .submitted delayedTask (.ok ⟨1⟩) s ∈ tooEarly.story) ∧ tooEarly.taken = [] ∧
      tooEarly.scheduler.live = true ∧ enrolledHandle (delayedTask, ⟨1⟩) ∈ tooEarly.scheduler.handles ∧
      tooEarly.scheduler.bridge.isPinned delayedTask.ticket = true :=
  ⟨⟨_, _, List.mem_of_getElem? (i := 6) rfl⟩, ⟨_, List.mem_of_getElem? (i := 8) rfl⟩, rfl, rfl,
    by decide +kernel, by decide +kernel⟩

end Scheduler
end ScriptHost
