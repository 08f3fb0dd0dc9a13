import ScriptHost.Proofs.Scheduler.Leading

/-!
# Released callables

A delayed or repeating task has no copy of its callable, only the pin. What a runner keeps of such a task is of no
use once the pin is released, or the scheduler has ended: no invocation of it starts the callable again, whatever
else happens.

* `Released`: the story tells of a retirement, a cancel or a cancelling of all tasks that took a handle with the pin
  off the lists, and is over.
* `Abandoned`: the clones of the scheduler are dropped, and no firing holds it any more.
* `Silent`: a part of the story in which a task is only ever invoked without an effect.
-/

namespace ScriptHost
namespace Scheduler

variable {σ α β : Type}

/-! ## What the story tells -/

/-- The pins of the handles that were taken off the lists by what is told to be over. -/
def Occurrence.taken : Occurrence α → List PinHandle
  | .cancelled taken _ => taken
  | .cancelledAll taken _ => taken
  | .returned _ _ _ taken => taken
  | _ => []

/-- Whether a firing begins that holds the scheduler. -/
def Occurrence.holds : Occurrence α → Bool
  | .began task => task.callable.isNone
  | _ => false

/-- Whether a firing is over that held the scheduler. -/
def Occurrence.letsGo : Occurrence α → Bool
  | .returned task true _ _ => task.callable.isNone
  | _ => false

/-- The handle with a pin has been removed, by what has returned since. -/
def Released (p : PinHandle) (story : List (Occurrence α)) : Prop := ∃ e ∈ story, p ∈ e.taken

/-- Every clone of the scheduler is dropped, and every firing that held it is over. -/
def Abandoned (story : List (Occurrence α)) : Prop :=
  .dropped ∈ story ∧ story.countP Occurrence.holds = story.countP Occurrence.letsGo

/-- Whether the clones of the scheduler are dropped. -/
def Occurrence.isDrop : Occurrence α → Bool
  | .dropped => true
  | _ => false

theorem mem_dropped_iff {story : List (Occurrence α)} : .dropped ∈ story ↔ story.any Occurrence.isDrop = true := by
  rw [List.any_eq_true]
  refine ⟨fun h => ⟨_, h, rfl⟩, fun ⟨e, he, hdrop⟩ => ?_⟩
  cases e with
  | dropped => exact he
  | _ => cases hdrop

instance (story : List (Occurrence α)) : Decidable (.dropped ∈ story) := decidable_of_iff _ mem_dropped_iff.symm

instance (p : PinHandle) (story : List (Occurrence α)) : Decidable (Released p story) :=
  inferInstanceAs (Decidable (∃ e ∈ story, p ∈ e.taken))

instance (story : List (Occurrence α)) : Decidable (Abandoned story) := inferInstanceAs (Decidable (_ ∧ _))

/-- The callable of a task does not start, and every invocation of the task is over at once and leaves the scheduler
as it is. -/
structure Silent (task : Submission α) (story : List (Occurrence α)) : Prop where
  begins : .began task ∉ story
  passes : ∀ before s after, story = before ++ .invoked task s :: after →
    ∃ rest, after = .returned task false s [] :: rest

/-- Stories that follow on each other are silent if each is, since a silent story does not end with an invocation. -/
theorem Silent.append {task : Submission α} {story story' : List (Occurrence α)} (h : Silent task story)
    (h' : Silent task story') : Silent task (story ++ story') where
  begins hmem := (List.mem_append.mp hmem).elim h.begins h'.begins
  passes before s after heq := by
    rcases List.append_eq_append_iff.mp heq with ⟨between, hbefore, hstory'⟩ | ⟨between, hstory, hafter⟩
    · exact h'.passes between s after hstory'
    · cases between with
      | nil =>
        rw [List.nil_append] at hafter
        exact h'.passes [] s after hafter.symm
      | cons e between =>
        rw [List.cons_append, List.cons.injEq] at hafter
        obtain ⟨rfl, rfl⟩ := hafter
        obtain ⟨rest, rfl⟩ := h.passes before s between hstory
        exact ⟨rest ++ story', rfl⟩

theorem Silent.suffix {task : Submission α} {before story : List (Occurrence α)} (h : Silent task (before ++ story)) :
    Silent task story where
  begins hmem := h.begins (List.mem_append_right _ hmem)
  passes before' s after heq := h.passes (before ++ before') s after (by rw [heq, List.append_assoc])

theorem silent_of_not_invoked {task : Submission α} {story : List (Occurrence α)}
    (hbegins : .began task ∉ story) (hinvoked : ∀ s, .invoked task s ∉ story) : Silent task story where
  begins := hbegins
  passes _ s _ heq := absurd (heq ▸ List.mem_append_right _ List.mem_cons_self) (hinvoked s)

theorem silent_pass (task task' : Submission α) (s : Scheduler α) :
    Silent task [.invoked task' s, .returned task' false s []] where
  begins := by simp
  passes before s' after heq := by
    cases before with
    | nil =>
      rw [List.nil_append, List.cons.injEq] at heq
      obtain ⟨hhead, rfl⟩ := heq
      obtain ⟨rfl, rfl⟩ := Occurrence.invoked.inj hhead
      exact ⟨[], rfl⟩
    | cons e before =>
      rw [List.cons_append, List.cons.injEq] at heq
      have hmem : Occurrence.invoked task s' ∈ [Occurrence.returned task' false s []] :=
        heq.2 ▸ List.mem_append_right _ List.mem_cons_self
      simp at hmem

/-! ## The story of a scene -/

/-- Whether a call is a firing that holds the scheduler. -/
def OpenCall.holds (call : OpenCall α) : Bool :=
  match call.purpose with
  | .invoke task => task.callable.isNone
  | _ => false

/-- The number of firings in progress that hold the scheduler. -/
def Scene.firings (w : Scene σ α) : Nat := w.calls.countP OpenCall.holds

/-- The scene is as its story says. -/
structure Recorded (w : Scene σ α) : Prop where
  spent : ∀ p, Released p w.story → Spent p w.scheduler
  dropped : .dropped ∈ w.story → w.keepers.clones = false
  firings : w.keepers.firings = w.firings
  begun : w.story.countP Occurrence.holds = w.story.countP Occurrence.letsGo + w.firings

theorem recorded_new (own : σ) : Recorded ({ own } : Scene σ α) where
  spent _ h := by
    obtain ⟨_, hmem, -⟩ := h
    cases hmem
  dropped h := nomatch h
  firings := rfl
  begun := rfl

/-- What follows on a record that is right. -/
theorem Recorded.append {w w' : Scene σ α} (h : Recorded w) (hstep : Step w w') {told : List (Occurrence α)}
    (hstory : w'.story = w.story ++ told)
    (htaken : ∀ e ∈ told, ∀ p ∈ e.taken, Spent p w'.scheduler)
    (hdropped : .dropped ∈ told → w'.keepers.clones = false)
    (hclones : w.keepers.clones = false → w'.keepers.clones = false)
    (hfirings : w'.keepers.firings + w.firings = w.keepers.firings + w'.firings)
    (hbegun : told.countP Occurrence.holds + w.firings = told.countP Occurrence.letsGo + w'.firings) :
    Recorded w' where
  spent p hreleased := by
    obtain ⟨e, he, hp⟩ := hreleased
    rw [hstory] at he
    rcases List.mem_append.mp he with he | he
    · -- a pin that was released stays so: its number is not used again
      exact hstep.spent (h.spent p ⟨e, he, hp⟩)
    · exact htaken e he p hp
  dropped hmem := by
    rw [hstory] at hmem
    rcases List.mem_append.mp hmem with hmem | hmem
    · exact hclones (h.dropped hmem)
    · exact hdropped hmem
  firings := by
    have hold := h.firings
    omega
  begun := by
    have hold := h.begun
    rw [hstory, List.countP_append, List.countP_append]
    omega

/-- A record stays right when nothing is told, and firings and clones stay as they are. -/
theorem Recorded.quiet {w w' : Scene σ α} (h : Recorded w) (hstep : Step w w') (hstory : w'.story = w.story)
    (hkeepers : w'.keepers = w.keepers) (hfirings : w'.firings = w.firings) : Recorded w' :=
  h.append hstep (hstory.trans (List.append_nil _).symm) (fun _ he => nomatch he) (fun hmem => nomatch hmem)
    (fun hclones => hkeepers ▸ hclones) (by rw [hkeepers, hfirings]) (by simp [hfirings])

/-- A record stays right when something is told that is not about firings and clones. -/
theorem Recorded.plain {w w' : Scene σ α} (h : Recorded w) (hstep : Step w w') {e : Occurrence α}
    (hstory : w'.story = w.story ++ [e]) (hkeepers : w'.keepers = w.keepers) (hfirings : w'.firings = w.firings)
    (hholds : e.holds = false) (hletsGo : e.letsGo = false) (hdropped : e ≠ .dropped)
    (htaken : ∀ p ∈ e.taken, Spent p w'.scheduler) : Recorded w' := by
  refine h.append hstep hstory (fun e' he' => List.mem_singleton.mp he' ▸ htaken)
    (fun hmem => absurd (List.mem_singleton.mp hmem).symm hdropped) (fun hclones => hkeepers ▸ hclones)
    (by rw [hkeepers, hfirings]) ?_
  simp [hholds, hletsGo, hfirings]

theorem firings_become (w : Scene σ α) (s : Scheduler α) : (w.become s).firings = w.firings := by
  unfold Scene.firings Scene.become
  cases w.calls <;> rfl

theorem firings_tail {w w' : Scene σ α} {call : OpenCall α} {calls : List (OpenCall α)}
    (hcalls : w.calls = call :: calls) (hcalls' : w'.calls = w.calls.tail) :
    w.firings = w'.firings + if call.holds then 1 else 0 := by
  unfold Scene.firings
  rw [hcalls', hcalls, List.countP_cons]
  rfl

/-- The pins of a call that has released what it took are spent. -/
theorem Lodged.taken_spent {w : Scene σ α} (h : Lodged w) {call : OpenCall α} {calls : List (OpenCall α)}
    (hcalls : w.calls = call :: calls) (hreleased : ∀ p ∈ call.taken, w.scheduler.bridge.get? p = none) :
    ∀ p ∈ call.taken, Spent p w.scheduler := fun p hp => by
  refine ⟨h.issued p (List.mem_append_right _ (List.mem_append_left _ ?_)), hreleased p hp⟩
  unfold Scene.taken
  rw [hcalls]
  exact List.mem_append_left _ hp

theorem Lodged.leaving_spent {w : Scene σ α} (h : Lodged w) {s : Scheduler α} {pins : List PinHandle}
    (hbridge : s.bridge = releaseAll w.scheduler.bridge pins)
    (hreleased : ∀ p ∈ leaving w.scheduler s, s.bridge.get? p = none) :
    ∀ p ∈ leaving w.scheduler s, Spent p s := fun p hp => by
  refine ⟨?_, hreleased p hp⟩
  rw [hbridge, issued_releaseAll]
  exact h.issued p (List.mem_append_left _ (List.mem_of_mem_filter hp))

/-- The story stays right when a firing is over. -/
theorem Recorded.conclude {w : Scene σ α} (h : Recorded w) (hlodged : Lodged w) {task : Submission α}
    {calls : List (OpenCall α)} (hcalls : w.calls = { purpose := .invoke task, ran := true } :: calls) :
    Recorded (w.conclude task) := by
  have hfirings : w.firings = (w.conclude task).firings + if task.callable.isNone then 1 else 0 :=
    firings_tail hcalls Scene.calls_conclude
  have hkeepers : (w.conclude task).keepers = if task.callable.isNone then w.keepers.letGo else w.keepers :=
    Scene.keepers_letGo
  have hold := h.firings
  refine h.append (.conclude hcalls) Scene.story_conclude ?_ (by simp) ?_ ?_ ?_
  · intro e he p hp
    rw [List.mem_singleton.mp he] at hp
    obtain ⟨pins, hpins⟩ := bridge_retired w.scheduler task
    have hspent := hlodged.leaving_spent hpins (hlodged.released_retired task) p hp
    exact ⟨Scene.bridge_conclude ▸ hspent.issued, Scene.bridge_conclude ▸ hspent.gone⟩
  · rw [hkeepers]
    split <;> exact id
  · rw [hkeepers]
    split at hfirings
    · next htracked =>
      rw [if_pos htracked]
      show w.keepers.firings - 1 + _ = _
      omega
    · next htracked =>
      rw [if_neg htracked]
      omega
  · simp only [List.countP_singleton, Occurrence.holds, Occurrence.letsGo]
    simpa [Nat.add_comm] using hfirings

theorem Step.recorded {w w' : Scene σ α} (hstep : Step w w') (hlodged : Lodged w) (h : Recorded w) :
    Recorded w' := by
  have hstep' := hstep
  cases hstep with
  | moment => exact h.plain hstep' rfl rfl rfl rfl rfl (by simp) fun _ hp => nomatch hp
  | own | submit | cancel | cancelAll | unpin => exact h.quiet hstep' rfl rfl rfl
  | drop | remove => exact h.quiet hstep' rfl rfl (firings_become w _)
  | accept id hcalls =>
    exact h.plain hstep' rfl rfl (firings_tail hcalls rfl).symm rfl rfl (by simp) fun _ hp => nomatch hp
  | cancelled answer hcalls hreleased =>
    exact h.plain hstep' rfl rfl (firings_tail hcalls rfl).symm rfl rfl (by simp)
      (hlodged.taken_spent hcalls hreleased)
  | cancelledAll summary hcalls hreleased =>
    exact h.plain hstep' rfl rfl (firings_tail hcalls rfl).symm rfl rfl (by simp)
      (hlodged.taken_spent hcalls hreleased)
  | pass task hcan =>
    refine h.append hstep' (List.append_assoc _ _ _) ?_ (by simp) id rfl ?_
    · simp [Occurrence.taken]
    · simp [Occurrence.holds, Occurrence.letsGo]
      rfl
  -- a firing begins: a tracked task keeps the scheduler as long as it lasts
  | start task hcan =>
    have hfirings : (w.start task).firings = w.firings + if task.callable.isNone then 1 else 0 :=
      firings_tail (w := w.start task) rfl rfl
    have hkeepers : (w.start task).keepers = if task.callable.isNone then w.keepers.hold else w.keepers := rfl
    refine h.append hstep' rfl (by simp [Occurrence.taken]) (by simp) ?_ ?_ ?_
    · rw [hkeepers]
      split <;> exact id
    · rw [hkeepers, hfirings]
      split
      · show w.keepers.firings + 1 + w.firings = _
        omega
      · omega
    · rw [hfirings]
      cases htracked : task.callable.isNone <;> simp [Occurrence.holds, Occurrence.letsGo, htracked]
      omega
  | conclude hcalls => exact h.conclude hlodged hcalls
  | abandon hfree =>
    -- the calls in progress stay as they are when the last clone goes
    have hfirings : w.abandoned.firings = w.firings := by
      unfold Scene.firings Scene.abandoned
      rw [Scene.calls_settle]
      rfl
    have hkeepers : w.abandoned.keepers = { w.keepers with clones := false } := Scene.keepers_settle
    refine h.append hstep' Scene.story_settle (by simp [Occurrence.taken]) (fun _ => congrArg _ hkeepers)
      (fun _ => congrArg _ hkeepers) (by rw [hkeepers, hfirings]) ?_
    rw [hfirings]
    rfl

theorem Attained.recorded {w : Scene σ α} (h : Attained w) : Recorded w :=
  h.invariant Recorded recorded_new fun _ _ hw hstep => hstep.recorded hw.lodged

/-! ## After the end of a task -/

/-- A task whose callable will not start again: its pin is spent, or the scheduler has ended. -/
def Over (task : Submission α) (s : Scheduler α) : Prop := Spent task.ticket s ∨ s.live = false

theorem Over.not_canStart {task : Submission α} {s : Scheduler α} (h : Over task s)
    (htracked : task.callable = none) : s.canStart task = false := by
  unfold canStart
  rw [htracked]
  rcases h with hspent | hlive
  · simp [ValueBridge.isPinned, hspent.gone]
  · simp [hlive]

theorem Step.over {w w' : Scene σ α} (hstep : Step w w') {task : Submission α} (h : Over task w.scheduler) :
    Over task w'.scheduler :=
  h.imp hstep.spent hstep.ended

/-- What the story says to be released or abandoned is over. -/
theorem Recorded.over {w : Scene σ α} (h : Recorded w) (hkept : Kept w) {task : Submission α}
    (hover : Released task.ticket w.story ∨ Abandoned w.story) : Over task w.scheduler := by
  rcases hover with hreleased | ⟨hdropped, hfirings⟩
  · exact .inl (h.spent _ hreleased)
  · -- nothing keeps the scheduler any more
    have hclones := h.dropped hdropped
    have hbegun := h.begun
    have hnone : w.keepers.firings = 0 := by
      have hfirings' := h.firings
      omega
    refine .inr (Bool.eq_false_iff.mpr fun hlive => ?_)
    have hany := hkept hlive
    simp [Keepers.any, hclones, hnone] at hany

/-- What is told while a task is over is silent about it. -/
theorem Told.silent {w : Scene σ α} {told : List (Occurrence α)} (h : Told w told) {task : Submission α}
    (hover : w.scheduler.canStart task = false) : Silent task told := by
  cases h with
  | nothing => exact silent_of_not_invoked List.not_mem_nil fun _ => List.not_mem_nil
  | moment => exact silent_of_not_invoked (by simp) (by simp)
  | one e _ hbegan hinvoked =>
    exact silent_of_not_invoked (fun hmem => hbegan task (List.mem_singleton.mp hmem).symm)
      fun s' hmem => hinvoked task s' (List.mem_singleton.mp hmem).symm
  | pass task' _ => exact silent_pass task task' w.scheduler
  | start task' hcan =>
    have hne : task ≠ task' := fun heq => by
      rw [heq, hcan] at hover
      cases hover
    refine silent_of_not_invoked ?_ fun s' => ?_ <;> simp [hne]

theorem before_of_pair {τ : Type} {a b : τ} {before after : List τ} (h : [a, b] = before ++ after)
    (hafter : after ≠ []) : before = [] ∨ before = [a] := by
  match before, h with
  | [], _ => exact .inl rfl
  | [c], h => exact .inr (by rw [(List.cons.inj h).1])
  | c :: d :: before, h =>
    have hnil := (List.cons.inj (List.cons.inj h).2).2
    exact absurd (List.append_eq_nil_iff.mp hnil.symm).2 hafter

/-- What is told at once may stand on both sides of a cut. What was over before the cut was then over before all
of it. -/
theorem Told.cut {w : Scene σ α} {before after story : List (Occurrence α)} (h : Told w (before ++ after))
    (hafter : after ≠ []) {p : PinHandle} (hover : Released p (story ++ before) ∨ Abandoned (story ++ before)) :
    Released p story ∨ Abandoned story := by
  -- only an invocation can stand before the cut
  have hbefore : before = [] ∨ ∃ task, before = [.invoked task w.scheduler] := by
    have hsingle : ∀ e, before ++ after = [e] → before = [] := fun e htold =>
      (List.append_eq_singleton_iff.mp htold).elim And.left fun hnil => absurd hnil.2 hafter
    generalize htold : before ++ after = told at h
    cases h with
    | nothing => exact .inl (List.append_eq_nil_iff.mp htold).1
    | moment => exact .inl (hsingle _ htold)
    | one e _ _ _ => exact .inl (hsingle e htold)
    | pass task _ => exact (before_of_pair htold.symm hafter).imp_right fun heq => ⟨task, heq⟩
    | start task _ => exact (before_of_pair htold.symm hafter).imp_right fun heq => ⟨task, heq⟩
  rcases hbefore with rfl | ⟨task, rfl⟩
  · rwa [List.append_nil] at hover
  · refine hover.imp ?_ ?_
    · rintro ⟨e, he, hp⟩
      rcases List.mem_append.mp he with he | he
      · exact ⟨e, he, hp⟩
      · rw [List.mem_singleton.mp he] at hp
        cases hp
    · rintro ⟨hdropped, hfirings⟩
      refine ⟨?_, ?_⟩
      · simpa using hdropped
      · simpa [List.countP_append, Occurrence.holds, Occurrence.letsGo] using hfirings

/-- The story is silent about a task after each moment at which the task was over. -/
def Hushed (task : Submission α) (w : Scene σ α) : Prop :=
  ∀ earlier later, w.story = earlier ++ later → Released task.ticket earlier ∨ Abandoned earlier →
    Over task w.scheduler ∧ Silent task later

theorem Step.hushed {w w' : Scene σ α} (hstep : Step w w') (hw : Attained w) {task : Submission α}
    (htracked : task.callable = none) (h : Hushed task w) : Hushed task w' := by
  intro earlier later heq hover
  have hw' : Attained w' := hw.course (.single hstep)
  obtain ⟨told, hstory, htold⟩ := hstep.story
  rw [hstory] at heq
  rcases List.append_eq_append_iff.mp heq with ⟨between, rfl, rfl⟩ | ⟨between, hbetween, rfl⟩
  · -- the cut is in what this step tells, or at its end
    rcases List.eq_nil_or_concat later with rfl | ⟨_, _, hlater⟩
    · rw [List.append_nil] at hstory
      exact ⟨hw'.recorded.over hw'.kept (hstory ▸ hover),
        silent_of_not_invoked List.not_mem_nil fun _ => List.not_mem_nil⟩
    · have hbefore := htold.cut (by simp [hlater]) hover
      have hnow := hw.recorded.over hw.kept hbefore
      exact ⟨hstep.over hnow, (htold.silent (hnow.not_canStart htracked)).suffix⟩
  · -- the cut was made before
    obtain ⟨hnow, hsilent⟩ := h earlier between hbetween hover
    exact ⟨hstep.over hnow, hsilent.append (htold.silent (hnow.not_canStart htracked))⟩

theorem Attained.hushed {w : Scene σ α} (h : Attained w) {task : Submission α}
    (htracked : task.callable = none) : Hushed task w := by
  refine h.invariant (Hushed task) (fun own earlier later heq hover => ?_)
    fun _ _ hw hstep => hstep.hushed hw htracked
  -- nothing has happened yet
  obtain ⟨rfl, rfl⟩ := List.append_eq_nil_iff.mp heq.symm
  rcases hover with ⟨_, hmem, -⟩ | ⟨hmem, -⟩ <;> cases hmem

/-- **A released callable never runs again.** Under any runner and any callables, whatever code does with a new
scheduler and however deeply calls nest: once the retirement, the cancel or the cancelling of all tasks that took
the handle of a delayed or repeating task off the lists has returned, no invocation of the task starts its callable,
and each leaves the scheduler as it is. The same is true once every clone of the scheduler is dropped and no firing
that holds the scheduler is in progress. -/
theorem released_never_runs (m : Manner σ α) (depth : Nat) (code : Dealing σ α β) (own : σ)
    {earlier later : List (Occurrence α)} (hstory : (code.run m depth own).2.story = earlier ++ later)
    {task : Submission α} (htracked : task.callable = none)
    (hover : Released task.ticket earlier ∨ Abandoned earlier) : Silent task later :=
  ((Dealing.run_attained m depth code own).hushed htracked earlier later hstory hover).2

/-! ## A runner that keeps everything -/

/-- The latest task that the runner was given is invoked. -/
def invokeLatest {γ : Type} (next : Dealing (List (Submission Nat)) Nat γ) : Dealing (List (Submission Nat)) Nat γ :=
  .own id fun given => match given with
    | [] => next
    | task :: _ => .invoke task next

/-- A runner that keeps all that it was given and does not cancel anything. Callable 0 does nothing; any other drops
the clones of the scheduler and has the latest task invoked. -/
def stubborn : Manner (List (Submission Nat)) Nat where
  submit task _ _ := .own (task :: ·) fun given => .done ⟨given.length⟩
  cancel _ := .done false
  call callable := if callable = 0 then .done (.ok ()) else .drop (invokeLatest (.done (.ok ())))

/-- A delayed task is submitted and cancelled. The runner, which has not cancelled it, invokes it nevertheless. -/
def cancelledTooLate : List (Occurrence Nat) :=
  ((Dealing.submit "a" 0 .sync (.delayed 1) fun _ => .cancel "a" ⟨1⟩ fun _ => invokeLatest (.done ())).run
    stubborn 1 []).2.story

/-- The task of `cancelledTooLate`. -/
def lateTask : Submission Nat := ⟨⟨1⟩, "a", none, true⟩

theorem released_never_runs_cancelled :
    Released lateTask.ticket (cancelledTooLate.take 7) ∧ (∃ s, .invoked lateTask s ∈ cancelledTooLate.drop 7) ∧
      Silent lateTask (cancelledTooLate.drop 7) := by
  have hreleased : Released lateTask.ticket (cancelledTooLate.take 7) := by decide +kernel
  refine ⟨hreleased, ⟨_, List.mem_of_getElem? (i := 2) rfl⟩, ?_⟩
  exact released_never_runs stubborn 1 _ [] (List.take_append_drop 7 cancelledTooLate).symm rfl (.inl hreleased)

/-- Two delayed tasks are submitted, and the first is invoked, whose callable drops the clones. -/
def droppedWithin : List (Occurrence Nat) :=
  ((Dealing.submit "a" 1 .sync (.delayed 1) fun _ => .submit "a" 0 .sync (.delayed 1) fun _ =>
    .own id fun given => match given[1]? with
      | some task => .invoke task (.done ())
      | none => .done ()).run stubborn 2 []).2.story

theorem exists_of_holds {story : List (Occurrence α)} (h : story.any Occurrence.holds = true) :
    ∃ task, task.callable = none ∧ .began task ∈ story := by
  obtain ⟨e, he, hholds⟩ := List.any_eq_true.mp h
  cases e with
  | began task => exact ⟨task, Option.isNone_iff_eq_none.mp hholds, he⟩
  | _ => cases hholds

/-- While a firing holds the scheduler it is not enough that every clone is dropped: the callable of a delayed task
starts after that. -/
theorem dropped_task_runs :
    ∃ earlier later task, droppedWithin = earlier ++ later ∧ .dropped ∈ earlier ∧ task.callable = none ∧
      .began task ∈ later := by
  have hdropped : .dropped ∈ droppedWithin.take 14 := by decide +kernel
  obtain ⟨task, htracked, hbegan⟩ := exists_of_holds (show (droppedWithin.drop 14).any Occurrence.holds = true by decide +kernel)
  exact ⟨_, _, task, (List.take_append_drop 14 droppedWithin).symm, hdropped, htracked, hbegan⟩

end Scheduler
end ScriptHost
