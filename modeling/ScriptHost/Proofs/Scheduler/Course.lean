import Mathlib.Logic.Relation
import ScriptHost.Proofs.Scheduler.Dealings

/-!
# The course of a scheduler

Whatever code does with a scheduler, the scene changes in few ways. `Step` has one constructor for each of them,
and says all that it does to the scene. An invariant of scenes has to be checked against the steps only, and need
not look at the code of the scheduler again.

* `Step`: one change. `Course`: any number of them.
* `Attained`: the scenes that a new scheduler can come to.
* `Spent`: a pin that was released. It stays so on every course.
-/

namespace ScriptHost
namespace Scheduler

variable {σ α β : Type}

/-! ## Parts of steps -/

/-- The scheduler without a pin. -/
def unpinned (s : Scheduler α) (p : PinHandle) : Scheduler α :=
  { s with bridge := s.bridge.release p }

/-- The scheduler after the runner has answered a submission with a number. -/
def numbered (s : Scheduler α) (task : Submission α) (id : TaskId) : Scheduler α :=
  { s with accepted := s.accepted.insert task.ticket.raw id }

/-- The scheduler when a submission returns. Only a task without its own copy of the callable keeps the pin. -/
def enlisted (s : Scheduler α) (task : Submission α) (id : TaskId) : Scheduler α :=
  { (if task.callable.isSome then (s.numbered task id).unpinned task.ticket else s.numbered task id) with
    handles := s.handles ++ [handleOf id.raw task] }

/-- The scheduler without the handles of a script. -/
def without (s : Scheduler α) (script : String) : Scheduler α :=
  { s with handles := s.handles.filter fun h => h.script != script }

/-- The scheduler after the callable of a task has run: a task that is not to fire again retires, if its number is
known. -/
def retired (s : Scheduler α) (task : Submission α) : Scheduler α :=
  if task.callable.isSome || task.oneShot then
    match s.live, s.accepted.get? task.ticket.raw with
    | true, some id => s.drop task.script id
    | _, _ => s
  else s

theorem retired_cases (s : Scheduler α) (task : Submission α) :
    (∃ id, s.retired task = s.drop task.script id) ∨ s.retired task = s := by
  unfold retired
  split
  · split
    · exact .inl ⟨_, rfl⟩
    · exact .inr rfl
  · exact .inr rfl

/-- Whether the callable of a task can start. -/
def canStart (s : Scheduler α) (task : Submission α) : Bool :=
  task.callable.isSome || (s.live && s.bridge.isPinned task.ticket)

namespace Scene

/-- The scheduler ends, if nothing keeps it. -/
def settle (w : Scene σ α) : Scene σ α :=
  if w.keepers.any then w else { w with scheduler := { w.scheduler with live := false } }

/-- A submission begins: the callable is pinned. -/
def ask (w : Scene σ α) (script : String) (callable : α) (mode : Mode) : Scene σ α :=
  { w with
    scheduler := { w.scheduler with bridge := (w.scheduler.bridge.pin callable).2 }
    calls := { purpose := .submit (w.scheduler.submission script callable mode) } :: w.calls }

/-- A submission returns, with the number that the runner has given to the task. -/
def enlist (w : Scene σ α) (task : Submission α) (id : TaskId) : Scene σ α :=
  { w.leave with scheduler := w.scheduler.enlisted task id }.tell
    (.submitted task (.ok id) (w.scheduler.enlisted task id))

/-- The callable of a task starts. -/
def start (w : Scene σ α) (task : Submission α) : Scene σ α :=
  { w with
    keepers := if task.callable.isNone then w.keepers.hold else w.keepers
    calls := { purpose := .invoke task, ran := true } :: w.calls
    story := w.story ++ [.invoked task w.scheduler, .began task] }

/-- The firing of a task lets go of the scheduler, if it held it. -/
def letGo (w : Scene σ α) (task : Submission α) : Scene σ α :=
  if task.callable.isNone then { w with keepers := w.keepers.letGo }.settle else w

/-- The callable of a task has run, and the invocation is over. -/
def conclude (w : Scene σ α) (task : Submission α) : Scene σ α :=
  let w' := (w.become (w.scheduler.retired task)).letGo task
  w'.leave.tell (.returned task true w'.scheduler (leaving w.scheduler w'.scheduler))

/-- A task is invoked, and its callable does not start. -/
def pass (w : Scene σ α) (task : Submission α) : Scene σ α :=
  (w.tell (.invoked task w.scheduler)).tell (.returned task false w.scheduler [])

/-- The clones of the scheduler are dropped. -/
def abandoned (w : Scene σ α) : Scene σ α :=
  { w.tell .dropped with keepers := { w.keepers with clones := false } }.settle

end Scene

namespace Scene

variable {w : Scene σ α} {task : Submission α}

@[simp] theorem handles_settle : w.settle.scheduler.handles = w.scheduler.handles := by
  unfold settle
  split <;> rfl

@[simp] theorem bridge_settle : w.settle.scheduler.bridge = w.scheduler.bridge := by
  unfold settle
  split <;> rfl

@[simp] theorem accepted_settle : w.settle.scheduler.accepted = w.scheduler.accepted := by
  unfold settle
  split <;> rfl

@[simp] theorem keepers_settle : w.settle.keepers = w.keepers := by
  unfold settle
  split <;> rfl

@[simp] theorem calls_settle : w.settle.calls = w.calls := by
  unfold settle
  split <;> rfl

@[simp] theorem story_settle : w.settle.story = w.story := by
  unfold settle
  split <;> rfl

@[simp] theorem handles_letGo : (w.letGo task).scheduler.handles = w.scheduler.handles := by
  unfold letGo
  split <;> simp

@[simp] theorem bridge_letGo : (w.letGo task).scheduler.bridge = w.scheduler.bridge := by
  unfold letGo
  split <;> simp

@[simp] theorem accepted_letGo : (w.letGo task).scheduler.accepted = w.scheduler.accepted := by
  unfold letGo
  split <;> simp

@[simp] theorem calls_letGo : (w.letGo task).calls = w.calls := by
  unfold letGo
  split <;> simp

@[simp] theorem story_letGo : (w.letGo task).story = w.story := by
  unfold letGo
  split <;> simp

theorem keepers_letGo : (w.letGo task).keepers =
    if task.callable.isNone then w.keepers.letGo else w.keepers := by
  unfold letGo
  split <;> simp

theorem leaving_letGo (s : Scheduler α) : leaving s (w.letGo task).scheduler = leaving s w.scheduler := by
  unfold leaving
  rw [handles_letGo]

theorem handles_conclude : (w.conclude task).scheduler.handles = (w.scheduler.retired task).handles :=
  handles_letGo

theorem bridge_conclude : (w.conclude task).scheduler.bridge = (w.scheduler.retired task).bridge :=
  bridge_letGo

theorem accepted_conclude : (w.conclude task).scheduler.accepted = (w.scheduler.retired task).accepted :=
  accepted_letGo

theorem calls_conclude : (w.conclude task).calls = w.calls.tail := by
  show (Scene.letGo _ task).calls.tail = _
  rw [calls_letGo]
  unfold become
  cases w.calls <;> rfl

theorem story_conclude : (w.conclude task).story = w.story ++
    [.returned task true (w.conclude task).scheduler (leaving w.scheduler (w.scheduler.retired task))] := by
  unfold conclude
  dsimp only
  rw [leaving_letGo]
  show (Scene.letGo _ task).story ++ _ = _
  rw [story_letGo]
  rfl

end Scene

/-! ## Steps -/

/-- How a scene can change at once. -/
inductive Step : Scene σ α → Scene σ α → Prop
  | moment (w : Scene σ α) : Step w (w.tell (.moment w.scheduler w.taken))
  | own (w : Scene σ α) (f : σ → σ) : Step w { w with own := f w.own }
  | submit (w : Scene σ α) (script : String) (callable : α) (mode : Mode) (hclones : w.keepers.clones = true) :
    Step w (w.ask script callable mode)
  | accept {w : Scene σ α} {task : Submission α} {calls : List (OpenCall α)} (id : TaskId)
    (hcalls : w.calls = { purpose := .submit task } :: calls) :
    Step w (w.enlist task id)
  | cancel (w : Scene σ α) (hclones : w.keepers.clones = true) : Step w (w.enter .cancel)
  | drop {w : Scene σ α} {calls : List (OpenCall α)} (script : String) (id : TaskId)
    (hcalls : w.calls = { purpose := .cancel } :: calls) : Step w (w.become (w.scheduler.drop script id))
  | cancelled {w : Scene σ α} {taken : List PinHandle} {calls : List (OpenCall α)}
    (answer : Except HostError Bool) (hcalls : w.calls = { purpose := .cancel, taken } :: calls)
    (hreleased : ∀ p ∈ taken, w.scheduler.bridge.get? p = none) :
    Step w (w.leave.tell (.cancelled taken answer))
  | cancelAll (w : Scene σ α) (hclones : w.keepers.clones = true) : Step w (w.enter .cancelAll)
  | remove {w : Scene σ α} {calls : List (OpenCall α)} (script : String)
    (hcalls : w.calls = { purpose := .cancelAll } :: calls) : Step w (w.become (w.scheduler.without script))
  | unpin {w : Scene σ α} {taken : List PinHandle} {calls : List (OpenCall α)} (p : PinHandle)
    (hcalls : w.calls = { purpose := .cancelAll, taken } :: calls) (hp : p ∈ taken) :
    Step w { w with scheduler := w.scheduler.unpinned p }
  | cancelledAll {w : Scene σ α} {taken : List PinHandle} {calls : List (OpenCall α)} (summary : CancelSummary)
    (hcalls : w.calls = { purpose := .cancelAll, taken } :: calls)
    (hreleased : ∀ p ∈ taken, w.scheduler.bridge.get? p = none) :
    Step w (w.leave.tell (.cancelledAll taken summary))
  | pass (w : Scene σ α) (task : Submission α) (hcan : w.scheduler.canStart task = false) :
    Step w (w.pass task)
  | start (w : Scene σ α) (task : Submission α) (hcan : w.scheduler.canStart task = true) :
    Step w (w.start task)
  | conclude {w : Scene σ α} {task : Submission α} {calls : List (OpenCall α)}
    (hcalls : w.calls = { purpose := .invoke task, ran := true } :: calls) : Step w (w.conclude task)
  | abandon (w : Scene σ α) (hfree : w.borrowed = false) : Step w w.abandoned

/-- Any number of steps. -/
abbrev Course : Scene σ α → Scene σ α → Prop := Relation.ReflTransGen Step

/-- The scenes that a new scheduler can come to. -/
def Attained (w : Scene σ α) : Prop := ∃ own, Course { own } w

theorem Attained.course {w w' : Scene σ α} (h : Attained w) (hc : Course w w') : Attained w' :=
  let ⟨own, h⟩ := h
  ⟨own, h.trans hc⟩

/-- What holds of a new scheduler and is kept by every step holds of every attained scene. -/
theorem Attained.invariant (Inv : Scene σ α → Prop) (hnew : ∀ own, Inv { own })
    (hstep : ∀ w w', Attained w → Step w w' → Inv w → Inv w') {w : Scene σ α} (h : Attained w) : Inv w := by
  obtain ⟨own, h⟩ := h
  induction h with
  | refl => exact hnew own
  | tail hbefore hlast ih => exact hstep _ _ ⟨own, hbefore⟩ hlast ih

/-! ## What a step tells -/

/-- What a step adds to the story: at most one occurrence that is no invocation, or an invocation with what it comes
to at first. -/
inductive Told (w : Scene σ α) : List (Occurrence α) → Prop
  | nothing : Told w []
  | moment : Told w [.moment w.scheduler w.taken]
  | one (e : Occurrence α) (hmoment : ∀ s taken, e ≠ .moment s taken) (hbegan : ∀ task, e ≠ .began task)
    (hinvoked : ∀ task s, e ≠ .invoked task s) : Told w [e]
  | pass (task : Submission α) (hcan : w.scheduler.canStart task = false) :
    Told w [.invoked task w.scheduler, .returned task false w.scheduler []]
  | start (task : Submission α) (hcan : w.scheduler.canStart task = true) :
    Told w [.invoked task w.scheduler, .began task]

theorem Step.story {w w' : Scene σ α} (hstep : Step w w') :
    ∃ told, w'.story = w.story ++ told ∧ Told w told := by
  cases hstep with
  | own | submit | cancel | drop | cancelAll | remove | unpin => exact ⟨[], (List.append_nil _).symm, .nothing⟩
  | moment => exact ⟨_, rfl, .moment⟩
  | accept | cancelled | cancelledAll => exact ⟨[_], rfl, .one _ (by simp) (by simp) (by simp)⟩
  | pass task hcan => exact ⟨_, List.append_assoc _ _ _, .pass task hcan⟩
  | start task hcan => exact ⟨_, rfl, .start task hcan⟩
  | conclude _ => exact ⟨[_], Scene.story_conclude, .one _ (by simp) (by simp) (by simp)⟩
  | abandon _ => exact ⟨[.dropped], Scene.story_settle, .one _ (by simp) (by simp) (by simp)⟩

/-- A moment that a step tells of is the one before it. -/
theorem Told.moment_eq {w : Scene σ α} {before after : List (Occurrence α)} {s : Scheduler α} {taken : List PinHandle}
    (h : Told w (before ++ .moment s taken :: after)) : before = [] ∧ s = w.scheduler ∧ taken = w.taken := by
  generalize htold : before ++ .moment s taken :: after = told at h
  have hmem : .moment s taken ∈ told := htold ▸ List.mem_append_right _ List.mem_cons_self
  cases h with
  | nothing => cases hmem
  | moment =>
    rcases List.append_eq_singleton_iff.mp htold with ⟨hbefore, heq⟩ | ⟨-, hnil⟩
    · obtain ⟨hs, htaken⟩ := Occurrence.moment.inj (List.cons.inj heq).1
      exact ⟨hbefore, hs, htaken⟩
    · cases hnil
  | one e hmoment _ _ => exact absurd (List.mem_singleton.mp hmem).symm (hmoment s taken)
  | pass task _ => simp at hmem
  | start task _ => simp at hmem

/-- What is true of every attained scene is true at every moment of a story. -/
theorem Attained.moments (P : List (Occurrence α) → Scheduler α → List PinHandle → Prop)
    (hP : ∀ w : Scene σ α, Attained w → P w.story w.scheduler w.taken) {w : Scene σ α} (h : Attained w) :
    ∀ earlier s taken later, w.story = earlier ++ .moment s taken :: later → P earlier s taken := by
  refine h.invariant (fun w => ∀ earlier s taken later, w.story = earlier ++ .moment s taken :: later →
    P earlier s taken) (fun own earlier s taken later heq => ?_) fun w w' hw hstep ih earlier s taken later heq => ?_
  · simp at heq
  · obtain ⟨told, hstory, htold⟩ := hstep.story
    rw [hstory] at heq
    rcases List.append_eq_append_iff.mp heq with ⟨between, hearlier, rfl⟩ | ⟨between, hbetween, hlater⟩
    · -- the moment is the first thing that the step tells
      obtain ⟨rfl, rfl, rfl⟩ := htold.moment_eq
      rw [hearlier, List.append_nil]
      exact hP w hw
    · cases between with
      | nil =>
        rw [List.nil_append] at hlater
        rw [List.append_nil] at hbetween
        have hmoment : Told w ([] ++ .moment s taken :: later) := by
          rw [hlater]
          exact htold
        obtain ⟨-, rfl, rfl⟩ := hmoment.moment_eq
        exact hbetween ▸ hP w hw
      | cons e between =>
        rw [List.cons_append] at hlater
        obtain ⟨rfl, -⟩ := List.cons.inj hlater
        -- it was told before
        exact ih earlier s taken between hbetween

/-! ## The places of pins -/

/-- The ticket of a submission in progress. -/
def OpenCall.ticket? (call : OpenCall α) : Option PinHandle :=
  match call.purpose with
  | .submit task => some task.ticket
  | _ => none

/-- The tickets of the submissions in progress. -/
def Scene.tickets (w : Scene σ α) : List PinHandle := w.calls.filterMap OpenCall.ticket?

/-- Where a pin can be: with a handle, with a call that has taken it, or with the submission that it is for. -/
def Scene.places (w : Scene σ α) : List PinHandle := pinsOf w.scheduler.handles ++ (w.taken ++ w.tickets)

/-- Every live pin has a place, and no pin has two. -/
structure Lodged (w : Scene σ α) : Prop where
  nodup : w.places.Nodup
  issued : ∀ p ∈ w.places, p.raw ≤ w.scheduler.bridge.issued
  place : ∀ p, w.scheduler.bridge.isPinned p = true → p ∈ w.places
  /-- A submission in progress has its pin. -/
  held : ∀ p ∈ w.tickets, w.scheduler.bridge.isPinned p = true

theorem isPinned_release {b : ValueBridge α} {p q : PinHandle} :
    (b.release p).isPinned q = true ↔ q ≠ p ∧ b.isPinned q = true := by
  unfold ValueBridge.isPinned
  rw [ValueBridge.get?_release]
  by_cases hq : q = p
  · simp [hq]
  · simp [hq]

theorem isPinned_pin {b : ValueBridge α} {callable : α} {p : PinHandle} :
    (b.pin callable).2.isPinned p = true ↔ p = (b.pin callable).1 ∨ b.isPinned p = true := by
  simp only [ValueBridge.isPinned_iff, ValueBridge.handles_pin, List.mem_cons]

theorem isPinned_releaseAll {b : ValueBridge α} {pins : List PinHandle} {p : PinHandle} :
    (releaseAll b pins).isPinned p = true ↔ p ∉ pins ∧ b.isPinned p = true := by
  induction pins generalizing b with
  | nil => simp [releaseAll]
  | cons q pins ih =>
    refine (ih (b := b.release q)).trans ?_
    rw [isPinned_release, List.mem_cons, not_or, and_assoc, and_left_comm]

/-- A change that issues no pin, and gives none a place that no pin had. -/
theorem Lodged.shrink {w w' : Scene σ α} (h : Lodged w) (pins : List PinHandle)
    (hbridge : w'.scheduler.bridge = releaseAll w.scheduler.bridge pins) (hplaces : w'.places.Subperm w.places)
    (htickets : ∀ p ∈ w'.tickets, p ∈ w.tickets ∧ p ∉ pins)
    (hplace : ∀ p ∈ w.places, w'.scheduler.bridge.isPinned p = true → p ∈ w'.places) : Lodged w' where
  nodup := by
    obtain ⟨l, hperm, hsub⟩ := hplaces
    exact hperm.nodup_iff.mp (h.nodup.sublist hsub)
  issued p hp := by
    rw [hbridge, issued_releaseAll]
    exact h.issued p (hplaces.subset hp)
  place p hp := by
    refine hplace p (h.place p ?_) hp
    rw [hbridge] at hp
    exact (isPinned_releaseAll.mp hp).2
  held p hp := by
    obtain ⟨hold, hkept⟩ := htickets p hp
    rw [hbridge]
    exact isPinned_releaseAll.mpr ⟨hkept, h.held p hold⟩

/-- A change that leaves the pins and their places alone. -/
theorem Lodged.of_eq {w w' : Scene σ α} (h : Lodged w) (hbridge : w'.scheduler.bridge = w.scheduler.bridge)
    (hplaces : w'.places = w.places) (htickets : w'.tickets = w.tickets) : Lodged w' :=
  h.shrink [] hbridge (hplaces ▸ List.Subperm.refl _) (fun _ hp => ⟨htickets ▸ hp, List.not_mem_nil⟩)
    fun _ hp _ => hplaces ▸ hp

/-- The pins of a scheduler before and after a task is dropped. -/
theorem pinsOf_drop (s : Scheduler α) (script : String) (id : TaskId) :
    (pinsOf s.handles).Perm
      (((s.untrack script id).1.bind TaskHandle.pin).toList ++ pinsOf (s.drop script id).handles) := by
  show (pinsOf s.handles).Perm
    (((s.handles.find? (TaskHandle.isFor script id)).bind TaskHandle.pin).toList ++
      pinsOf (s.handles.eraseP (TaskHandle.isFor script id)))
  cases hfind : s.handles.find? (TaskHandle.isFor script id) with
  | none =>
    rw [List.eraseP_of_forall_not (List.find?_eq_none.mp hfind)]
    exact List.Perm.refl _
  | some k =>
    refine ((perm_cons_eraseP hfind).filterMap TaskHandle.pin).trans ?_
    rw [List.filterMap_cons]
    cases hk : k.pin with
    | none => simp [hk, pinsOf]
    | some p => simp [hk, pinsOf]

/-- The pins of a scheduler before and after the handles of a script are removed. -/
theorem pinsOf_without (s : Scheduler α) (script : String) :
    (pinsOf s.handles).Perm (pinsOf (s.handlesOf script) ++ pinsOf (s.without script).handles) := by
  have hsplit := List.filter_append_perm (fun k : TaskHandle => k.script == script) s.handles
  have hpins := hsplit.symm.filterMap TaskHandle.pin
  rw [List.filterMap_append] at hpins
  exact hpins

theorem leaving_perm {s s' : Scheduler α} {gone : List PinHandle} (hnodup : (pinsOf s.handles).Nodup)
    (hperm : (pinsOf s.handles).Perm (gone ++ pinsOf s'.handles)) : (leaving s s').Perm gone := by
  have hdisjoint := List.nodup_append.mp (hperm.nodup_iff.mp hnodup)
  unfold leaving
  refine (hperm.filter _).trans ?_
  rw [List.filter_append, List.filter_eq_self.mpr, List.filter_eq_nil_iff.mpr, List.append_nil]
  · intro p hp
    simpa using hp
  · intro p hp
    simpa using fun hp' => hdisjoint.2.2 p hp p hp' rfl

/-- Where the pins are when the innermost call takes handles off the lists. -/
theorem places_become {w : Scene σ α} {s : Scheduler α} {call : OpenCall α} {calls : List (OpenCall α)}
    {gone : List PinHandle} (h : Lodged w) (hcalls : w.calls = call :: calls)
    (hperm : (pinsOf w.scheduler.handles).Perm (gone ++ pinsOf s.handles)) :
    (w.become s).places.Perm w.places := by
  -- the pins that leave the handles are taken by the innermost call
  have hgone := leaving_perm (List.nodup_append.mp h.nodup).1 hperm
  have htaken : (w.become s).taken.Perm (gone ++ w.taken) := by
    unfold Scene.taken Scene.become
    dsimp only
    rw [hcalls, Scene.charge, List.flatMap_cons, List.flatMap_cons]
    dsimp only
    rw [List.append_assoc]
    refine (List.perm_append_comm_assoc _ _ _).trans ?_
    exact hgone.append_right _
  have htickets : (w.become s).tickets = w.tickets := by
    unfold Scene.tickets Scene.become
    dsimp only
    rw [hcalls]
    rfl
  unfold Scene.places
  rw [htickets]
  refine ((htaken.append_right _).append_left _).trans ?_
  show (pinsOf s.handles ++ _).Perm _
  rw [List.append_assoc, ← List.append_assoc (pinsOf s.handles)]
  exact (List.perm_append_comm.trans hperm.symm).append_right _

theorem tickets_become {w : Scene σ α} {s : Scheduler α} : (w.become s).tickets = w.tickets := by
  unfold Scene.tickets Scene.become
  dsimp only
  cases w.calls <;> rfl

theorem Lodged.ask {w : Scene σ α} (h : Lodged w) (script : String) (callable : α) (mode : Mode) :
    Lodged (w.ask script callable mode) := by
  have hperm : (w.ask script callable mode).places.Perm (⟨w.scheduler.bridge.issued + 1⟩ :: w.places) := by
    show (pinsOf w.scheduler.handles ++ (w.taken ++ _ :: w.tickets)).Perm _
    rw [← List.append_assoc]
    refine List.perm_middle.trans ?_
    rw [List.append_assoc]
    exact List.Perm.refl _
  refine ⟨?_, fun p hp => ?_, fun p hp => ?_, fun p hp => ?_⟩
  · refine hperm.nodup_iff.mpr (List.nodup_cons.mpr ⟨fun hmem => ?_, h.nodup⟩)
    have hle := h.issued _ hmem
    dsimp only at hle
    omega
  · show p.raw ≤ w.scheduler.bridge.issued + 1
    rcases List.mem_cons.mp (hperm.subset hp) with rfl | hp
    · exact Nat.le_refl _
    · exact Nat.le_succ_of_le (h.issued p hp)
  · refine hperm.symm.subset (List.mem_cons.mpr ?_)
    exact (isPinned_pin.mp hp).imp_right (h.place p)
  · refine isPinned_pin.mpr ((List.mem_cons.mp hp).imp_right (h.held p))

theorem Lodged.enlist {w : Scene σ α} (h : Lodged w) {task : Submission α} {calls : List (OpenCall α)}
    (hcalls : w.calls = { purpose := .submit task } :: calls) (id : TaskId) : Lodged (w.enlist task id) := by
  have htickets : w.tickets = task.ticket :: (w.enlist task id).tickets := by
    show w.calls.filterMap _ = _ :: w.calls.tail.filterMap _
    rw [hcalls]
    rfl
  have htaken : w.taken = (w.enlist task id).taken := by
    show w.calls.flatMap _ = w.calls.tail.flatMap _
    rw [hcalls]
    rfl
  have hplaces : w.places.Perm (task.ticket :: (pinsOf w.scheduler.handles ++ ((w.enlist task id).taken ++
      (w.enlist task id).tickets))) := by
    unfold Scene.places
    rw [htickets, htaken, ← List.append_assoc]
    refine List.perm_middle.trans ?_
    rw [List.append_assoc]
  have hfresh : task.ticket ∉ (w.enlist task id).tickets := by
    have hnodup := (List.nodup_append.mp (List.nodup_append.mp h.nodup).2.1).2.1
    rw [htickets] at hnodup
    exact (List.nodup_cons.mp hnodup).1
  have holds : ∀ p ∈ (w.enlist task id).tickets, p ∈ w.tickets := fun p hp => by
    rw [htickets]
    exact List.mem_cons_of_mem _ hp
  cases hcallable : task.callable with
  | none =>
    -- the handle takes the pin over
    have hsame : (w.enlist task id).places.Perm w.places := by
      refine List.Perm.trans ?_ hplaces.symm
      show (pinsOf (w.scheduler.enlisted task id).handles ++ _).Perm _
      have hpins : pinsOf (w.scheduler.enlisted task id).handles = pinsOf w.scheduler.handles ++ [task.ticket] := by
        simp [enlisted, pinsOf, handleOf, hcallable]
      rw [hpins, List.append_assoc]
      exact List.perm_middle
    refine h.shrink [] ?_ hsame.subperm (fun p hp => ⟨holds p hp, List.not_mem_nil⟩)
      fun p hp _ => hsame.symm.subset hp
    simp [Scene.enlist, Scene.tell, enlisted, hcallable, numbered, releaseAll]
  | some callable =>
    have hpins : pinsOf (w.scheduler.enlisted task id).handles = pinsOf w.scheduler.handles := by
      simp [enlisted, pinsOf, handleOf, hcallable]
    have hbridge : (w.enlist task id).scheduler.bridge = releaseAll w.scheduler.bridge [task.ticket] := by
      simp [Scene.enlist, Scene.tell, enlisted, hcallable, numbered, unpinned, releaseAll]
    have hperm : w.places.Perm (task.ticket :: (w.enlist task id).places) := by
      refine hplaces.trans ?_
      show List.Perm _ (_ :: (pinsOf (w.scheduler.enlisted task id).handles ++ _))
      rw [hpins]
    refine h.shrink [task.ticket] hbridge ((List.sublist_cons_self _ _).subperm.trans hperm.symm.subperm)
      (fun p hp => ⟨holds p hp, fun hmem => hfresh (List.mem_singleton.mp hmem ▸ hp)⟩) fun p hp hlive => ?_
    rw [hbridge, isPinned_releaseAll] at hlive
    exact (List.mem_cons.mp (hperm.subset hp)).resolve_left fun heq => hlive.1 (List.mem_singleton.mpr heq)

theorem Lodged.drop {w : Scene σ α} (h : Lodged w) {call : OpenCall α} {calls : List (OpenCall α)}
    (hcalls : w.calls = call :: calls) (script : String) (id : TaskId) :
    Lodged (w.become (w.scheduler.drop script id)) := by
  have hpins := pinsOf_drop w.scheduler script id
  have hperm := places_become h hcalls hpins
  refine h.shrink _ rfl hperm.subperm (fun p hp => ?_) fun p hp _ => hperm.symm.subset hp
  rw [tickets_become] at hp
  refine ⟨hp, fun hgone => ?_⟩
  exact (List.nodup_append.mp h.nodup).2.2 p (hpins.symm.subset (List.mem_append_left _ hgone)) p
    (List.mem_append_right _ hp) rfl

theorem Lodged.remove {w : Scene σ α} (h : Lodged w) {call : OpenCall α} {calls : List (OpenCall α)}
    (hcalls : w.calls = call :: calls) (script : String) : Lodged (w.become (w.scheduler.without script)) := by
  have hperm := places_become h hcalls (pinsOf_without w.scheduler script)
  refine h.shrink [] rfl hperm.subperm (fun p hp => ?_) fun p hp _ => hperm.symm.subset hp
  rw [tickets_become] at hp
  exact ⟨hp, List.not_mem_nil⟩

theorem Lodged.unpin {w : Scene σ α} (h : Lodged w) {p : PinHandle} (hp : p ∈ w.taken) :
    Lodged { w with scheduler := w.scheduler.unpinned p } := by
  refine h.shrink [p] rfl (List.Subperm.refl _) (fun q hq => ⟨hq, fun hmem => ?_⟩) fun q hq _ => hq
  have hdisjoint := (List.nodup_append.mp (List.nodup_append.mp h.nodup).2.1).2.2
  exact hdisjoint p hp q hq (List.mem_singleton.mp hmem).symm

/-- A call that has taken pins returns: it has released them. -/
theorem Lodged.leave {w : Scene σ α} (h : Lodged w) {call : OpenCall α} {calls : List (OpenCall α)}
    (hcalls : w.calls = call :: calls) (hticket : call.ticket? = none)
    (hreleased : ∀ p ∈ call.taken, w.scheduler.bridge.get? p = none) (e : Occurrence α) :
    Lodged (w.leave.tell e) := by
  have htickets : (w.leave.tell e).tickets = w.tickets := by
    show w.calls.tail.filterMap _ = w.calls.filterMap _
    rw [hcalls, List.filterMap_cons, hticket]
    rfl
  have htaken : w.taken = call.taken ++ (w.leave.tell e).taken := by
    show w.calls.flatMap _ = _ ++ w.calls.tail.flatMap _
    rw [hcalls]
    rfl
  have hplaces : (w.leave.tell e).places.Sublist w.places := by
    unfold Scene.places
    rw [htickets, htaken]
    exact ((List.sublist_append_right _ _).append_right _).append_left _
  refine h.shrink [] rfl hplaces.subperm (fun p hp => ⟨htickets ▸ hp, List.not_mem_nil⟩) fun p hp hlive => ?_
  unfold Scene.places at hp ⊢
  rw [htaken, List.append_assoc, List.mem_append, List.mem_append] at hp
  rw [List.mem_append, htickets]
  refine hp.imp_right fun hp => hp.resolve_left fun htook => ?_
  -- a pin that the call has taken does not live any more
  have hnone := hreleased p htook
  have hsome : w.scheduler.bridge.isPinned p = true := hlive
  rw [ValueBridge.isPinned, hnone] at hsome
  cases hsome

theorem Lodged.conclude {w : Scene σ α} (h : Lodged w) {task : Submission α} {calls : List (OpenCall α)}
    (hcalls : w.calls = { purpose := .invoke task, ran := true } :: calls) : Lodged (w.conclude task) := by
  have htickets : (w.conclude task).tickets = w.tickets := by
    unfold Scene.tickets
    rw [Scene.calls_conclude, hcalls]
    rfl
  have htaken : (w.conclude task).taken = w.taken := by
    unfold Scene.taken
    rw [Scene.calls_conclude, hcalls]
    rfl
  have hhandles : (w.conclude task).scheduler.handles = (w.scheduler.retired task).handles := Scene.handles_conclude
  have hbridge : (w.conclude task).scheduler.bridge = (w.scheduler.retired task).bridge := Scene.bridge_conclude
  -- either the handle of the task goes, with its pin, or nothing does
  rcases retired_cases w.scheduler task with ⟨id, hretired⟩ | hretired
  · rw [hretired] at hhandles hbridge
    have hpins := pinsOf_drop w.scheduler task.script id
    have hplaces : (w.conclude task).places.Subperm w.places := by
      unfold Scene.places
      rw [hhandles, htickets, htaken]
      refine (List.subperm_append_right _).mpr ?_
      exact (List.sublist_append_right _ _).subperm.trans hpins.symm.subperm
    refine h.shrink _ hbridge hplaces (fun p hp => ?_) fun p hp hlive => ?_
    · rw [htickets] at hp
      refine ⟨hp, fun hgone => ?_⟩
      -- no pin has two places, so that of a submission is not the one that goes
      exact (List.nodup_append.mp h.nodup).2.2 p (hpins.symm.subset (List.mem_append_left _ hgone)) p
        (List.mem_append_right _ hp) rfl
    · rw [hbridge] at hlive
      have hkept := (isPinned_releaseAll.mp hlive).1
      unfold Scene.places at hp ⊢
      rw [List.mem_append] at hp
      rw [List.mem_append, hhandles, htickets, htaken]
      refine hp.imp_left fun hp => ?_
      exact (List.mem_append.mp (hpins.subset hp)).resolve_left hkept
  · rw [hretired] at hhandles hbridge
    refine h.of_eq hbridge ?_ htickets
    unfold Scene.places
    rw [hhandles, htickets, htaken]

/-- Every step leaves each live pin with one place. -/
theorem Step.lodged {w w' : Scene σ α} (hstep : Step w w') (h : Lodged w) : Lodged w' := by
  cases hstep with
  | moment => exact h.of_eq rfl rfl rfl
  | own f => exact h.of_eq rfl rfl rfl
  | submit script callable mode _ => exact h.ask script callable mode
  | accept id hcalls => exact h.enlist hcalls id
  | cancel _ => exact h.of_eq rfl rfl rfl
  | drop script id hcalls => exact h.drop hcalls script id
  | cancelled answer hcalls hreleased => exact h.leave hcalls rfl hreleased _
  | cancelAll _ => exact h.of_eq rfl rfl rfl
  | remove script hcalls => exact h.remove hcalls script
  | unpin p hcalls hp =>
    refine h.unpin ?_
    unfold Scene.taken
    rw [hcalls]
    exact List.mem_append_left _ hp
  | cancelledAll summary hcalls hreleased => exact h.leave hcalls rfl hreleased _
  | pass task _ => exact h.of_eq rfl rfl rfl
  | start task _ => exact h.of_eq rfl rfl rfl
  | conclude hcalls => exact h.conclude hcalls
  | abandon _ =>
    refine h.of_eq ?_ ?_ ?_ <;> simp [Scene.abandoned, Scene.tell, Scene.places, Scene.taken, Scene.tickets]

theorem lodged_new (own : σ) : Lodged ({ own } : Scene σ α) where
  nodup := .nil
  issued _ hp := nomatch hp
  place _ hp := nomatch hp
  held _ hp := nomatch hp

theorem Attained.lodged {w : Scene σ α} (h : Attained w) : Lodged w :=
  h.invariant Lodged lodged_new fun _ _ _ hstep => hstep.lodged

/-! ## Spent pins -/

/-- A pin that was issued and holds nothing any more. -/
structure Spent (p : PinHandle) (s : Scheduler α) : Prop where
  issued : p.raw ≤ s.bridge.issued
  gone : s.bridge.get? p = none

theorem bridge_retired (s : Scheduler α) (task : Submission α) :
    ∃ pins, (s.retired task).bridge = releaseAll s.bridge pins := by
  rcases retired_cases s task with ⟨id, h⟩ | h
  · exact ⟨_, congrArg Scheduler.bridge h⟩
  · exact ⟨[], congrArg Scheduler.bridge h⟩

/-- A step issues one pin, or it releases some. -/
theorem Step.bridge {w w' : Scene σ α} (hstep : Step w w') :
    (∃ callable, w'.scheduler.bridge = (w.scheduler.bridge.pin callable).2) ∨
      ∃ pins, w'.scheduler.bridge = releaseAll w.scheduler.bridge pins := by
  cases hstep with
  | submit script callable mode _ => exact .inl ⟨callable, rfl⟩
  | @accept task calls id hcalls =>
    refine .inr ⟨if task.callable.isSome then [task.ticket] else [], ?_⟩
    show (w.scheduler.enlisted task id).bridge = _
    unfold enlisted
    dsimp only
    split <;> rfl
  | @conclude task calls hcalls =>
    obtain ⟨pins, hpins⟩ := bridge_retired w.scheduler task
    exact .inr ⟨pins, Scene.bridge_conclude.trans hpins⟩
  | abandon _ => exact .inr ⟨[], by simp [Scene.abandoned, Scene.tell, releaseAll]⟩
  | drop script id hcalls => exact .inr ⟨_, rfl⟩
  | unpin p hcalls hp => exact .inr ⟨[p], rfl⟩
  | moment | own | cancel | cancelled | cancelAll | remove | cancelledAll | pass | start =>
    exact .inr ⟨[], rfl⟩

theorem get?_of_releaseAll {b : ValueBridge α} {pins : List PinHandle} {p : PinHandle}
    (h : b.get? p = none) : (releaseAll b pins).get? p = none := by
  have hpinned : ¬ (releaseAll b pins).isPinned p = true := fun hlive => by
    have hlive' := (isPinned_releaseAll.mp hlive).2
    rw [ValueBridge.isPinned, h] at hlive'
    cases hlive'
  exact Option.not_isSome_iff_eq_none.mp hpinned

/-- What is spent stays spent: no step issues a pin that was issued before. -/
theorem Step.spent {w w' : Scene σ α} (hstep : Step w w') {p : PinHandle} (h : Spent p w.scheduler) :
    Spent p w'.scheduler := by
  rcases hstep.bridge with ⟨callable, hbridge⟩ | ⟨pins, hbridge⟩
  · have hle := h.issued
    refine ⟨?_, ?_⟩
    · rw [hbridge, ValueBridge.issued_pin]
      omega
    · rw [hbridge, ValueBridge.get?_pin_of_ne _ _ (by omega)]
      exact h.gone
  · refine ⟨?_, ?_⟩
    · rw [hbridge, issued_releaseAll]
      exact h.issued
    · rw [hbridge]
      exact get?_of_releaseAll h.gone

theorem Spent.course {w w' : Scene σ α} {p : PinHandle} (h : Spent p w.scheduler) (hc : Course w w') :
    Spent p w'.scheduler := by
  induction hc with
  | refl => exact h
  | tail _ hlast ih => exact hlast.spent ih

/-- A pin is spent when it is released. -/
theorem spent_unpinned {s : Scheduler α} {p : PinHandle} (h : p.raw ≤ s.bridge.issued) :
    Spent p (s.unpinned p) where
  issued := h
  gone := by
    show (s.bridge.release p).get? p = none
    rw [ValueBridge.get?_release, if_pos rfl]

/-! ## What keeps the scheduler -/

/-- A scheduler that has not ended is kept by something. -/
def Kept (w : Scene σ α) : Prop := w.scheduler.live = true → w.keepers.any = true

theorem kept_settle (w : Scene σ α) : Kept w.settle := by
  unfold Kept Scene.settle
  split
  · next hany => exact fun _ => hany
  · exact fun hlive => nomatch hlive

theorem live_retired (s : Scheduler α) (task : Submission α) : (s.retired task).live = s.live := by
  rcases retired_cases s task with ⟨id, h⟩ | h <;> rw [h]
  rfl

theorem Step.kept {w w' : Scene σ α} (hstep : Step w w') (h : Kept w) : Kept w' := by
  cases hstep with
  | @accept task calls id hcalls =>
    intro hlive
    refine h (Eq.trans ?_ hlive)
    show w.scheduler.live = (w.scheduler.enlisted task id).live
    unfold enlisted
    dsimp only
    split <;> rfl
  | start task _ =>
    intro hlive
    have hany := h hlive
    unfold Scene.start
    dsimp only
    split
    · simp [Keepers.any, Keepers.hold]
    · exact hany
  | @conclude task calls hcalls =>
    show Kept (Scene.letGo _ task)
    unfold Scene.letGo
    split
    · exact kept_settle _
    · exact fun hlive => h ((live_retired w.scheduler task).symm.trans hlive)
  | abandon _ => exact kept_settle _
  | moment | own | submit | cancel | drop | cancelled | cancelAll | remove | unpin | cancelledAll | pass =>
    exact h

theorem Attained.kept {w : Scene σ α} (h : Attained w) : Kept w :=
  h.invariant Kept (fun _ _ => rfl) fun _ _ _ hstep => hstep.kept

/-- A scheduler that has ended does not begin again. -/
theorem Step.ended {w w' : Scene σ α} (hstep : Step w w') (h : w.scheduler.live = false) :
    w'.scheduler.live = false := by
  have hsettle : ∀ v : Scene σ α, v.scheduler.live = false → v.settle.scheduler.live = false := fun v hv => by
    unfold Scene.settle
    split
    · exact hv
    · rfl
  cases hstep with
  | @accept task calls id _ =>
    show (w.scheduler.enlisted task id).live = false
    unfold enlisted
    dsimp only
    split <;> exact h
  | @conclude task _ _ =>
    have hretired : (w.become (w.scheduler.retired task)).scheduler.live = false :=
      (live_retired w.scheduler task).trans h
    show (Scene.letGo _ task).scheduler.live = false
    unfold Scene.letGo
    split
    · exact hsettle _ hretired
    · exact hretired
  | abandon _ => exact hsettle _ h
  | moment | own | submit | cancel | drop | cancelled | cancelAll | remove | unpin | cancelledAll | pass | start =>
    exact h

theorem Step.live {w w' : Scene σ α} (hstep : Step w w') (h : w'.scheduler.live = true) :
    w.scheduler.live = true := by
  cases hlive : w.scheduler.live with
  | true => rfl
  | false => exact (hstep.ended hlive).symm.trans h

end Scheduler
end ScriptHost
