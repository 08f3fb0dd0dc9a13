import Mathlib.Algebra.GroupWithZero.Nat
import ScriptHost.Proofs.Histories
import ScriptHost.Proofs.Tasks.Errand

/-!
# What is outstanding

The scheduler has a list of task handles for each script, the runner a queue of entries. They are updated at
different times: a task that fires for the only time loses its handle when its callable has run, and its entry
after that; a callable may cancel its own task, or all. Still the two agree whenever code is at work, and
between operations (`outstanding_agree`): `Concordant` says on what.
-/

namespace ScriptHost
namespace Tasks

open Scheduler

variable {σ α : Type} {r r' : TickRunner (Submission α)} {s s' : Scheduler α}
  {flying : Option (ℕ × Submission α)} {events : List (Event α)}

/-! ## What the diary says -/

/-- The number given to a task of a script, if the event is its submission. -/
def Event.givenTo? (script : String) : Event α → Option TaskId
  | .submitted owner _ _ (.ok id) => if owner = script then some id else none
  | _ => none

/-- The numbers that were given to tasks of a script, in order. -/
def givenTo (script : String) (events : List (Event α)) : List TaskId :=
  events.filterMap (Event.givenTo? script)

/-- The scheduler and the runner agree on what is outstanding, and with what happened before. -/
structure Concordant (events : List (Event α)) (r : TickRunner (Submission α)) (s : Scheduler α) :
    Prop where
  /-- The task of an entry is tracked for one script. -/
  tracked : ∀ id ∈ r.queue.map Waiting.id,
    ∃! script, ⟨id⟩ ∈ (s.handlesOf script).map TaskHandle.task
  /-- A task that is tracked has an entry. -/
  waiting : ∀ script, ∀ id ∈ (s.handlesOf script).map TaskHandle.task,
    id.raw ∈ r.queue.map Waiting.id
  /-- No task is tracked twice. -/
  once : ∀ script, ((s.handlesOf script).map TaskHandle.task).Nodup
  /-- No two entries have the same number. -/
  distinct : (r.queue.map Waiting.id).Nodup
  pending : ∀ scripts : List String, scripts.Nodup → (∀ k ∈ s.handles, k.script ∈ scripts) →
    r.pending = (scripts.map s.outstanding).sum
  /-- A task has a pin if it was not submitted as an immediate one. -/
  pins : ∀ k ∈ s.handles, ∃ lane mode,
    .submitted k.script lane mode (.ok k.task) ∈ events ∧ (k.pin.isSome ↔ mode ≠ .immediate)
  /-- A task that does not repeat is gone when it has fired. -/
  gone : ∀ script lane mode id, .submitted script lane mode (.ok id) ∈ events →
    (∀ delay period, mode ≠ .repeating delay period) → .ended script (some id) ∈ events →
      (∀ owner, id ∉ (s.handlesOf owner).map TaskHandle.task) ∧ id.raw ∉ r.queue.map Waiting.id

/-- What is claimed of an event, given what happened before. -/
def Event.Sound (before : List (Event α)) : Event α → Prop
  | .moment r s => Concordant before r s
  | .ticked r s => Concordant before r s
  | .submitted _ _ _ answer => ∃ id, answer = .ok id ∧ ∀ script, id ∉ givenTo script before
  | .cancelled _ _ tracked answer => answer = .ok tracked
  | .began script number => ∃ id, number = some id ∧ id ∈ givenTo script before
  | .ended script number => ∃ id, number = some id ∧ .began script (some id) ∈ before
  | _ => True

/-- Every event is as claimed. -/
def AllSound (events : List (Event α)) : Prop :=
  ∀ before e after, events = before ++ e :: after → e.Sound before

theorem allSound_nil : AllSound ([] : List (Event α)) := by
  intro before e after h
  cases before <;> cases h

theorem AllSound.note (h : AllSound events) {e : Event α} (he : e.Sound events) :
    AllSound (events ++ [e]) := by
  intro before e' after heq
  rcases append_singleton_split heq with ⟨-, rfl, rfl⟩ | ⟨after', -, hinit⟩
  · exact he
  · exact h before e' after' hinit

theorem mem_givenTo {script : String} {id : TaskId} :
    id ∈ givenTo script events ↔ ∃ lane mode, .submitted script lane mode (.ok id) ∈ events := by
  unfold givenTo
  rw [List.mem_filterMap]
  constructor
  · rintro ⟨e, he, hid⟩
    unfold Event.givenTo? at hid
    split at hid
    · rename_i owner lane mode id'
      by_cases howner : owner = script
      · rw [if_pos howner] at hid
        obtain rfl := Option.some.inj hid
        exact ⟨lane, mode, howner ▸ he⟩
      · rw [if_neg howner] at hid
        cases hid
    · cases hid
  · rintro ⟨lane, mode, he⟩
    exact ⟨_, he, if_pos rfl⟩

/-! ## Agreement -/

/-- Every handle is counted at its script. -/
theorem sum_length_filter (handles : List TaskHandle) (scripts : List String)
    (hnodup : scripts.Nodup) (hall : ∀ k ∈ handles, k.script ∈ scripts) :
    (scripts.map fun script => (handles.filter fun k => k.script == script).length).sum =
      handles.length := by
  induction scripts generalizing handles with
  | nil =>
    cases handles with
    | nil => rfl
    | cons k handles => exact nomatch hall k List.mem_cons_self
  | cons script scripts ih =>
    obtain ⟨hnew, hnodup⟩ := List.nodup_cons.mp hnodup
    have hothers := ih (handles.filter fun k => k.script != script) hnodup fun k hk => by
      obtain ⟨hk, hne⟩ := List.mem_filter.mp hk
      exact (List.mem_cons.mp (hall k hk)).resolve_left (bne_iff_ne.mp hne)
    -- what the others have is not the first one's
    have hsame : ∀ n ∈ scripts, ((handles.filter fun k => k.script != script).filter fun k =>
        k.script == n) = handles.filter fun k => k.script == n := by
      intro n hn
      have hne : n ≠ script := fun heq => hnew (heq ▸ hn)
      rw [List.filter_filter]
      refine List.filter_congr fun k _ => ?_
      by_cases hkn : k.script = n
      · simp [hkn, hne]
      · simp [hkn]
    rw [List.map_congr_left fun n hn => congrArg List.length (hsame n hn)] at hothers
    rw [List.map_cons, List.sum_cons, hothers]
    exact (List.length_eq_length_filter_add _).symm

/-- The numbers of the handles are those of the entries. -/
theorem mem_ids_iff (h : Agree flying r s) {id : ℕ} :
    id ∈ r.queue.map Waiting.id ↔ ∃ k ∈ s.handles, k.task = ⟨id⟩ := by
  constructor
  · intro hid
    obtain ⟨e, he, rfl⟩ := List.mem_map.mp hid
    obtain ⟨task, htask⟩ : ∃ task, e.task = some task ∨ flying = some (e.id, task) := by
      cases htask : e.task with
      | some task => exact ⟨task, .inl rfl⟩
      | none =>
        obtain ⟨⟨id, task⟩, hflying, hid⟩ :=
          Option.map_eq_some_iff.mp ((h.entries.held e he).mp htask)
        obtain rfl : id = e.id := hid
        exact ⟨task, .inr hflying⟩
    exact ⟨_, (h.tracked e he task htask).handle, rfl⟩
  · rintro ⟨k, hk, htask⟩
    obtain ⟨e, he, hid⟩ := h.waits k hk
    exact List.mem_map.mpr ⟨e, he, by rw [hid, htask]⟩

theorem mem_tasksOf {script : String} {id : TaskId} :
    id ∈ (s.handlesOf script).map TaskHandle.task ↔
      ∃ k ∈ s.handles, k.script = script ∧ k.task = id := by
  simp only [List.mem_map, mem_handlesOf, and_assoc]

theorem isTracked_iff {script : String} {id : TaskId} :
    s.isTracked script id = true ↔ ∃ k ∈ s.handles, k.script = script ∧ k.task = id := by
  unfold Scheduler.isTracked
  simp only [List.any_eq_true, Bool.and_eq_true, beq_iff_eq]

/-- Neither side has a task twice. -/
theorem nodup_ids (h : Agree flying r s) : (r.queue.map Waiting.id).Nodup :=
  List.pairwise_map.mpr (h.entries.ordered.imp Nat.ne_of_lt)

theorem pending_eq (h : Agree flying r s) : r.pending = s.handles.length := by
  have hhandles : (s.handles.map fun k => k.task.raw).Nodup := by
    have hraw := h.nodup.map (f := TaskId.raw) fun id id' heq => by
      cases id; cases id'; exact congrArg TaskId.mk heq
    rwa [List.map_map] at hraw
  have hperm : (r.queue.map Waiting.id).Perm (s.handles.map fun k => k.task.raw) := by
    refine (List.perm_ext_iff_of_nodup (nodup_ids h) hhandles).mpr fun id => ?_
    rw [mem_ids_iff h, List.mem_map]
    constructor
    · rintro ⟨k, hk, htask⟩
      exact ⟨k, hk, by rw [htask]⟩
    · rintro ⟨k, hk, rfl⟩
      exact ⟨k, hk, rfl⟩
  have hlength := hperm.length_eq
  rwa [List.length_map, List.length_map] at hlength

/-- A cancel tells whether the task was tracked for the script. -/
theorem found_eq (h : Agree flying r s) {script : String} {id : TaskId}
    (hown : s.ownedByOther script id = false) :
    (((s.untrack script id).1.bind TaskHandle.pin).isSome || (r.cancel id).1) =
      s.isTracked script id := by
  have hentry : (r.cancel id).1 = true ↔ ∃ k ∈ s.handles, k.task = id := by
    rw [← mem_ids_iff h]
    unfold TickRunner.cancel
    simp only [List.any_eq_true, beq_iff_eq, List.mem_map]
  rw [Bool.eq_iff_iff, Bool.or_eq_true, hentry, isTracked_iff]
  constructor
  · rintro (hpin | ⟨k, hk, htask⟩)
    · obtain ⟨pin, hpin⟩ := Option.isSome_iff_exists.mp hpin
      obtain ⟨k, hfind, _⟩ := Option.bind_eq_some_iff.mp hpin
      exact ⟨k, List.mem_of_find?_eq_some hfind, isFor_iff.mp (List.find?_some hfind)⟩
    · -- the runner had an entry, so there is a handle, and it is not another script's
      exact ⟨k, hk, ownedByOther_eq_false.mp hown k hk htask, htask⟩
  · rintro ⟨k, hk, _, htask⟩
    exact .inr ⟨k, hk, htask⟩

/-- What another script's task is tracked for is that script. -/
theorem isTracked_of_ownedByOther (h : Agree flying r s) {script : String} {id : TaskId}
    (hother : s.ownedByOther script id = true) : s.isTracked script id = false := by
  by_contra htracked
  rw [Bool.not_eq_false, isTracked_iff] at htracked
  obtain ⟨k, hk, hscript, htask⟩ := htracked
  have hown : s.ownedByOther script id = false := by
    refine ownedByOther_eq_false.mpr fun k' hk' htask' => ?_
    rw [h.eq_of_task hk' hk (htask'.trans htask.symm), hscript]
  rw [hown] at hother
  cases hother

/-! ## The ledger -/

theorem interval?_eq_none {mode : Mode} :
    mode.interval? = none ↔ ∀ delay period, mode ≠ .repeating delay period := by
  cases mode <;> simp [Mode.interval?]

/-- How the diary accounts for the handles and the entries, also while a task is firing. -/
structure Ledger (events : List (Event α)) (flying : Option (ℕ × Submission α))
    (r : TickRunner (Submission α)) (s : Scheduler α) : Prop where
  sound : AllSound events
  numbered : ∀ script lane mode id, .submitted script lane mode (.ok id) ∈ events →
    id.raw ≤ r.issued
  unique : ∀ script lane mode script' lane' mode' id,
    .submitted script lane mode (.ok id) ∈ events →
      .submitted script' lane' mode' (.ok id) ∈ events →
        script = script' ∧ lane = lane' ∧ mode = mode'
  pins : ∀ k ∈ s.handles, ∃ lane mode,
    .submitted k.script lane mode (.ok k.task) ∈ events ∧ (k.pin.isSome ↔ mode ≠ .immediate)
  intervals : ∀ e ∈ r.queue, ∃ script lane mode,
    .submitted script lane mode (.ok ⟨e.id⟩) ∈ events ∧ e.interval = mode.interval?
  flies : ∀ id task, flying = some (id, task) → .began task.script (some ⟨id⟩) ∈ events ∧
    ∃ lane mode, .submitted task.script lane mode (.ok ⟨id⟩) ∈ events ∧
      (mode.interval? = none ↔ task.callable.isSome ∨ task.oneShot)
  fired : ∀ script id, .ended script (some id) ∈ events → id.raw ≤ r.issued
  gone : ∀ script lane mode id, .submitted script lane mode (.ok id) ∈ events →
    mode.interval? = none → .ended script (some id) ∈ events → ∀ k ∈ s.handles, k.task ≠ id

theorem ledger_empty : Ledger [] none ({} : TickRunner (Submission α)) ({} : Scheduler α) where
  sound := allSound_nil
  numbered _ _ _ _ h := nomatch h
  unique _ _ _ _ _ _ _ h := nomatch h
  pins _ h := nomatch h
  intervals _ h := nomatch h
  flies _ _ h := nomatch h
  fired _ _ h := nomatch h
  gone _ _ _ _ h := nomatch h

/-- What the ledger accounts for is in agreement. -/
theorem Ledger.concordant (hl : Ledger events flying r s) (h : Agree flying r s) :
    Concordant events r s where
  tracked id hid := by
    obtain ⟨k, hk, htask⟩ := (mem_ids_iff h).mp hid
    refine ⟨k.script, mem_tasksOf.mpr ⟨k, hk, rfl, htask⟩, fun script hscript => ?_⟩
    obtain ⟨k', hk', rfl, htask'⟩ := mem_tasksOf.mp hscript
    rw [h.eq_of_task hk' hk (htask'.trans htask.symm)]
  waiting script id hid := by
    obtain ⟨k, hk, _, htask⟩ := mem_tasksOf.mp hid
    exact (mem_ids_iff h).mpr ⟨k, hk, htask⟩
  once script := h.nodup.sublist ((List.filter_sublist).map _)
  distinct := nodup_ids h
  pending scripts hnodup hall := by
    rw [pending_eq h]
    exact (sum_length_filter s.handles scripts hnodup hall).symm
  pins := hl.pins
  gone script lane mode id hid honce hended := by
    have hgone := hl.gone script lane mode id hid (interval?_eq_none.mpr honce) hended
    constructor
    · intro owner htracked
      obtain ⟨k, hk, _, htask⟩ := mem_tasksOf.mp htracked
      exact hgone k hk htask
    · intro hentry
      obtain ⟨k, hk, htask⟩ := (mem_ids_iff h).mp hentry
      exact hgone k hk htask

/-! ## What happens besides submissions and firings -/

/-- The event is neither a submission nor the end of a firing. -/
def Event.IsPlain : Event α → Prop
  | .submitted _ _ _ (.ok _) => False
  | .ended _ _ => False
  | _ => True

theorem Event.IsPlain.mem_submitted {e : Event α} (hplain : e.IsPlain) {script : String} {lane : Lane}
    {mode : Mode} {id : TaskId} : .submitted script lane mode (.ok id) ∈ events ++ [e] ↔
      .submitted script lane mode (.ok id) ∈ events := by
  rw [List.mem_append, List.mem_singleton]
  refine or_iff_left fun heq => ?_
  rw [← heq] at hplain
  exact hplain

theorem Event.IsPlain.mem_ended {e : Event α} (hplain : e.IsPlain) {script : String}
    {id : Option TaskId} : .ended script id ∈ events ++ [e] ↔ .ended script id ∈ events := by
  rw [List.mem_append, List.mem_singleton]
  refine or_iff_left fun heq => ?_
  rw [← heq] at hplain
  exact hplain

theorem Ledger.note (hl : Ledger events flying r s) {e : Event α} (hsound : e.Sound events)
    (hplain : e.IsPlain) : Ledger (events ++ [e]) flying r s where
  sound := hl.sound.note hsound
  numbered script lane mode id hid :=
    hl.numbered script lane mode id (hplain.mem_submitted.mp hid)
  unique script lane mode script' lane' mode' id hid hid' :=
    hl.unique script lane mode script' lane' mode' id (hplain.mem_submitted.mp hid)
      (hplain.mem_submitted.mp hid')
  pins k hk := by
    obtain ⟨lane, mode, hid, hpin⟩ := hl.pins k hk
    exact ⟨lane, mode, List.mem_append_left _ hid, hpin⟩
  intervals e he := by
    obtain ⟨script, lane, mode, hid, hn⟩ := hl.intervals e he
    exact ⟨script, lane, mode, List.mem_append_left _ hid, hn⟩
  flies id task hf := by
    obtain ⟨hbegan, lane, mode, hid, honce⟩ := hl.flies id task hf
    exact ⟨List.mem_append_left _ hbegan, lane, mode, List.mem_append_left _ hid, honce⟩
  fired script id hended := hl.fired script id (hplain.mem_ended.mp hended)
  gone script lane mode id hid honce hended :=
    hl.gone script lane mode id (hplain.mem_submitted.mp hid) honce (hplain.mem_ended.mp hended)

/-- Handles and entries may go, and entries may change but for their numbers and intervals. -/
theorem Ledger.shrink (hl : Ledger events flying r s) (hissued : r'.issued = r.issued)
    (hqueue : ∀ e ∈ r'.queue, ∃ e₀ ∈ r.queue, e₀.id = e.id ∧ e₀.interval = e.interval)
    (hhandles : ∀ k ∈ s'.handles, k ∈ s.handles) : Ledger events flying r' s' where
  sound := hl.sound
  numbered := hissued ▸ hl.numbered
  unique := hl.unique
  pins k hk := hl.pins k (hhandles k hk)
  intervals e he := by
    obtain ⟨e₀, he₀, hid, hn⟩ := hqueue e he
    rw [← hid, ← hn]
    exact hl.intervals e₀ he₀
  flies := hl.flies
  fired := hissued ▸ hl.fired
  gone script lane mode id hid honce hended k hk :=
    hl.gone script lane mode id hid honce hended k (hhandles k hk)

/-! ## Submissions -/

theorem mem_note_submitted {script script' : String} {lane lane' : Lane} {mode mode' : Mode}
    {id id' : TaskId} :
    .submitted script' lane' mode' (.ok id') ∈ events ++ [.submitted script lane mode (.ok id)] ↔
      .submitted script' lane' mode' (.ok id') ∈ events ∨
        script' = script ∧ lane' = lane ∧ mode' = mode ∧ id' = id := by
  rw [List.mem_append, List.mem_singleton, Event.submitted.injEq, Except.ok.injEq]

theorem Ledger.submit (hl : Ledger events flying r s) (script : String) (callable : α) (lane : Lane)
    (mode : Mode) :
    Ledger (events ++ [.submitted script lane mode (.ok ⟨r.issued + 1⟩)]) flying
      (r.submit (s.submission script callable mode) lane mode).2
      (s.enroll script callable mode ⟨r.issued + 1⟩) := by
  -- the new number is not an old one
  have hnew : ∀ script' lane' mode', .submitted script' lane' mode' (.ok ⟨r.issued + 1⟩) ∉ events := by
    intro script' lane' mode' hid
    have hle : r.issued + 1 ≤ r.issued := hl.numbered script' lane' mode' _ hid
    omega
  have hended : ∀ script' id, .ended script' (some id) ∈
      events ++ [.submitted script lane mode (.ok ⟨r.issued + 1⟩)] →
        .ended script' (some id) ∈ events := by
    intro script' id hmem
    rw [List.mem_append, List.mem_singleton] at hmem
    exact hmem.resolve_right fun heq => nomatch heq
  constructor
  case sound =>
    refine hl.sound.note ⟨_, rfl, fun script' hid => ?_⟩
    obtain ⟨lane', mode', hid⟩ := mem_givenTo.mp hid
    exact hnew script' lane' mode' hid
  case numbered =>
    intro script' lane' mode' id hid
    rcases mem_note_submitted.mp hid with hid | ⟨_, _, _, rfl⟩
    · exact Nat.le_succ_of_le (hl.numbered script' lane' mode' id hid)
    · exact Nat.le_refl _
  case unique =>
    intro script₁ lane₁ mode₁ script₂ lane₂ mode₂ id h₁ h₂
    rcases mem_note_submitted.mp h₁ with h₁ | ⟨rfl, rfl, rfl, rfl⟩
    · rcases mem_note_submitted.mp h₂ with h₂ | ⟨_, _, _, rfl⟩
      · exact hl.unique script₁ lane₁ mode₁ script₂ lane₂ mode₂ id h₁ h₂
      · exact absurd h₁ (hnew script₁ lane₁ mode₁)
    · rcases mem_note_submitted.mp h₂ with h₂ | ⟨rfl, rfl, rfl, _⟩
      · exact absurd h₂ (hnew script₂ lane₂ mode₂)
      · exact ⟨rfl, rfl, rfl⟩
  case pins =>
    intro k hk
    rcases List.mem_append.mp hk with hk | hk
    · obtain ⟨lane', mode', hid, hpin⟩ := hl.pins k hk
      exact ⟨lane', mode', List.mem_append_left _ hid, hpin⟩
    · rw [List.mem_singleton.mp hk]
      refine ⟨lane, mode, List.mem_append_right _ (List.mem_singleton.mpr rfl), ?_⟩
      cases mode <;> simp [Mode.isTracked]
  case intervals =>
    intro e he
    rcases TickRunner.mem_submit.mp he with he | rfl
    · obtain ⟨script', lane', mode', hid, hn⟩ := hl.intervals e he
      exact ⟨script', lane', mode', List.mem_append_left _ hid, hn⟩
    · exact ⟨script, lane, mode, List.mem_append_right _ (List.mem_singleton.mpr rfl), rfl⟩
  case flies =>
    intro id task hf
    obtain ⟨hbegan, lane', mode', hid, honce⟩ := hl.flies id task hf
    exact ⟨List.mem_append_left _ hbegan, lane', mode', List.mem_append_left _ hid, honce⟩
  case fired =>
    intro script' id hmem
    exact Nat.le_succ_of_le (hl.fired script' id (hended script' id hmem))
  case gone =>
    intro script' lane' mode' id hid honce hmem k hk htask
    have hfired := hl.fired script' id (hended script' id hmem)
    -- a task that has fired is an old one, and so is its handle
    rcases mem_note_submitted.mp hid with hid | ⟨_, _, _, rfl⟩
    · rcases List.mem_append.mp hk with hk | hk
      · exact hl.gone script' lane' mode' id hid honce (hended script' id hmem) k hk htask
      · rw [List.mem_singleton.mp hk] at htask
        rw [← htask] at hfired
        exact absurd hfired (Nat.not_succ_le_self _)
    · exact absurd hfired (Nat.not_succ_le_self _)

/-! ## Firings -/

variable {id now : ℕ} {task : Submission α}

/-- The turn of a task begins. -/
theorem Ledger.launch (hl : Ledger events none r s) (h : Agree none r s)
    (htask : r.task? id = some task) :
    Ledger (events ++ [.began task.script (some ⟨id⟩)]) (some (id, task)) (r.take id) s := by
  obtain ⟨hhandle, _⟩ := h.take htask
  obtain ⟨e, he, rfl, hheld⟩ := TickRunner.task?_eq_some htask
  -- the handle and the entry were submitted as one
  obtain ⟨lane, mode, hid, _⟩ := hl.pins _ hhandle
  obtain ⟨script', lane', mode', hid', hinterval⟩ := hl.intervals e he
  obtain ⟨_, _, rfl⟩ := hl.unique _ _ _ _ _ _ _ hid hid'
  have honce := (h.tracked e he task (.inl hheld)).once
  rw [hinterval] at honce
  have hsound : (Event.began task.script (some ⟨e.id⟩)).Sound events :=
    ⟨_, rfl, mem_givenTo.mpr ⟨lane, mode, hid⟩⟩
  have htaken : Ledger (events ++ [.began task.script (some ⟨e.id⟩)]) none (r.take e.id) s := by
    refine (hl.note hsound trivial).shrink rfl (fun e' he' => ?_) fun k hk => hk
    rcases TickRunner.mem_take.mp he' with ⟨he', _⟩ | ⟨e₀, he₀, _, rfl⟩
    · exact ⟨e', he', rfl, rfl⟩
    · exact ⟨e₀, he₀, rfl, rfl⟩
  exact { htaken with
    flies := fun id' task' hf => by
      obtain ⟨rfl, rfl⟩ := Prod.mk.inj (Option.some.inj hf)
      exact ⟨List.mem_append_right _ (List.mem_singleton.mpr rfl), lane, mode,
        List.mem_append_left _ hid, honce⟩ }

/-- The turn of a task ends. -/
theorem Ledger.land (hl : Ledger events (some (id, task)) r s) (h : Agree (some (id, task)) r s)
    (hs : s' = if task.callable.isSome || task.oneShot then s.drop task.script ⟨id⟩ else s) :
    Ledger (events ++ [.ended task.script (some ⟨id⟩)]) none (r.settle now id task) s' := by
  have hsub : ∀ k ∈ s'.handles, k ∈ s.handles := by
    intro k hk
    rw [hs] at hk
    split at hk
    · exact List.mem_of_mem_eraseP hk
    · exact hk
  have hsettled : Ledger events (some (id, task)) (r.settle now id task) s' := by
    refine hl.shrink rfl (fun e he => ?_) hsub
    rcases TickRunner.mem_settle.mp he with ⟨he, _⟩ | ⟨e₀, he₀, _, n, _, rfl⟩
    · exact ⟨e, he, rfl, rfl⟩
    · exact ⟨e₀, he₀, rfl, rfl⟩
  obtain ⟨hbegan, lane, mode, hid, honce⟩ := hl.flies id task rfl
  have hsubmitted : ∀ {script lane mode i}, .submitted script lane mode (.ok i) ∈
      events ++ [.ended task.script (some ⟨id⟩)] → .submitted script lane mode (.ok i) ∈ events := by
    intro script lane mode i hmem
    rw [List.mem_append, List.mem_singleton] at hmem
    exact hmem.resolve_right fun heq => nomatch heq
  constructor
  case sound => exact hl.sound.note ⟨_, rfl, hbegan⟩
  case numbered =>
    intro script lane mode i hmem
    exact hsettled.numbered script lane mode i (hsubmitted hmem)
  case unique =>
    intro script lane mode script' lane' mode' i h₁ h₂
    exact hsettled.unique script lane mode script' lane' mode' i (hsubmitted h₁) (hsubmitted h₂)
  case pins =>
    intro k hk
    obtain ⟨lane, mode, hid, hpin⟩ := hsettled.pins k hk
    exact ⟨lane, mode, List.mem_append_left _ hid, hpin⟩
  case intervals =>
    intro e he
    obtain ⟨script, lane, mode, hid, hn⟩ := hsettled.intervals e he
    exact ⟨script, lane, mode, List.mem_append_left _ hid, hn⟩
  case flies => exact fun _ _ hf => nomatch hf
  case fired =>
    intro script i hmem
    rcases List.mem_append.mp hmem with hmem | hmem
    · exact hsettled.fired script i hmem
    · obtain ⟨_, hi⟩ := Event.ended.inj (List.mem_singleton.mp hmem)
      obtain rfl := Option.some.inj hi
      exact hsettled.numbered _ _ _ _ hid
  case gone =>
    intro script lane' mode' i hmem hnone hend k hk htask
    rcases List.mem_append.mp hend with hend | hend
    · exact hsettled.gone script lane' mode' i (hsubmitted hmem) hnone hend k hk htask
    · obtain ⟨_, hi⟩ := Event.ended.inj (List.mem_singleton.mp hend)
      obtain rfl := Option.some.inj hi
      -- a task that does not repeat has lost its handle
      obtain ⟨_, _, rfl⟩ := hl.unique _ _ _ _ _ _ _ (hsubmitted hmem) hid
      have hdropped : s' = s.drop task.script ⟨id⟩ := by
        rw [hs, if_pos (by simpa using honce.mp hnone)]
      rw [hdropped] at hk
      exact h.not_mem_drop h.flying_owned hk htask

/-! ## Every run -/

/-- The diary of a host accounts for its tasks. -/
def Accounts (sit : Situation α) (h : Host (Diary σ α) α) : Prop :=
  Ledger h.guest.events sit.flying h.runner h.scheduler

theorem steady_accounts : Steady (Accounts (σ := σ) (α := α)) := by
  constructor
  case log => exact fun hl _ => hl
  case think => exact fun hl _ => hl
  case moment =>
    intro sit h hagree hl
    exact Ledger.note hl (hl.concordant hagree) trivial
  case submit =>
    intro sit h hagree hl script callable lane mode
    exact Ledger.submit hl script callable lane mode
  case decline =>
    intro sit h hagree hl script id hother
    have htracked := isTracked_of_ownedByOther hagree hother
    exact Ledger.note hl (congrArg Except.ok htracked.symm) trivial
  case cancel =>
    intro sit h hagree hl script id hown
    -- what the cancel answers is whether the task was tracked for the script
    have hsound : (Event.cancelled script id (h.scheduler.isTracked script id)
        (.ok (((h.scheduler.untrack script id).1.bind TaskHandle.pin).isSome ||
          (h.runner.cancel id).1))).Sound h.guest.events := congrArg Except.ok (found_eq hagree hown)
    exact (Ledger.note hl hsound trivial).shrink rfl
      (fun e he => ⟨e, (TickRunner.mem_cancel.mp he).1, rfl, rfl⟩)
      fun k hk => List.mem_of_mem_eraseP hk
  case cancelAll =>
    intro sit h hagree hl script
    have hnoted := Ledger.note hl
      (e := .cancelledAll script ⟨h.scheduler.outstanding script,
        (pinsOf (h.scheduler.handlesOf script)).length⟩) trivial trivial
    exact hnoted.shrink (issued_cancelEach _ _)
      (fun e he => ⟨e, (mem_cancelEach.mp he).1, rfl, rfl⟩) fun k hk => (mem_dropAll.mp hk).1
  case dawn =>
    intro h hagree hl
    have hnoted := Ledger.note hl (e := .dawned) trivial trivial
    exact hnoted.shrink rfl (fun e he => ⟨e, he, rfl, rfl⟩) fun k hk => hk
  case skip => exact fun _ hl _ => hl
  case launch =>
    intro h id task rest hagree hl htask
    exact Ledger.launch hl hagree htask
  case land =>
    intro h id task rest hagree hl
    exact Ledger.land hl hagree rfl
  case dusk =>
    intro h hagree hl
    exact Ledger.note hl (hl.concordant hagree) trivial

/-- **Scheduler and runner agree on what is outstanding.** Whatever the host and the tasks do, at every moment at
which code is at work, after every tick, and whenever no operation is in progress, the tasks that are tracked are
those that wait in the runner, each tracked once and for one script; tasks have a pin if they are not immediate
ones, and those that do not repeat are gone when they have fired. A submission is answered with a new number, and
a cancel with whether the task was tracked for the script. -/
theorem outstanding_agree (body : α → Errand σ α) (turns : List (Turn σ α)) (own : σ) :
    let h := run body turns own
    Concordant h.guest.events h.runner h.scheduler ∧
      ∀ before e after, h.guest.events = before ++ e :: after → e.Sound before := by
  intro h
  have hrun : Holds Accounts .between h := (steady_accounts.run body turns own ledger_empty).1
  have hledger : Ledger h.guest.events none h.runner h.scheduler := hrun.holds
  exact ⟨hledger.concordant hrun.agree, hledger.sound⟩

end Tasks
end ScriptHost
