import ScriptHost.Proofs.Scheduler.Others
import ScriptHost.Proofs.SideBySide
import ScriptHost.Proofs.Tasks.Outstanding
import ScriptHost.Proofs.Tasks.Timetable
import ScriptHost.Proofs.TickRunner.Standing

/-!
# What a script sees

The tale of a script is told from the diary, by a teller who knows the numbers that the script was given. Its
timetable mirrors what the scheduler and the runner have of the script (`Mirror`): its handles, its entries and
those of them that have their turns ahead, each in order. What is done for others does not show in the mirror
(`Mirror.others`); what is done for the script shows as a step of the timetable.
-/

namespace ScriptHost
namespace Tasks

open Scheduler

variable {σ α : Type}

/-! ## Telling -/

/-- What a teller knows: the numbers given to the script, the ticks that have passed or begun, how many of the
script's tasks have had their turns in this tick, and where code would act for the script. -/
structure Teller where
  ids : List TaskId := []
  ticks : ℕ := 0
  turns : ℕ := 0
  place : Place := .between 0

/-- The rank of a task of the script. What was not given to the script has no rank, which is told as the next. -/
def Teller.rank (t : Teller) (id : TaskId) : ℕ := t.ids.idxOf id

/-- Hear of an event, and tell what the script sees of it. -/
def Teller.hear (a : String) (t : Teller) : Event α → Teller × List Item
  | .submitted script lane mode answer =>
    if script = a then
      ({ t with ids := t.ids ++ answer.toOption.toList },
        [.submitted t.place lane mode answer.toOption.isSome])
    else (t, [])
  | .cancelled script id _ answer =>
    if script = a then (t, [.cancelled t.place (t.rank id) answer]) else (t, [])
  | .cancelledAll script summary =>
    if script = a then (t, [.cancelledAll t.place summary]) else (t, [])
  | .dawned =>
    ({ t with ticks := t.ticks + 1, turns := 0, place := .beside (t.ticks + 1) 0 },
      [.dawned (t.ticks + 1)])
  | .began script (some id) =>
    if script = a then
      ({ t with turns := t.turns + 1, place := .during t.ticks (t.rank id) },
        [.began t.ticks (t.rank id)])
    else (t, [])
  | .ended script (some id) =>
    if script = a then
      ({ t with place := .beside t.ticks t.turns }, [.ended t.ticks (t.rank id)])
    else (t, [])
  | .ticked _ s =>
    ({ t with place := .between t.ticks },
      [.ticked t.ticks ((s.handlesOf a).map fun k => k.pin.isSome)])
  | _ => (t, [])

/-- A teller who has heard of all events, and the tale. -/
def told (a : String) (events : List (Event α)) : Teller × List Item :=
  events.foldl (fun told e => ((told.1.hear a e).1, told.2 ++ (told.1.hear a e).2)) ({}, [])

/-- The tale of a script. -/
def taleOf (a : String) (events : List (Event α)) : List Item := (told a events).2

theorem told_note (a : String) (events : List (Event α)) (e : Event α) :
    told a (events ++ [e]) = (((told a events).1.hear a e).1,
      (told a events).2 ++ ((told a events).1.hear a e).2) := by
  unfold told
  rw [List.foldl_append]
  rfl

/-! ## Ranks -/

/-- The rank of a number is its place in the list. -/
theorem eq_idxOf_iff {ids : List TaskId} (hnodup : ids.Nodup) {rank : ℕ} {x id : TaskId}
    (hrank : ids[rank]? = some x) : rank = ids.idxOf id ↔ x = id := by
  obtain ⟨hlt, rfl⟩ := List.getElem?_eq_some_iff.mp hrank
  constructor
  · rintro rfl
    exact List.getElem_idxOf hlt
  · rintro rfl
    exact (hnodup.idxOf_getElem rank hlt).symm

/-! ## The mirror -/

variable {a : String} {sit : Situation α} {t : Teller} {T : Timetable}
  {r r' : TickRunner (Submission α)} {s s' : Scheduler α} {id : TaskId}

/-- A task of the timetable has a handle. -/
structure OwnTask.Handle (ids : List TaskId) (k : TaskHandle) (u : OwnTask) : Prop where
  rank : ids[u.rank]? = some k.task
  pin : k.pin.isSome = u.hasPin

/-- A task of the timetable has an entry. -/
structure OwnTask.Entry (ids : List TaskId) (e : Waiting (Submission α)) (u : OwnTask) : Prop where
  rank : ids[u.rank]? = some ⟨e.id⟩
  lane : e.lane = u.lane
  due : e.due = u.due
  interval : e.interval = u.interval

/-- The numbers that have their turns ahead, or have them now. -/
def Situation.turns : Situation α → List ℕ
  | .between => []
  | .waiting rest => rest
  | .firing id _ rest => id :: rest

/-- The numbers that have their turns ahead. -/
def Situation.rest : Situation α → List ℕ
  | .between => []
  | .waiting rest => rest
  | .firing _ _ rest => rest

/-- A timetable shows a situation: of the tasks that fire, only the script's own. -/
def Situation.Shows (a : String) (ids : List TaskId) : Situation α → Stage → Prop
  | .between, stage => stage = .between
  | .waiting _, stage => stage = .waiting
  | .firing id task _, stage =>
    if task.script = a then ∃ rank, ids[rank]? = some ⟨id⟩ ∧ stage = .firing rank
    else ⟨id⟩ ∉ ids ∧ stage = .waiting

theorem Situation.shows_own {a : String} {ids : List TaskId} {id : ℕ} {task : Submission α}
    {rest : List ℕ} {stage : Stage} (hscript : task.script = a) :
    (Situation.firing id task rest).Shows a ids stage ↔
      ∃ rank, ids[rank]? = some ⟨id⟩ ∧ stage = .firing rank := by
  unfold Situation.Shows
  exact iff_of_eq (if_pos hscript)

theorem Situation.shows_other {a : String} {ids : List TaskId} {id : ℕ} {task : Submission α}
    {rest : List ℕ} {stage : Stage} (hscript : task.script ≠ a) :
    (Situation.firing id task rest).Shows a ids stage ↔ ⟨id⟩ ∉ ids ∧ stage = .waiting := by
  unfold Situation.Shows
  exact iff_of_eq (if_neg hscript)

/-- The entries of the tasks of some numbers. -/
def entriesOf (ids : List TaskId) (r : TickRunner (Submission α)) : List (Waiting (Submission α)) :=
  r.queue.filter fun e => decide (⟨e.id⟩ ∈ ids)

/-- A timetable mirrors what scheduler and runner have of a script. -/
structure Mirror (a : String) (sit : Situation α) (t : Teller) (T : Timetable)
    (r : TickRunner (Submission α)) (s : Scheduler α) : Prop where
  now : T.now = r.now
  ticks : t.ticks = T.now
  turns : t.turns = T.turns
  place : t.place = T.place
  count : t.ids.length = T.count
  stage : sit.Shows a t.ids T.stage
  nodup : t.ids.Nodup
  issued : ∀ id ∈ t.ids, id.raw ≤ r.issued
  once : sit.turns.Nodup
  due : ∀ i ∈ sit.turns, i ≤ r.issued
  handles : List.Forall₂ (OwnTask.Handle t.ids) (s.handlesOf a) T.tasks
  entries : List.Forall₂ (OwnTask.Entry t.ids) (entriesOf t.ids r) T.tasks
  todo : List.Forall₂ (fun i rank => t.ids[rank]? = some ⟨i⟩)
    (sit.rest.filter fun i => s.isTracked a ⟨i⟩) T.todo

theorem mirror_empty (a : String) : Mirror a .between {} {} ({} : TickRunner (Submission α))
    ({} : Scheduler α) where
  now := rfl
  ticks := rfl
  turns := rfl
  place := rfl
  count := rfl
  stage := rfl
  nodup := .nil
  issued _ h := nomatch h
  once := .nil
  due _ h := nomatch h
  handles := .nil
  entries := .nil
  todo := .nil

/-- What is tracked for the script shows in its handles alone. -/
theorem isTracked_eq_any (s : Scheduler α) (a : String) (id : TaskId) :
    s.isTracked a id = (s.handlesOf a).any fun k => k.task == id := by
  unfold Scheduler.isTracked handlesOf
  rw [List.any_filter]

/-- A timetable has the tasks that are tracked. -/
theorem Mirror.has_rank (hm : Mirror a sit t T r s) (id : TaskId) :
    T.has (t.rank id) = s.isTracked a id := by
  unfold Timetable.has Teller.rank
  rw [isTracked_eq_any, Bool.eq_iff_iff, List.any_eq_true, List.any_eq_true]
  constructor
  · rintro ⟨u, hu, hrank⟩
    obtain ⟨k, hk, hku⟩ := mem_right_of_forall₂ hm.handles hu
    exact ⟨k, hk, beq_iff_eq.mpr ((eq_idxOf_iff hm.nodup hku.rank).mp (beq_iff_eq.mp hrank))⟩
  · rintro ⟨k, hk, htask⟩
    obtain ⟨u, hu, hku⟩ := mem_left_of_forall₂ hm.handles hk
    exact ⟨u, hu, beq_iff_eq.mpr ((eq_idxOf_iff hm.nodup hku.rank).mpr (beq_iff_eq.mp htask))⟩

/-- An entry under a number of the script is that of a task that is tracked for it. -/
theorem Mirror.tracked_of_entry (hm : Mirror a sit t T r s) {e : Waiting (Submission α)}
    (he : e ∈ r.queue) (hid : ⟨e.id⟩ ∈ t.ids) : s.isTracked a ⟨e.id⟩ = true := by
  have hmem : e ∈ entriesOf t.ids r := List.mem_filter.mpr ⟨he, decide_eq_true hid⟩
  obtain ⟨u, hu, heu⟩ := mem_left_of_forall₂ hm.entries hmem
  obtain ⟨k, hk, hku⟩ := mem_right_of_forall₂ hm.handles hu
  have htask : (⟨e.id⟩ : TaskId) = k.task := Option.some.inj (heu.rank.symm.trans hku.rank)
  rw [isTracked_eq_any, List.any_eq_true]
  exact ⟨k, hk, beq_iff_eq.mpr htask.symm⟩

/-- What is tracked for the script was given to it. -/
theorem Mirror.given_of_tracked (hm : Mirror a sit t T r s) (htracked : s.isTracked a id = true) :
    id ∈ t.ids := by
  rw [isTracked_eq_any, List.any_eq_true] at htracked
  obtain ⟨k, hk, htask⟩ := htracked
  obtain ⟨u, _, hku⟩ := mem_left_of_forall₂ hm.handles hk
  rw [← beq_iff_eq.mp htask]
  exact List.mem_of_getElem? hku.rank

/-! ## What others do -/

/-- What is done for others does not show. -/
theorem Mirror.others (hm : Mirror a sit t T r s) (hnow : r'.now = r.now)
    (hissued : r.issued ≤ r'.issued) (hhandles : s'.handlesOf a = s.handlesOf a)
    (hentries : entriesOf t.ids r' = entriesOf t.ids r) : Mirror a sit t T r' s' where
  now := hm.now.trans hnow.symm
  ticks := hm.ticks
  turns := hm.turns
  place := hm.place
  count := hm.count
  stage := hm.stage
  nodup := hm.nodup
  issued id hid := Nat.le_trans (hm.issued id hid) hissued
  once := hm.once
  due i hi := Nat.le_trans (hm.due i hi) hissued
  handles := hhandles ▸ hm.handles
  entries := hentries ▸ hm.entries
  todo := by
    have hsame : (fun i => s'.isTracked a ⟨i⟩) = fun i => s.isTracked a ⟨i⟩ := by
      funext i
      rw [isTracked_eq_any, isTracked_eq_any, hhandles]
    rw [hsame]
    exact hm.todo

theorem Mirror.submit_other (hm : Mirror a sit t T r s) {script : String} (hother : script ≠ a)
    (callable : α) (lane : Lane) (mode : Mode) :
    Mirror a sit t T (r.submit (s.submission script callable mode) lane mode).2
      (s.enroll script callable mode ⟨r.issued + 1⟩) := by
  refine hm.others rfl (Nat.le_succ _) ?_ ?_
  · show (s.handles ++ [_]).filter _ = s.handles.filter _
    rw [List.filter_append, List.filter_cons_of_neg (by simpa using hother)]
    exact List.append_nil _
  · -- the new number was not given to the script
    have hnew : (⟨r.issued + 1⟩ : TaskId) ∉ t.ids := fun hid =>
      Nat.not_succ_le_self _ (hm.issued _ hid)
    show (r.queue ++ [_]).filter _ = r.queue.filter _
    rw [List.filter_append, List.filter_cons_of_neg (by simpa using hnew)]
    exact List.append_nil _

/-- Dropping the task of another script leaves the handles of this one. -/
theorem handlesOf_drop_other {script : String} (hother : script ≠ a) (s : Scheduler α) (id : TaskId) :
    (s.drop script id).handlesOf a = s.handlesOf a := by
  refine filter_eraseP fun k hk => ?_
  rw [(isFor_iff.mp hk).1]
  exact beq_eq_false_iff_ne.mpr hother

/-- What another script cancels is not the script's own. -/
theorem Mirror.cancel_other (hm : Mirror a sit t T r s) {script : String} (hother : script ≠ a)
    (hown : s.ownedByOther script id = false) :
    Mirror a sit t T (r.cancel id).2 (s.drop script id) := by
  refine hm.others rfl (Nat.le_refl _) (handlesOf_drop_other hother s id) ?_
  show (r.queue.filter _).filter _ = r.queue.filter _
  rw [List.filter_filter]
  refine List.filter_congr fun e he => ?_
  by_cases hid : (⟨e.id⟩ : TaskId) ∈ t.ids
  · -- an entry of this script has a handle, and the cancel would have been declined
    have hne : e.id ≠ id.raw := by
      intro heq
      obtain ⟨k, hk, hscript, htask⟩ := isTracked_iff.mp (hm.tracked_of_entry he hid)
      have hscript' := ownedByOther_eq_false.mp hown k hk (htask.trans (congrArg TaskId.mk heq))
      exact hother (hscript'.symm.trans hscript)
    simp [hid, hne]
  · simp [hid]

theorem Mirror.cancelAll_other (hm : Mirror a sit t T r s) (h : Agree sit.flying r s)
    {script : String} (hother : script ≠ a) :
    Mirror a sit t T (cancelEach r ((s.handlesOf script).map TaskHandle.task)) (s.dropAll script) := by
  refine hm.others (now_cancelEach _ _) (Nat.le_of_eq (issued_cancelEach _ _).symm) ?_ ?_
  · show (s.handles.filter _).filter _ = s.handles.filter _
    rw [List.filter_filter]
    refine List.filter_congr fun k _ => ?_
    by_cases hk : k.script = a
    · simp [hk, Ne.symm hother]
    · simp [hk]
  · unfold entriesOf
    rw [queue_cancelEach, List.filter_filter]
    refine List.filter_congr fun e he => ?_
    by_cases hid : (⟨e.id⟩ : TaskId) ∈ t.ids
    · obtain ⟨k, hk, hscript, htask⟩ := isTracked_iff.mp (hm.tracked_of_entry he hid)
      -- no task is tracked for two scripts
      have hkept : ∀ i ∈ (s.handlesOf script).map TaskHandle.task, e.id ≠ i.raw := by
        rintro i hi heq
        obtain ⟨k', hk', hscript', rfl⟩ := mem_tasksOf.mp hi
        have hsame := h.eq_of_task hk hk' (htask.trans (congrArg TaskId.mk heq))
        rw [hsame, hscript'] at hscript
        exact hother hscript
      simp only [hid, decide_true, Bool.true_and, List.all_eq_true, bne_iff_ne]
      exact hkept
    · simp [hid]

/-! ## What the script does -/

theorem Situation.rest_subset {i : ℕ} (hi : i ∈ sit.rest) : i ∈ sit.turns := by
  cases sit with
  | between => exact hi
  | waiting rest => exact hi
  | firing id task rest => exact List.mem_cons_of_mem _ hi

theorem getElem?_append_of_some {ids : List TaskId} {rank : ℕ} {x : TaskId}
    (h : ids[rank]? = some x) (new : List TaskId) : (ids ++ new)[rank]? = some x := by
  obtain ⟨hlt, _⟩ := List.getElem?_eq_some_iff.mp h
  rw [List.getElem?_append_left hlt]
  exact h

/-- What becomes of a timetable's stage when the script is given a new number. -/
theorem Situation.Shows.give {ids : List TaskId} {stage : Stage} {new : TaskId}
    (hshows : sit.Shows a ids stage) (hnew : ∀ id task, sit.flying = some (id, task) → id ≠ new.raw) :
    sit.Shows a (ids ++ [new]) stage := by
  cases sit with
  | between => exact hshows
  | waiting rest => exact hshows
  | firing id task rest =>
    by_cases hscript : task.script = a
    · obtain ⟨rank, hrank, hstage⟩ := (Situation.shows_own hscript).mp hshows
      exact (Situation.shows_own hscript).mpr ⟨rank, getElem?_append_of_some hrank _, hstage⟩
    · obtain ⟨hid, hstage⟩ := (Situation.shows_other hscript).mp hshows
      refine (Situation.shows_other hscript).mpr ⟨fun hid' => ?_, hstage⟩
      rcases List.mem_append.mp hid' with hid' | hid'
      · exact hid hid'
      · exact hnew id task rfl (congrArg TaskId.raw (List.mem_singleton.mp hid'))

/-- The task that the script submits comes last among its tasks. -/
theorem handlesOf_enroll_self (s : Scheduler α) (a : String) (callable : α) (mode : Mode) (id : TaskId) :
    (s.enroll a callable mode id).handlesOf a = s.handlesOf a ++
      [⟨a, id, if mode.isTracked then some (s.bridge.pin callable).1 else none⟩] := by
  show (s.handles ++ [_]).filter _ = s.handles.filter _ ++ _
  rw [List.filter_append, List.filter_cons_of_pos (by simp)]
  rfl

/-- So does its entry among the entries of the script. -/
theorem entriesOf_submit (h : Agree flying r s) (ids : List TaskId) (task : Submission α) (lane : Lane)
    (mode : Mode) :
    entriesOf (ids ++ [⟨r.issued + 1⟩]) (r.submit task lane mode).2 = entriesOf ids r ++
      [⟨r.issued + 1, lane, mode.firstDue r.now, mode.interval?, some task⟩] := by
  show (r.queue ++ [_]).filter _ = r.queue.filter _ ++ _
  rw [List.filter_append, List.filter_cons_of_pos (by simp)]
  congr 1
  refine List.filter_congr fun e he => ?_
  have hne : e.id ≠ r.issued + 1 := Nat.ne_of_lt (Nat.lt_succ_of_le (h.entries.numbered e he).2)
  simp [hne]

/-- The script submits a task. -/
theorem Mirror.submit_own (hm : Mirror a sit t T r s) (h : Agree sit.flying r s) (callable : α)
    (lane : Lane) (mode : Mode) :
    Mirror a sit { t with ids := t.ids ++ [⟨r.issued + 1⟩] } (T.submit lane mode)
      (r.submit (s.submission a callable mode) lane mode).2
      (s.enroll a callable mode ⟨r.issued + 1⟩) := by
  have hnew : (⟨r.issued + 1⟩ : TaskId) ∉ t.ids := fun hid =>
    Nat.not_succ_le_self _ (hm.issued _ hid)
  have hrank : (t.ids ++ [(⟨r.issued + 1⟩ : TaskId)])[T.count]? = some ⟨r.issued + 1⟩ := by
    rw [← hm.count]
    exact List.getElem?_concat_length
  constructor
  case now => exact hm.now
  case ticks => exact hm.ticks
  case turns => exact hm.turns
  case place => exact hm.place
  case count =>
    show (t.ids ++ [_]).length = T.count + 1
    rw [List.length_append, hm.count]
    rfl
  case stage =>
    refine hm.stage.give fun id task hf heq => ?_
    have hle := h.entries.launched id (by rw [hf]; rfl)
    rw [heq] at hle
    exact Nat.not_succ_le_self _ hle
  case nodup =>
    refine List.nodup_append.mpr ⟨hm.nodup, List.nodup_singleton _, ?_⟩
    rintro x hx _ hx' rfl
    rw [List.mem_singleton.mp hx'] at hx
    exact hnew hx
  case issued =>
    intro id hid
    rcases List.mem_append.mp hid with hid | hid
    · exact Nat.le_succ_of_le (hm.issued id hid)
    · rw [List.mem_singleton.mp hid]
      exact Nat.le_refl _
  case once => exact hm.once
  case due => exact fun i hi => Nat.le_succ_of_le (hm.due i hi)
  case handles =>
    rw [handlesOf_enroll_self]
    refine List.rel_append
      (hm.handles.imp fun k u hku => ⟨getElem?_append_of_some hku.rank _, hku.pin⟩) ?_
    refine .cons ⟨hrank, ?_⟩ .nil
    cases mode <;> rfl
  case entries =>
    rw [entriesOf_submit h]
    refine List.rel_append (hm.entries.imp fun e u heu =>
      ⟨getElem?_append_of_some heu.rank _, heu.lane, heu.due, heu.interval⟩) ?_
    exact .cons ⟨hrank, rfl, by rw [hm.now], rfl⟩ .nil
  case todo =>
    -- a new task is not due in the tick that goes on
    have hsame : (sit.rest.filter fun i => (s.enroll a callable mode ⟨r.issued + 1⟩).isTracked a ⟨i⟩) =
        sit.rest.filter fun i => s.isTracked a ⟨i⟩ := by
      refine List.filter_congr fun i hi => ?_
      have hle := hm.due i (Situation.rest_subset hi)
      have hne : r.issued + 1 ≠ i := by omega
      rw [isTracked_eq_any, isTracked_eq_any, handlesOf_enroll_self, List.any_append]
      simp [hne]
    rw [hsame]
    exact hm.todo.imp fun i rank hi => getElem?_append_of_some hi _

/-- A task of the script goes, if it is there. -/
theorem Mirror.without (hm : Mirror a sit t T r s) (id : TaskId) (hnow : r'.now = r.now)
    (hissued : r'.issued = r.issued)
    (hhandles : s'.handlesOf a = (s.handlesOf a).filter fun k => k.task != id)
    (hentries : entriesOf t.ids r' = (entriesOf t.ids r).filter fun e => e.id != id.raw) :
    Mirror a sit t (T.without (t.rank id)) r' s' := by
  -- no two tasks have one rank, so to leave out the task is to leave out its rank
  have hrank : ∀ {rank x}, t.ids[rank]? = some x → (x != id) = (rank != t.rank id) := by
    intro rank x hx
    rw [Bool.eq_iff_iff, bne_iff_ne, bne_iff_ne]
    exact not_congr (eq_idxOf_iff hm.nodup hx).symm
  constructor
  case now => exact hm.now.trans hnow.symm
  case ticks => exact hm.ticks
  case turns => exact hm.turns
  case place => exact hm.place
  case count => exact hm.count
  case stage => exact hm.stage
  case nodup => exact hm.nodup
  case issued => exact hissued ▸ hm.issued
  case once => exact hm.once
  case due => exact hissued ▸ hm.due
  case handles =>
    rw [hhandles]
    exact forall₂_filter (fun k u hku => hrank hku.rank) hm.handles
  case entries =>
    rw [hentries]
    refine forall₂_filter (fun e u heu => ?_) hm.entries
    rw [← hrank heu.rank, Bool.eq_iff_iff, bne_iff_ne, bne_iff_ne]
    exact not_congr ⟨fun heq => congrArg TaskId.mk heq, fun heq => congrArg TaskId.raw heq⟩
  case todo =>
    have hsame : (sit.rest.filter fun i => s'.isTracked a ⟨i⟩) =
        (sit.rest.filter fun i => s.isTracked a ⟨i⟩).filter fun i => (⟨i⟩ : TaskId) != id := by
      rw [List.filter_filter]
      refine List.filter_congr fun i _ => ?_
      rw [isTracked_eq_any, isTracked_eq_any, hhandles, List.any_filter, Bool.eq_iff_iff]
      simp only [List.any_eq_true, Bool.and_eq_true, bne_iff_ne, beq_iff_eq]
      constructor
      · rintro ⟨k, hk, hne, htask⟩
        exact ⟨htask ▸ hne, k, hk, htask⟩
      · rintro ⟨hne, k, hk, htask⟩
        exact ⟨k, hk, htask ▸ hne, htask⟩
    rw [hsame]
    exact forall₂_filter (fun i rank hi => hrank hi) hm.todo

/-- To erase what only one can be is to leave it out. -/
theorem eraseP_eq_filter {β : Type} {p : β → Bool} {l : List β}
    (hone : l.Pairwise fun b b' => ¬ (p b = true ∧ p b' = true)) :
    l.eraseP p = l.filter fun b => !p b := by
  induction l with
  | nil => rfl
  | cons b l ih =>
    obtain ⟨hfirst, hrest⟩ := List.pairwise_cons.mp hone
    cases hb : p b with
    | true =>
      rw [List.eraseP_cons_of_pos hb, List.filter_cons_of_neg (by simp [hb])]
      refine (List.filter_eq_self.mpr fun b' hb' => ?_).symm
      have hnot := hfirst b' hb'
      simpa [hb] using hnot
    | false => rw [List.eraseP_cons_of_neg (by simp [hb]), List.filter_cons_of_pos (by simp [hb]), ih hrest]

theorem handlesOf_drop {flying : Option (ℕ × Submission α)} (h : Agree flying r s) (a : String)
    (id : TaskId) :
    (s.drop a id).handlesOf a = (s.handlesOf a).filter fun k => k.task != id := by
  have hpairs : s.handles.Pairwise fun k k' => k.task ≠ k'.task := List.pairwise_map.mp h.nodup
  -- a task has one handle, so to drop the first that is found is to drop all
  have hone : s.handles.Pairwise fun k k' =>
      ¬ (k.isFor a id = true ∧ k'.isFor a id = true) := by
    refine hpairs.imp fun {k k'} hne hboth => hne ?_
    exact (isFor_iff.mp hboth.1).2.trans (isFor_iff.mp hboth.2).2.symm
  show (s.handles.eraseP _).filter _ = (s.handles.filter _).filter _
  rw [eraseP_eq_filter hone, List.filter_filter, List.filter_filter]
  refine List.filter_congr fun k _ => ?_
  unfold TaskHandle.isFor
  cases hscript : k.script == a <;> simp [bne]

/-- The script cancels a task that is not another's. -/
theorem Mirror.cancel_own (hm : Mirror a sit t T r s) (h : Agree sit.flying r s) (id : TaskId) :
    Mirror a sit t (T.without (t.rank id)) (r.cancel id).2 (s.drop a id) :=
  hm.without id rfl rfl (handlesOf_drop h a id) (List.filter_comm _ _ _)

/-- The script cancels a task that is not its own: nothing happens. -/
theorem Mirror.decline_own (hm : Mirror a sit t T r s) (hnot : s.isTracked a id = false) :
    Mirror a sit t (T.without (t.rank id)) r s := by
  refine hm.without id rfl rfl ?_ ?_
  · refine (List.filter_eq_self.mpr fun k hk => ?_).symm
    rw [isTracked_eq_any, List.any_eq_false] at hnot
    simpa [bne_iff_ne] using hnot k hk
  · refine (List.filter_eq_self.mpr fun e he => bne_iff_ne.mpr fun heq => ?_).symm
    obtain ⟨he, hid⟩ := List.mem_filter.mp he
    have htracked := hm.tracked_of_entry he (of_decide_eq_true hid)
    rw [show (⟨e.id⟩ : TaskId) = id from congrArg TaskId.mk heq, hnot] at htracked
    cases htracked

/-- The script cancels all its tasks. -/
theorem Mirror.clear (hm : Mirror a sit t T r s) :
    Mirror a sit t T.clear (cancelEach r ((s.handlesOf a).map TaskHandle.task)) (s.dropAll a) := by
  have hhandles : (s.dropAll a).handlesOf a = [] := by
    refine List.filter_eq_nil_iff.mpr fun k hk => ?_
    simpa using (mem_dropAll.mp hk).2
  constructor
  case now => exact hm.now.trans (now_cancelEach _ _).symm
  case ticks => exact hm.ticks
  case turns => exact hm.turns
  case place => exact hm.place
  case count => exact hm.count
  case stage => exact hm.stage
  case nodup => exact hm.nodup
  case issued => exact (issued_cancelEach r _).symm ▸ hm.issued
  case once => exact hm.once
  case due => exact (issued_cancelEach r _).symm ▸ hm.due
  case handles =>
    rw [hhandles]
    exact .nil
  case entries =>
    -- whatever waits for the script is tracked for it, and so is cancelled
    have hentries : entriesOf t.ids (cancelEach r ((s.handlesOf a).map TaskHandle.task)) = [] := by
      refine List.filter_eq_nil_iff.mpr fun e he hid => ?_
      obtain ⟨he, hkept⟩ := mem_cancelEach.mp he
      have htracked := hm.tracked_of_entry he (of_decide_eq_true hid)
      exact hkept _ (mem_tasksOf.mpr (isTracked_iff.mp htracked)) rfl
    rw [hentries]
    exact .nil
  case todo =>
    have hnone : (sit.rest.filter fun i => (s.dropAll a).isTracked a ⟨i⟩) = [] := by
      refine List.filter_eq_nil_iff.mpr fun i _ => ?_
      rw [isTracked_eq_any, hhandles]
      exact Bool.false_ne_true
    rw [hnone]
    exact .nil

/-- What the script is told of its tasks when all are cancelled. -/
theorem Mirror.summary (hm : Mirror a sit t T r s) :
    (⟨s.outstanding a, (pinsOf (s.handlesOf a)).length⟩ : CancelSummary) =
      ⟨T.tasks.length, T.tasks.countP OwnTask.hasPin⟩ := by
  have hpins : (pinsOf (s.handlesOf a)).length = T.tasks.countP OwnTask.hasPin := by
    have hfilter := (forall₂_filter (p := fun k => k.pin.isSome) (q := OwnTask.hasPin)
      (fun k u hku => hku.pin) hm.handles).length_eq
    rw [List.countP_eq_length_filter, ← hfilter]
    exact List.length_filterMap_eq_countP.trans (List.countP_eq_length_filter)
  rw [hpins, ← hm.handles.length_eq]
  rfl

theorem Mirror.pins (hm : Mirror a sit t T r s) :
    ((s.handlesOf a).map fun k => k.pin.isSome) = T.tasks.map OwnTask.hasPin := by
  refine List.forall₂_eq_eq_eq ▸ ?_
  exact List.forall₂_map_left_iff.mpr (List.forall₂_map_right_iff.mpr
    (hm.handles.imp fun k u hku => hku.pin))

/-! ## Ticks -/

/-- The entries of a script are those of the tasks that are tracked for it. -/
theorem Mirror.tracked_iff_given (hm : Mirror a sit t T r s) {e : Waiting (Submission α)}
    (he : e ∈ r.queue) : s.isTracked a ⟨e.id⟩ = decide (⟨e.id⟩ ∈ t.ids) := by
  rw [Bool.eq_iff_iff, decide_eq_true_eq]
  exact ⟨hm.given_of_tracked, hm.tracked_of_entry he⟩

/-- In each lane the script's tasks that are due are those of its timetable. -/
theorem Mirror.dueIn (hm : Mirror a sit t T r s) (now : ℕ) (lane : Lane) :
    List.Forall₂ (fun i rank => t.ids[rank]? = some ⟨i⟩)
      ((TickRunner.dueIn { r with now } lane).filter fun i => s.isTracked a ⟨i⟩)
      (Timetable.dueIn { T with now } lane) := by
  have hentries : (r.queue.filter fun e => e.lane == lane && decide (e.due ≤ now)).filter
      (fun e => s.isTracked a ⟨e.id⟩) =
        (entriesOf t.ids r).filter fun e => e.lane == lane && decide (e.due ≤ now) := by
    unfold entriesOf
    rw [List.filter_comm]
    exact congrArg _ (List.filter_congr fun e he => hm.tracked_iff_given he)
  show List.Forall₂ _ (((r.queue.filter _).map Waiting.id).filter _) ((T.tasks.filter _).map _)
  rw [List.filter_map, List.forall₂_map_left_iff, List.forall₂_map_right_iff]
  refine hentries ▸ (forall₂_filter (fun e u heu => ?_) hm.entries).imp fun e u heu => heu.rank
  rw [heu.lane, heu.due]

/-- The next tick begins. -/
theorem Mirror.dawn (hm : Mirror a .between t T r s) (h : Agree none r s) :
    Mirror a (.waiting (TickRunner.dueIds { r with now := r.now + 1 }))
      { t with ticks := t.ticks + 1, turns := 0, place := .beside (t.ticks + 1) 0 } T.dawn
      { r with now := r.now + 1 } s where
  now := congrArg (· + 1) hm.now
  ticks := congrArg (· + 1) hm.ticks
  turns := rfl
  place := by rw [hm.ticks]; rfl
  count := hm.count
  stage := rfl
  nodup := hm.nodup
  issued := hm.issued
  once := TickRunner.Ordered.dueIds_nodup (r := { r with now := r.now + 1 }) h.entries.ordered
  due i hi := by
    obtain ⟨e, he, rfl, _⟩ := TickRunner.mem_dueIds.mp hi
    exact (h.entries.numbered e he).2
  handles := hm.handles
  entries := hm.entries
  todo := by
    -- what is due is taken lane by lane, as it is in the timetable
    have hsync := hm.dueIn (r.now + 1) .sync
    have hasync := hm.dueIn (r.now + 1) .async
    rw [← hm.now] at hsync hasync
    show List.Forall₂ _ (List.filter _ (_ ++ _)) (_ ++ _)
    rw [List.filter_append, ← hm.now]
    exact List.rel_append hsync hasync

/-- A task is passed over that is no longer there; it is not the script's. -/
theorem Mirror.skip {i : ℕ} {rest : List ℕ} (hm : Mirror a (.waiting (i :: rest)) t T r s)
    (h : Agree none r s) (hnone : r.task? i = none) : Mirror a (.waiting rest) t T r s := by
  have hgone : s.isTracked a ⟨i⟩ = false := by
    rw [Bool.eq_false_iff]
    intro htracked
    obtain ⟨k, hk, _, htask⟩ := isTracked_iff.mp htracked
    obtain ⟨e, he, hid⟩ := h.waits k hk
    exact h.entries.not_mem_of_task? hnone e he (hid.trans (congrArg TaskId.raw htask))
  have htodo : List.Forall₂ _ (List.filter (fun j => s.isTracked a ⟨j⟩) (i :: rest)) T.todo := hm.todo
  rw [List.filter_cons_of_neg (by simp [hgone])] at htodo
  exact { hm with
    stage := hm.stage
    once := (List.nodup_cons.mp hm.once).2
    due := fun j hj => hm.due j (List.mem_cons_of_mem _ hj)
    todo := htodo }

/-! ## Turns -/

variable {i : ℕ} {task : Submission α} {rest : List ℕ}

theorem entries_take {ids : List TaskId} {tasks : List OwnTask}
    (h : List.Forall₂ (OwnTask.Entry ids) (entriesOf ids r) tasks) (i : ℕ) :
    List.Forall₂ (OwnTask.Entry ids) (entriesOf ids (r.take i)) tasks := by
  have hfilter : entriesOf ids (r.take i) =
      (entriesOf ids r).map fun e => if e.id == i then { e with task := none } else e := by
    show (r.queue.map _).filter _ = _
    rw [List.filter_map]
    refine congrArg _ (List.filter_congr fun e _ => ?_)
    simp only [Function.comp_apply]
    split <;> rfl
  rw [hfilter, List.forall₂_map_left_iff]
  refine h.imp fun e u heu => ?_
  split
  · exact ⟨heu.rank, heu.lane, heu.due, heu.interval⟩
  · exact heu

/-- A task of another script takes its turn. -/
theorem Mirror.launch_other (hm : Mirror a (.waiting (i :: rest)) t T r s) (h : Agree none r s)
    (htask : r.task? i = some task) (hother : task.script ≠ a) :
    Mirror a (.firing i task rest) t T (r.take i) s := by
  obtain ⟨hhandle, _⟩ := h.take htask
  obtain ⟨e, he, rfl, _⟩ := TickRunner.task?_eq_some htask
  -- the task is tracked for its own script, so not for this one
  have hnot : s.isTracked a ⟨e.id⟩ = false := by
    rw [Bool.eq_false_iff]
    intro htracked
    obtain ⟨k, hk, hscript, hk'⟩ := isTracked_iff.mp htracked
    rw [h.eq_of_task hk hhandle hk'] at hscript
    exact hother hscript
  have hgiven : (⟨e.id⟩ : TaskId) ∉ t.ids := fun hid => by
    rw [hm.tracked_of_entry he hid] at hnot
    cases hnot
  have htodo : List.Forall₂ _ (List.filter (fun j => s.isTracked a ⟨j⟩) (e.id :: rest)) T.todo :=
    hm.todo
  rw [List.filter_cons_of_neg (by simp [hnot])] at htodo
  exact { hm with
    stage := (Situation.shows_other hother).mpr ⟨hgiven, hm.stage⟩
    once := hm.once
    due := hm.due
    entries := entries_take hm.entries e.id
    todo := htodo }

/-- A task of the script takes its turn: it is the next by the timetable. -/
theorem Mirror.launch_own (hm : Mirror a (.waiting (i :: rest)) t T r s) (h : Agree none r s)
    (htask : r.task? i = some task) (hown : task.script = a) :
    ∃ todo, Step T (.began t.ticks (t.rank ⟨i⟩))
        { T with todo := todo, turns := T.turns + 1, stage := .firing (t.rank ⟨i⟩) } ∧
      Mirror a (.firing i task rest)
        { t with turns := t.turns + 1, place := .during t.ticks (t.rank ⟨i⟩) }
        { T with todo := todo, turns := T.turns + 1, stage := .firing (t.rank ⟨i⟩) }
        (r.take i) s := by
  obtain ⟨hhandle, _⟩ := h.take htask
  have htracked : s.isTracked a ⟨i⟩ = true := isTracked_iff.mpr ⟨_, hhandle, hown, rfl⟩
  have htodo : List.Forall₂ _ (List.filter (fun j => s.isTracked a ⟨j⟩) (i :: rest)) T.todo := hm.todo
  rw [List.filter_cons_of_pos (by simp [htracked])] at htodo
  -- the first number of the script's own is the first of its timetable
  obtain ⟨rank, todo, hrank, htail, hnext⟩ := List.forall₂_cons_left_iff.mp htodo
  obtain rfl : rank = t.rank ⟨i⟩ := (eq_idxOf_iff hm.nodup hrank).mpr rfl
  obtain ⟨hfirst, hrest⟩ := List.nodup_cons.mp hm.once
  have honce : t.rank ⟨i⟩ ∉ todo := by
    intro hmem
    obtain ⟨j, hj, hrank'⟩ := mem_right_of_forall₂ htail hmem
    have hsame : (⟨i⟩ : TaskId) = ⟨j⟩ := Option.some.inj (hrank.symm.trans hrank')
    obtain rfl := congrArg TaskId.raw hsame
    exact hfirst (List.mem_filter.mp hj).1
  refine ⟨todo, ?_, ?_⟩
  · rw [hm.ticks]
    exact .begin T _ todo hm.stage hnext honce
  · exact { hm with
      turns := congrArg (· + 1) hm.turns
      place := by rw [hm.ticks]; rfl
      count := hm.count
      stage := (Situation.shows_own hown).mpr ⟨_, hrank, rfl⟩
      once := hm.once
      due := hm.due
      entries := entries_take hm.entries i
      todo := htail }

/-- To leave out entries and to settle them come to the same in any order, since they keep their numbers. -/
theorem entriesOf_settle (ids : List TaskId) (now : ℕ) (i : ℕ) (task : Submission α) :
    entriesOf ids (r.settle now i task) = (entriesOf ids r).filterMap fun e =>
      if e.id == i then TickRunner.Waiting.settled? now task e else some e := by
  show (r.queue.filterMap _).filter _ = (r.queue.filter _).filterMap _
  rw [List.filter_filterMap, List.filterMap_filter]
  refine List.filterMap_congr fun e _ => ?_
  cases hsettled : (if e.id == i then TickRunner.Waiting.settled? now task e else some e) with
  | none => simp
  | some b =>
    have hid := TickRunner.settled_id hsettled
    simp only [Option.filter_some, hid]

/-- A scheduler that retires the task of another script has what it had of this one. -/
theorem handlesOf_retire {script : String} (hother : script ≠ a) (once : Bool)
    (hs : s' = if once then s.drop script id else s) : s'.handlesOf a = s.handlesOf a := by
  rw [hs]
  split
  · exact handlesOf_drop_other hother s id
  · rfl

/-- The turn of another script's task ends. -/
theorem Mirror.land_other (hm : Mirror a (.firing i task rest) t T r s) (hother : task.script ≠ a)
    (hs : s' = if task.callable.isSome || task.oneShot then s.drop task.script ⟨i⟩ else s) :
    Mirror a (.waiting rest) t T (r.settle r.now i task) s' := by
  obtain ⟨hid, hstage⟩ := (Situation.shows_other hother).mp hm.stage
  have hentries : entriesOf t.ids (r.settle r.now i task) = entriesOf t.ids r := by
    rw [entriesOf_settle]
    refine (List.filterMap_congr fun e he => ?_).trans List.filterMap_some
    have hne : e.id ≠ i := by
      rintro rfl
      exact hid (of_decide_eq_true (List.mem_filter.mp he).2)
    rw [if_neg (by simpa using hne)]
  have hwaiting : Mirror a (.waiting rest) t T r s :=
    { hm with
      stage := hstage
      once := (List.nodup_cons.mp hm.once).2
      due := fun j hj => hm.due j (List.mem_cons_of_mem _ hj)
      todo := hm.todo }
  exact hwaiting.others rfl (Nat.le_refl _) (handlesOf_retire hother _ hs) hentries

/-- The rank of the script's task that is firing. -/
theorem Mirror.firing (hm : Mirror a (.firing i task rest) t T r s) (hown : task.script = a) :
    t.ids[t.rank ⟨i⟩]? = some ⟨i⟩ ∧ T.stage = .firing (t.rank ⟨i⟩) := by
  obtain ⟨rank, hrank, hstage⟩ := (Situation.shows_own hown).mp hm.stage
  obtain rfl : rank = t.rank ⟨i⟩ := (eq_idxOf_iff hm.nodup hrank).mpr rfl
  exact ⟨hrank, hstage⟩

/-- By the timetable a task repeats if it does. -/
theorem Mirror.once_iff (hm : Mirror a (.firing i task rest) t T r s)
    (h : Agree (some (i, task)) r s) {u : OwnTask} (hu : u ∈ T.tasks) (hrank : u.rank = t.rank ⟨i⟩) :
    u.interval = none ↔ task.callable.isSome ∨ task.oneShot := by
  obtain ⟨e, he, heu⟩ := mem_right_of_forall₂ hm.entries hu
  have hid : e.id = i := congrArg TaskId.raw ((eq_idxOf_iff hm.nodup heu.rank).mp hrank)
  rw [← heu.interval]
  exact (h.tracked e (List.mem_filter.mp he).1 task (.inr (by rw [hid]))).once

theorem Mirror.settle_entries (hm : Mirror a sit t T r s) (i : ℕ) (task : Submission α) :
    List.Forall₂ (OwnTask.Entry t.ids) (entriesOf t.ids (r.settle r.now i task))
      (T.settle (t.rank ⟨i⟩)).tasks := by
  rw [entriesOf_settle]
  refine List.rel_filterMap (fun e u heu => ?_) hm.entries
  have hsame : u.rank = t.rank ⟨i⟩ ↔ e.id = i :=
    (eq_idxOf_iff hm.nodup heu.rank).trans ⟨congrArg TaskId.raw, congrArg TaskId.mk⟩
  unfold Timetable.settled?
  by_cases hid : e.id = i
  · rw [if_pos (by simpa using hid), if_pos (hsame.mpr hid), TickRunner.Waiting.settled?,
      ← heu.interval, hm.now]
    cases e.interval with
    | none => exact .none
    | some n => exact .some ⟨heu.rank, heu.lane, rfl, rfl⟩
  · rw [if_neg (by simpa using hid), if_neg (mt hsame.mp hid)]
    exact .some heu

/-- A task that does not repeat loses its handle, and leaves the timetable. -/
theorem Mirror.retire_handles (hm : Mirror a (.firing i task rest) t T r s)
    (h : Agree (some (i, task)) r s) (honce : task.callable.isSome ∨ task.oneShot) :
    List.Forall₂ (OwnTask.Handle t.ids) ((s.drop a ⟨i⟩).handlesOf a)
      (T.settle (t.rank ⟨i⟩)).tasks := by
  have hleft : (T.settle (t.rank ⟨i⟩)).tasks = T.tasks.filter fun u => u.rank != t.rank ⟨i⟩ := by
    rw [← List.filterMap_eq_filter]
    refine List.filterMap_congr fun u hu => ?_
    by_cases hrank : u.rank = t.rank ⟨i⟩
    · simp [Timetable.settled?, Option.guard, hrank, (hm.once_iff h hu hrank).mpr honce]
    · simp [Timetable.settled?, Option.guard, hrank]
  rw [hleft, handlesOf_drop h a ⟨i⟩]
  refine forall₂_filter (fun k u hku => ?_) hm.handles
  rw [Bool.eq_iff_iff, bne_iff_ne, bne_iff_ne]
  exact not_congr (eq_idxOf_iff hm.nodup hku.rank).symm

/-- A task that repeats keeps its handle, and its place in the timetable. -/
theorem Mirror.repeat_handles (hm : Mirror a (.firing i task rest) t T r s)
    (h : Agree (some (i, task)) r s) (hrepeats : ¬ (task.callable.isSome ∨ task.oneShot)) :
    List.Forall₂ (OwnTask.Handle t.ids) (s.handlesOf a) (T.settle (t.rank ⟨i⟩)).tasks := by
  have hkept : (T.settle (t.rank ⟨i⟩)).tasks =
      T.tasks.map fun u => (Timetable.settled? T.now (t.rank ⟨i⟩) u).getD u := by
    rw [← List.filterMap_eq_map]
    refine List.filterMap_congr fun u hu => ?_
    by_cases hrank : u.rank = t.rank ⟨i⟩
    · have hsome := mt (hm.once_iff h hu hrank).mp hrepeats
      obtain ⟨n, hn⟩ := Option.ne_none_iff_exists'.mp hsome
      simp [Timetable.settled?, hrank, hn]
    · simp [Timetable.settled?, hrank]
  rw [hkept]
  refine List.forall₂_map_right_iff.mpr (hm.handles.imp fun k u hku => ?_)
  unfold Timetable.settled?
  split
  · cases u.interval with
    | none => exact hku
    | some n => exact ⟨hku.rank, hku.pin⟩
  · exact hku

/-- Dropping one task leaves the others tracked. -/
theorem isTracked_drop {flying : Option (ℕ × Submission α)} (h : Agree flying r s) {id' : TaskId}
    (hne : id' ≠ id) :
    (s.drop a id).isTracked a id' = s.isTracked a id' := by
  rw [isTracked_eq_any, isTracked_eq_any, handlesOf_drop h, List.any_filter]
  refine List.any_congr rfl fun k => ?_
  by_cases htask : k.task = id'
  · simp [htask, hne]
  · simp [htask]

/-- The turn of a task of the script ends. -/
theorem Mirror.land_own (hm : Mirror a (.firing i task rest) t T r s)
    (h : Agree (some (i, task)) r s) (hown : task.script = a)
    (hs : s' = if task.callable.isSome || task.oneShot then s.drop task.script ⟨i⟩ else s) :
    Step T (.ended t.ticks (t.rank ⟨i⟩)) (T.settle (t.rank ⟨i⟩)) ∧
      Mirror a (.waiting rest) { t with place := .beside t.ticks t.turns } (T.settle (t.rank ⟨i⟩))
        (r.settle r.now i task) s' := by
  obtain ⟨hfirst, hrest⟩ := List.nodup_cons.mp hm.once
  -- the task is tracked no longer if it was to fire once; those that are still due stay as they are
  have hhandles : List.Forall₂ (OwnTask.Handle t.ids) (s'.handlesOf a)
      (T.settle (t.rank ⟨i⟩)).tasks ∧ ∀ j ∈ rest, s'.isTracked a ⟨j⟩ = s.isTracked a ⟨j⟩ := by
    by_cases honce : task.callable.isSome ∨ task.oneShot
    · rw [if_pos (by simpa using honce), hown] at hs
      rw [hs]
      refine ⟨hm.retire_handles h honce, fun j hj => isTracked_drop h ?_⟩
      intro heq
      have hji : j = i := congrArg TaskId.raw heq
      exact hfirst (hji ▸ hj)
    · rw [if_neg (by simpa using honce)] at hs
      rw [hs]
      exact ⟨hm.repeat_handles h honce, fun j _ => rfl⟩
  refine ⟨?_, ?_⟩
  · rw [hm.ticks]
    exact .settle T _ (hm.firing hown).2
  · exact { hm with
      place := by rw [hm.ticks, hm.turns]; rfl
      count := hm.count
      stage := rfl
      once := hrest
      due := fun j hj => hm.due j (List.mem_cons_of_mem _ hj)
      handles := hhandles.1
      entries := hm.settle_entries i task
      todo := by
        have htodo : List.Forall₂ _ (rest.filter fun j => s.isTracked a ⟨j⟩) T.todo := hm.todo
        rw [← List.filter_congr hhandles.2] at htodo
        exact htodo }

/-- The tick is over. -/
theorem Mirror.dusk (hm : Mirror a (.waiting []) t T r s) :
    Step T (.ticked t.ticks ((s.handlesOf a).map fun k => k.pin.isSome)) { T with stage := .between } ∧
      Mirror a .between { t with place := .between t.ticks } { T with stage := .between } r s := by
  refine ⟨?_, ?_⟩
  · rw [hm.ticks, hm.pins]
    exact .dusk T hm.stage (List.forall₂_nil_left_iff.mp hm.todo)
  · exact { hm with
      place := by rw [hm.ticks]; rfl
      stage := rfl
      once := .nil
      due := fun _ hj => nomatch hj
      todo := hm.todo }

end Tasks
end ScriptHost
