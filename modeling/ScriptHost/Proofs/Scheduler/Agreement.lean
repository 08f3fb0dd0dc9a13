import ScriptHost.Proofs.Scheduler.Balance
import ScriptHost.Proofs.TickRunner.Entries

/-!
# Scheduler and tick runner

What a scheduler's calls come to when its runner is a tick runner, which does not turn back to it, and how
the two agree.

* `Scheduler.enroll`, `Scheduler.drop`, `Scheduler.dropAll`: the scheduler after a submission, after a task is
  cancelled or retired, and after all tasks of a script are cancelled.
* `Agree flying r s`: every entry of the runner has a task handle under its number, of the script that
  submitted it, and every task handle has an entry. `flying` is the task that is firing, if one is, with its
  number.
-/

namespace ScriptHost
namespace Scheduler

variable {α : Type} {s : Scheduler α} {r : TickRunner (Submission α)}
  {flying : Option (ℕ × Submission α)}

/-! ## The scheduler after its calls -/

/-- What the runner is given for a callable. -/
def submission (s : Scheduler α) (script : String) (callable : α) (mode : Mode) : Submission α :=
  ⟨(s.bridge.pin callable).1, script, if mode.isTracked then none else some callable, mode.isOneShot⟩

/-- The scheduler after a submission that the runner has accepted. -/
def enroll (s : Scheduler α) (script : String) (callable : α) (mode : Mode) (id : TaskId) :
    Scheduler α :=
  { s with
    bridge :=
      if mode.isTracked then (s.bridge.pin callable).2
      else (s.bridge.pin callable).2.release (s.bridge.pin callable).1
    handles := s.handles ++
      [⟨script, id, if mode.isTracked then some (s.bridge.pin callable).1 else none⟩]
    accepted := s.accepted.insert (s.bridge.pin callable).1.raw id }

/-- The bridge after a number of pins were released. -/
def releaseAll (b : ValueBridge α) (pins : List PinHandle) : ValueBridge α :=
  pins.foldl ValueBridge.release b

/-- The scheduler after a task of a script is cancelled or retired. -/
def drop (s : Scheduler α) (script : String) (id : TaskId) : Scheduler α :=
  { s with
    bridge := releaseAll s.bridge ((s.untrack script id).1.bind TaskHandle.pin).toList
    handles := s.handles.eraseP (TaskHandle.isFor script id) }

/-- The scheduler after all tasks of a script are cancelled. -/
def dropAll (s : Scheduler α) (script : String) : Scheduler α :=
  { s with
    bridge := releaseAll s.bridge (pinsOf (s.handlesOf script))
    handles := s.handles.filter fun k => k.script != script }

@[simp] theorem issued_releaseAll (b : ValueBridge α) (pins : List PinHandle) :
    (releaseAll b pins).issued = b.issued := by
  induction pins generalizing b with
  | nil => rfl
  | cons p pins ih => exact ih (b.release p)

/-- Pins that are held besides can all be released. -/
theorem Balances.releaseAll {held pins : List PinHandle} (h : Balances (pins ++ held) s) :
    Balances held { s with bridge := Scheduler.releaseAll s.bridge pins } := by
  induction pins generalizing s with
  | nil => exact h
  | cons p pins ih => exact ih (Balances.unpin h).2

theorem Balances.drop (h : Balances [] s) (script : String) (id : TaskId) :
    Balances [] (s.drop script id) :=
  Balances.releaseAll (h.untrack script id)

theorem Balances.dropAll (h : Balances [] s) (script : String) : Balances [] (s.dropAll script) :=
  Balances.releaseAll (h.dropScript script)

theorem Balances.enroll (h : Balances [] s) (script : String) (callable : α) (mode : Mode)
    (id : TaskId) : Balances [] (s.enroll script callable mode id) := by
  have hpin := (h.pin callable).accept (s.accepted.insert (s.bridge.pin callable).1.raw id)
  unfold Scheduler.enroll
  cases hmode : mode.isTracked with
  | true => exact Balances.track (k := ⟨script, id, some (s.bridge.pin callable).1⟩) hpin
  | false => exact Balances.track (k := ⟨script, id, none⟩) (Balances.unpin hpin).2

/-! ## Agreement -/

/-- The scheduler knows under which number the runner has accepted a submission. -/
structure Accepted (s : Scheduler α) (id : ℕ) (task : Submission α) : Prop where
  number : s.accepted.get? task.ticket.raw = some ⟨id⟩
  ticket : task.ticket.raw ≤ s.bridge.issued

/-- The task handle of a submission. -/
def handleOf (id : ℕ) (task : Submission α) : TaskHandle :=
  ⟨task.script, ⟨id⟩, if task.callable.isSome then none else some task.ticket⟩

/-- The scheduler tracks the task of an entry. -/
structure Tracks (s : Scheduler α) (e : Waiting (Submission α)) (task : Submission α) : Prop where
  handle : handleOf e.id task ∈ s.handles
  accepted : Accepted s e.id task
  /-- A task that does not repeat retires when it has fired. -/
  once : e.interval = none ↔ task.callable.isSome ∨ task.oneShot

/-- The scheduler and the runner agree on the tasks that are outstanding. -/
structure Agree (flying : Option (ℕ × Submission α)) (r : TickRunner (Submission α))
    (s : Scheduler α) : Prop where
  entries : r.Entries (flying.map Prod.fst)
  live : s.live = true
  balances : Balances [] s
  nodup : (s.handles.map TaskHandle.task).Nodup
  waits : ∀ k ∈ s.handles, ∃ e ∈ r.queue, e.id = k.task.raw
  tracked : ∀ e ∈ r.queue, ∀ task, e.task = some task ∨ flying = some (e.id, task) → Tracks s e task
  inFlight : ∀ id task, flying = some (id, task) → Accepted s id task

theorem agree_empty : Agree none ({} : TickRunner (Submission α)) ({} : Scheduler α) where
  entries := TickRunner.entries_empty
  live := rfl
  balances := balances_empty
  nodup := .nil
  waits _ h := nomatch h
  tracked _ h := nomatch h
  inFlight _ _ h := nomatch h

/-- Handles of one task are the same. -/
theorem Agree.eq_of_task (h : Agree flying r s) {k k' : TaskHandle} (hk : k ∈ s.handles)
    (hk' : k' ∈ s.handles) (htask : k.task = k'.task) : k = k' :=
  List.inj_on_of_nodup_map h.nodup hk hk' htask

theorem Agree.task_le (h : Agree flying r s) {k : TaskHandle} (hk : k ∈ s.handles) :
    k.task.raw ≤ r.issued := by
  obtain ⟨e, he, hid⟩ := h.waits k hk
  exact hid ▸ (h.entries.numbered e he).2

@[simp] theorem issued_enroll (s : Scheduler α) (script : String) (callable : α) (mode : Mode)
    (id : TaskId) : (s.enroll script callable mode id).bridge.issued = s.bridge.issued + 1 := by
  unfold Scheduler.enroll
  dsimp only
  split <;> rfl

/-- What was accepted stays so: the new ticket is a new number. -/
theorem Accepted.enroll {id : ℕ} {task : Submission α} (h : Accepted s id task) (script : String)
    (callable : α) (mode : Mode) (new : TaskId) :
    Accepted (s.enroll script callable mode new) id task where
  number := by
    show (s.accepted.insert (s.bridge.issued + 1) new).get? task.ticket.raw = some ⟨id⟩
    have hne : s.bridge.issued + 1 ≠ task.ticket.raw := by
      have hle := h.ticket
      omega
    rw [Std.TreeMap.get?_eq_getElem?, Std.TreeMap.getElem?_insert,
      if_neg (fun heq => hne (Std.LawfulEqCmp.eq_of_compare heq)), ← Std.TreeMap.get?_eq_getElem?]
    exact h.number
  ticket := by
    have hle := h.ticket
    rw [issued_enroll]
    omega

/-- The scheduler tracks the task that it submits. -/
theorem tracks_enroll (s : Scheduler α) (script : String) (callable : α) (lane : Lane) (mode : Mode)
    (due id : ℕ) :
    Tracks (s.enroll script callable mode ⟨id⟩)
      ⟨id, lane, due, mode.interval?, some (s.submission script callable mode)⟩
      (s.submission script callable mode) where
  handle := by
    refine List.mem_append_right _ ?_
    cases mode <;> exact List.mem_singleton.mpr rfl
  accepted :=
    { number := by
        show (s.accepted.insert (s.bridge.issued + 1) ⟨id⟩).get? (s.bridge.issued + 1) = _
        rw [Std.TreeMap.get?_eq_getElem?, Std.TreeMap.getElem?_insert_self]
      ticket := by
        rw [issued_enroll]
        exact Nat.le_refl _ }
  once := by cases mode <;> simp [submission, Mode.interval?, Mode.isTracked, Mode.isOneShot]

/-- A task is submitted. -/
theorem Agree.submit (h : Agree flying r s) (script : String) (callable : α) (lane : Lane)
    (mode : Mode) :
    Agree flying (r.submit (s.submission script callable mode) lane mode).2
      (s.enroll script callable mode ⟨r.issued + 1⟩) where
  entries := h.entries.submit _ lane mode
  live := h.live
  balances := h.balances.enroll script callable mode _
  nodup := by
    show ((s.handles ++ [_]).map TaskHandle.task).Nodup
    rw [List.map_append]
    refine List.nodup_append.mpr ⟨h.nodup, List.nodup_singleton _, ?_⟩
    rintro _ hold _ hnew rfl
    obtain ⟨k, hk, hkt⟩ := List.mem_map.mp hold
    have hle := h.task_le hk
    rw [hkt, List.mem_singleton.mp hnew] at hle
    exact absurd hle (Nat.not_succ_le_self _)
  waits k hk := by
    rcases List.mem_append.mp hk with hk | hk
    · obtain ⟨e, he, hid⟩ := h.waits k hk
      exact ⟨e, TickRunner.mem_submit.mpr (.inl he), hid⟩
    · rw [List.mem_singleton.mp hk]
      exact ⟨_, TickRunner.mem_submit.mpr (.inr rfl), rfl⟩
  tracked e he task htask := by
    rcases TickRunner.mem_submit.mp he with he | rfl
    · obtain ⟨hhandle, hacc, honce⟩ := h.tracked e he task htask
      exact ⟨List.mem_append_left _ hhandle, hacc.enroll script callable mode _, honce⟩
    · -- the new entry waits with its task: no task of its number can be in flight
      have htask' : s.submission script callable mode = task := by
        rcases htask with htask | htask
        · exact Option.some.inj htask
        · have hle := h.entries.launched (r.issued + 1) (by rw [htask]; rfl)
          exact absurd hle (Nat.not_succ_le_self _)
      exact htask' ▸ tracks_enroll s script callable lane mode _ _
  inFlight id task hf := (h.inFlight id task hf).enroll script callable mode _

/-! ## Cancelling -/

theorem ownedByOther_eq_false {script : String} {id : TaskId} :
    s.ownedByOther script id = false ↔ ∀ k ∈ s.handles, k.task = id → k.script = script := by
  unfold ownedByOther
  rw [List.any_eq_false]
  constructor
  · intro h k hk htask
    by_contra hne
    exact h k hk (by simp [hne, htask])
  · intro h k hk hany
    rw [Bool.and_eq_true, bne_iff_ne, beq_iff_eq] at hany
    exact hany.1 (h k hk hany.2)

theorem isFor_iff {script : String} {id : TaskId} {k : TaskHandle} :
    k.isFor script id = true ↔ k.script = script ∧ k.task = id := by
  unfold TaskHandle.isFor
  rw [Bool.and_eq_true, beq_iff_eq, beq_iff_eq]

/-- After a task is dropped no handle has its number. -/
theorem Agree.not_mem_drop (h : Agree flying r s) {script : String} {id : TaskId}
    (hown : s.ownedByOther script id = false) {k : TaskHandle} (hk : k ∈ (s.drop script id).handles) :
    k.task ≠ id := by
  intro htask
  have hmem : k ∈ s.handles := List.mem_of_mem_eraseP hk
  have hfor : k.isFor script id = true :=
    isFor_iff.mpr ⟨ownedByOther_eq_false.mp hown k hmem htask, htask⟩
  cases hfind : s.handles.find? (TaskHandle.isFor script id) with
  | none => exact List.find?_eq_none.mp hfind k hmem hfor
  | some k₀ =>
    have hperm := (perm_cons_eraseP hfind).map TaskHandle.task
    have hnodup := hperm.nodup_iff.mp h.nodup
    rw [List.map_cons, List.nodup_cons] at hnodup
    have htask₀ : k₀.task = id := (isFor_iff.mp (List.find?_some hfind)).2
    exact hnodup.1 (List.mem_map.mpr ⟨k, hk, htask.trans htask₀.symm⟩)

theorem Accepted.drop {i : ℕ} {task : Submission α} (h : Accepted s i task) (script : String)
    (id : TaskId) : Accepted (s.drop script id) i task :=
  ⟨h.number, (issued_releaseAll _ _).symm ▸ h.ticket⟩

/-- A task is cancelled or, if it is the one that was firing, retired: its handle and its entry go. -/
theorem Agree.drop (h : Agree flying r s) {script : String} {id : TaskId}
    (hown : s.ownedByOther script id = false) {r' : TickRunner (Submission α)}
    {flying' : Option (ℕ × Submission α)} (hentries : r'.Entries (flying'.map Prod.fst))
    (hqueue : ∀ e, e ∈ r'.queue ↔ e ∈ r.queue ∧ e.id ≠ id.raw)
    (hflying : ∀ id task, flying' = some (id, task) → flying = some (id, task)) :
    Agree flying' r' (s.drop script id) where
  entries := hentries
  live := h.live
  balances := h.balances.drop script id
  nodup := h.nodup.sublist ((List.eraseP_sublist).map _)
  waits k hk := by
    -- the handle is not the one that goes, so its entry stays
    obtain ⟨e, he, hid⟩ := h.waits k (List.mem_of_mem_eraseP hk)
    refine ⟨e, (hqueue e).mpr ⟨he, fun heq => h.not_mem_drop hown hk ?_⟩, hid⟩
    exact congrArg TaskId.mk (hid.symm.trans heq)
  tracked e he task htask := by
    obtain ⟨he, hne⟩ := (hqueue e).mp he
    obtain ⟨hhandle, hacc, honce⟩ := h.tracked e he task (htask.imp_right (hflying _ _))
    refine ⟨?_, hacc.drop script id, honce⟩
    refine (List.mem_eraseP_of_neg fun hfor => hne ?_).mpr hhandle
    exact congrArg TaskId.raw (isFor_iff.mp hfor).2
  inFlight i task hf := (h.inFlight i task (hflying i task hf)).drop script id

theorem Agree.cancel (h : Agree flying r s) {script : String} {id : TaskId}
    (hown : s.ownedByOther script id = false) : Agree flying (r.cancel id).2 (s.drop script id) :=
  h.drop hown (h.entries.cancel id) (fun _ => TickRunner.mem_cancel) fun _ _ hf => hf

/-- The runner after a number of tasks were cancelled. -/
def cancelEach (r : TickRunner (Submission α)) (ids : List TaskId) : TickRunner (Submission α) :=
  ids.foldl (fun r id => (r.cancel id).2) r

theorem mem_cancelEach {ids : List TaskId} {e : Waiting (Submission α)} :
    e ∈ (cancelEach r ids).queue ↔ e ∈ r.queue ∧ ∀ id ∈ ids, e.id ≠ id.raw := by
  induction ids generalizing r with
  | nil => simp [cancelEach]
  | cons id ids ih =>
    rw [List.forall_mem_cons, ← and_assoc, ← TickRunner.mem_cancel]
    exact ih

theorem now_cancelEach (r : TickRunner (Submission α)) (ids : List TaskId) :
    (cancelEach r ids).now = r.now := by
  induction ids generalizing r with
  | nil => rfl
  | cons id ids ih => exact ih (r.cancel id).2

theorem issued_cancelEach (r : TickRunner (Submission α)) (ids : List TaskId) :
    (cancelEach r ids).issued = r.issued := by
  induction ids generalizing r with
  | nil => rfl
  | cons id ids ih => exact ih (r.cancel id).2

theorem entries_cancelEach {flying : Option ℕ} (h : r.Entries flying) (ids : List TaskId) :
    (cancelEach r ids).Entries flying := by
  induction ids generalizing r with
  | nil => exact h
  | cons id ids ih => exact ih (h.cancel id)

theorem mem_handlesOf {script : String} {k : TaskHandle} :
    k ∈ s.handlesOf script ↔ k ∈ s.handles ∧ k.script = script := by
  unfold handlesOf
  rw [List.mem_filter, beq_iff_eq]

theorem Accepted.dropAll {i : ℕ} {task : Submission α} (h : Accepted s i task) (script : String) :
    Accepted (s.dropAll script) i task :=
  ⟨h.number, (issued_releaseAll _ _).symm ▸ h.ticket⟩

theorem mem_dropAll {script : String} {k : TaskHandle} :
    k ∈ (s.dropAll script).handles ↔ k ∈ s.handles ∧ k.script ≠ script := by
  unfold dropAll
  rw [List.mem_filter, bne_iff_ne]

/-- All tasks of a script are cancelled. -/
theorem Agree.cancelAll (h : Agree flying r s) (script : String) :
    Agree flying (cancelEach r ((s.handlesOf script).map TaskHandle.task)) (s.dropAll script) where
  entries := entries_cancelEach h.entries _
  live := h.live
  balances := h.balances.dropAll script
  nodup := h.nodup.sublist ((List.filter_sublist).map _)
  waits k hk := by
    obtain ⟨hk, hscript⟩ := mem_dropAll.mp hk
    obtain ⟨e, he, hid⟩ := h.waits k hk
    refine ⟨e, mem_cancelEach.mpr ⟨he, fun id hcancelled heq => hscript ?_⟩, hid⟩
    -- a handle of the script with this task would be the handle at hand
    obtain ⟨k', hk', rfl⟩ := List.mem_map.mp hcancelled
    obtain ⟨hk', hscript'⟩ := mem_handlesOf.mp hk'
    rw [h.eq_of_task hk hk' (congrArg TaskId.mk (hid.symm.trans heq)), hscript']
  tracked e he task htask := by
    obtain ⟨he, hkept⟩ := mem_cancelEach.mp he
    obtain ⟨hhandle, hacc, honce⟩ := h.tracked e he task htask
    refine ⟨mem_dropAll.mpr ⟨hhandle, fun hscript => ?_⟩, hacc.dropAll script, honce⟩
    have hlisted := mem_handlesOf.mpr ⟨hhandle, hscript⟩
    exact hkept _ (List.mem_map_of_mem hlisted) rfl
  inFlight i task hf := (h.inFlight i task hf).dropAll script

/-! ## Firing -/

/-- The next tick begins. -/
theorem Agree.dawn (h : Agree none r s) : Agree none { r with now := r.now + 1 } s where
  entries := ⟨h.entries.ordered, h.entries.numbered, h.entries.held, h.entries.launched⟩
  live := h.live
  balances := h.balances
  nodup := h.nodup
  waits := h.waits
  tracked := h.tracked
  inFlight := h.inFlight

/-- The callable of a task whose turn has come: its own copy, or what its pin holds. -/
def carried? (s : Scheduler α) (task : Submission α) : Option α :=
  match task.callable with
  | some callable => some callable
  | none => if s.live then s.bridge.get? task.ticket else none

/-- A task that is tracked has its callable. -/
theorem Agree.carried (h : Agree flying r s) {id : ℕ} {task : Submission α}
    (hhandle : handleOf id task ∈ s.handles) : ∃ callable, s.carried? task = some callable := by
  unfold carried?
  cases hcallable : task.callable with
  | some callable => exact ⟨callable, rfl⟩
  | none =>
    have hpin : (handleOf id task).pin = some task.ticket := by
      rw [handleOf, hcallable]
      rfl
    dsimp only
    rw [if_pos h.live]
    exact Option.isSome_iff_exists.mp
      ((h.balances.pinsMatch.isPinned_iff task.ticket).mpr ⟨_, hhandle, hpin⟩)

/-- A task takes its turn. -/
theorem Agree.take {id : ℕ} {task : Submission α} (h : Agree none r s)
    (htask : r.task? id = some task) :
    handleOf id task ∈ s.handles ∧ Agree (some (id, task)) (r.take id) s := by
  obtain ⟨e₀, he₀, rfl, htask₀⟩ := TickRunner.task?_eq_some htask
  have htracks := h.tracked e₀ he₀ task (.inl htask₀)
  have hagree : Agree (some (e₀.id, task)) (r.take e₀.id) s :=
    { entries := h.entries.take (h.entries.numbered e₀ he₀).2
      live := h.live
      balances := h.balances
      nodup := h.nodup
      waits := fun k hk => by
        obtain ⟨e, he, hid⟩ := h.waits k hk
        by_cases heq : e.id = e₀.id
        · exact ⟨{ e with task := none }, TickRunner.mem_take.mpr (.inr ⟨e, he, heq, rfl⟩), hid⟩
        · exact ⟨e, TickRunner.mem_take.mpr (.inl ⟨he, heq⟩), hid⟩
      tracked := fun e he task' htask' => by
        rcases TickRunner.mem_take.mp he with ⟨he, hne⟩ | ⟨e', he', heq, rfl⟩
        · refine h.tracked e he task' (.inl (htask'.resolve_right fun hf => hne ?_))
          exact (Prod.mk.inj (Option.some.inj hf)).1.symm
        · -- the entry has given up its task, which is now in flight
          obtain rfl := h.entries.ordered.eq_of_id he' he₀ heq
          obtain rfl : task = task' := by
            rcases htask' with htask' | hf
            · cases htask'
            · exact (Prod.mk.inj (Option.some.inj hf)).2
          exact ⟨htracks.handle, htracks.accepted, htracks.once⟩
      inFlight := fun id' task' hf => by
        obtain ⟨rfl, rfl⟩ := Prod.mk.inj (Option.some.inj hf)
        exact htracks.accepted }
  exact ⟨htracks.handle, hagree⟩

/-- The task that is firing belongs to its script, if it still belongs to any. -/
theorem Agree.flying_owned {id : ℕ} {task : Submission α} (h : Agree (some (id, task)) r s) :
    s.ownedByOther task.script ⟨id⟩ = false := by
  refine ownedByOther_eq_false.mpr fun k hk htask => ?_
  obtain ⟨e, he, hid⟩ := h.waits k hk
  rw [htask] at hid
  have htracks := h.tracked e he task (.inr (by rw [hid]))
  rw [h.eq_of_task hk htracks.handle (htask.trans (congrArg TaskId.mk hid.symm))]
  rfl

/-- The turn of a task that does not repeat ends with its retirement. -/
theorem Agree.retire {id now : ℕ} {task : Submission α} (h : Agree (some (id, task)) r s)
    (honce : task.callable.isSome ∨ task.oneShot) :
    Agree none (r.settle now id task) (s.drop task.script ⟨id⟩) := by
  refine h.drop h.flying_owned (h.entries.settle now task) (fun e => ?_) fun _ _ hf => nomatch hf
  rw [TickRunner.mem_settle]
  refine or_iff_left ?_
  rintro ⟨e', he', heq, n, hn, -⟩
  have hnone := (h.tracked e' he' task (.inr (by rw [heq]))).once.mpr honce
  rw [hn] at hnone
  cases hnone

/-- The turn of a task that repeats ends with its return to the queue. -/
theorem Agree.settle {id now : ℕ} {task : Submission α} (h : Agree (some (id, task)) r s)
    (hrepeats : ¬ (task.callable.isSome ∨ task.oneShot)) :
    Agree none (r.settle now id task) s where
  entries := h.entries.settle now task
  live := h.live
  balances := h.balances
  nodup := h.nodup
  waits k hk := by
    obtain ⟨e, he, hid⟩ := h.waits k hk
    by_cases heq : e.id = id
    · -- the task repeats, so its entry goes back
      have htracks := h.tracked e he task (.inr (by rw [heq]))
      cases hn : e.interval with
      | none => exact absurd (htracks.once.mp hn) hrepeats
      | some n =>
        refine ⟨{ e with due := ticksLater now n, task := some task }, ?_, hid⟩
        exact TickRunner.mem_settle.mpr (.inr ⟨e, he, heq, n, hn, rfl⟩)
    · exact ⟨e, TickRunner.mem_settle.mpr (.inl ⟨he, heq⟩), hid⟩
  tracked e he task' htask' := by
    rcases TickRunner.mem_settle.mp he with ⟨he, hne⟩ | ⟨e', he', heq, n, _, rfl⟩
    · exact h.tracked e he task' (.inl (htask'.resolve_right fun hf => nomatch hf))
    · have hsame : task = task' := by
        rcases htask' with htask' | hf
        · exact Option.some.inj htask'
        · cases hf
      subst hsame
      obtain ⟨hhandle, hacc, honce⟩ := h.tracked e' he' task (.inr (by rw [heq]))
      exact ⟨hhandle, hacc, honce⟩
  inFlight _ _ hf := nomatch hf

end Scheduler
end ScriptHost
