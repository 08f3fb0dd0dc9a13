import Mathlib.Data.List.Nodup
import Mathlib.Data.Nat.Notation
import ScriptHost.TickRunner

/-!
# The entries of a tick runner

What each operation does to the queue, and the invariant of the entries: they stand in the order of
submission, under numbers that were issued, and hold their tasks. While a task fires, `flying` is its number,
and its entry is the only one without a task; between firings there is no such entry.

One lemma for each operation: `Entries.submit` and `Entries.cancel`, at any moment; `Entries.take` and
`Entries.settle` around a firing.
-/

namespace ScriptHost
namespace TickRunner

variable {τ : Type} {r : TickRunner τ} {flying : Option ℕ}

/-- The queue is in the order of submission, with one entry for a number. -/
def Ordered (r : TickRunner τ) : Prop := r.queue.Pairwise fun e e' => e.id < e'.id

/-- The invariant of the entries. -/
structure Entries (flying : Option ℕ) (r : TickRunner τ) : Prop where
  ordered : r.Ordered
  numbered : ∀ e ∈ r.queue, 1 ≤ e.id ∧ e.id ≤ r.issued
  /-- Only the task that is firing is out of its entry. -/
  held : ∀ e ∈ r.queue, e.task = none ↔ flying = some e.id
  launched : ∀ id, flying = some id → id ≤ r.issued

theorem entries_empty : Entries none ({} : TickRunner τ) where
  ordered := .nil
  numbered _ h := nomatch h
  held _ h := nomatch h
  launched _ h := nomatch h

theorem Ordered.eq_of_id (h : r.Ordered) {e e' : Waiting τ} (he : e ∈ r.queue)
    (he' : e' ∈ r.queue) (hid : e.id = e'.id) : e = e' := by
  have hnodup : (r.queue.map Waiting.id).Nodup :=
    List.pairwise_map.mpr (h.imp fun hlt => Nat.ne_of_lt hlt)
  exact List.inj_on_of_nodup_map hnodup he he' hid

/-! ## Submit and cancel -/

theorem mem_submit {task : τ} {lane : Lane} {mode : Mode} {e : Waiting τ} :
    e ∈ (r.submit task lane mode).2.queue ↔ e ∈ r.queue ∨
      e = ⟨r.issued + 1, lane, mode.firstDue r.now, mode.interval?, some task⟩ := by
  unfold submit
  rw [List.mem_append, List.mem_singleton]

/-- A task is submitted, under a number that no other has. -/
theorem Entries.submit (h : Entries flying r) (task : τ) (lane : Lane) (mode : Mode) :
    Entries flying (r.submit task lane mode).2 where
  ordered := by
    refine List.pairwise_append.mpr ⟨h.ordered, List.pairwise_singleton _ _, fun e he e' he' => ?_⟩
    rw [List.mem_singleton] at he'
    subst he'
    exact Nat.lt_succ_of_le (h.numbered e he).2
  numbered e he := by
    show 1 ≤ e.id ∧ e.id ≤ r.issued + 1
    rcases mem_submit.mp he with he | rfl
    · exact ⟨(h.numbered e he).1, Nat.le_succ_of_le (h.numbered e he).2⟩
    · exact ⟨Nat.le_add_left 1 _, Nat.le_refl _⟩
  held e he := by
    rcases mem_submit.mp he with he | rfl
    · exact h.held e he
    · refine Iff.intro (fun htask => nomatch htask) fun hflying => ?_
      exact absurd (h.launched _ hflying) (Nat.not_succ_le_self _)
  launched id hid := Nat.le_succ_of_le (h.launched id hid)

theorem mem_cancel {id : TaskId} {e : Waiting τ} :
    e ∈ (r.cancel id).2.queue ↔ e ∈ r.queue ∧ e.id ≠ id.raw := by
  unfold cancel
  rw [List.mem_filter, bne_iff_ne]

/-- A task is cancelled; it may be the one that is firing. -/
theorem Entries.cancel (h : Entries flying r) (id : TaskId) : Entries flying (r.cancel id).2 where
  ordered := h.ordered.filter _
  numbered e he := h.numbered e (mem_cancel.mp he).1
  held e he := h.held e (mem_cancel.mp he).1
  launched := h.launched

/-! ## Firing -/

theorem task?_eq_some {id : ℕ} {task : τ} (h : r.task? id = some task) :
    ∃ e ∈ r.queue, e.id = id ∧ e.task = some task := by
  unfold task? at h
  obtain ⟨e, hfind, htask⟩ := Option.bind_eq_some_iff.mp h
  exact ⟨e, List.mem_of_find?_eq_some hfind, by simpa using List.find?_some hfind, htask⟩

/-- While nothing is firing, an entry without a task is an entry that does not exist. -/
theorem Entries.not_mem_of_task? (h : Entries none r) {id : ℕ} (hnone : r.task? id = none) :
    ∀ e ∈ r.queue, e.id ≠ id := by
  rintro e he rfl
  unfold task? at hnone
  rcases hfind : r.queue.find? (fun e' => e'.id == e.id) with _ | e'
  · have hno := List.find?_eq_none.mp hfind e he
    simp at hno
  · rw [hfind] at hnone
    have hflying := (h.held e' (List.mem_of_find?_eq_some hfind)).mp hnone
    cases hflying

theorem mem_take {id : ℕ} {e : Waiting τ} : e ∈ (r.take id).queue ↔
    (e ∈ r.queue ∧ e.id ≠ id) ∨ ∃ e' ∈ r.queue, e'.id = id ∧ e = { e' with task := none } := by
  unfold take
  rw [List.mem_map]
  constructor
  · rintro ⟨e', he', rfl⟩
    by_cases hid : e'.id = id
    · exact .inr ⟨e', he', hid, by simp [hid]⟩
    · exact .inl (by simp [hid, he'])
  · rintro (⟨he, hid⟩ | ⟨e', he', hid, rfl⟩)
    · exact ⟨e, he, by simp [hid]⟩
    · exact ⟨e', he', by simp [hid]⟩

/-- A task takes its turn. -/
theorem Entries.take {id : ℕ} (h : Entries none r) (hid : id ≤ r.issued) :
    Entries (some id) (r.take id) where
  ordered := by
    refine List.pairwise_map.mpr (h.ordered.imp fun {e e'} hlt => ?_)
    split <;> split <;> exact hlt
  numbered e he := by
    rcases mem_take.mp he with ⟨he, _⟩ | ⟨e', he', _, rfl⟩
    · exact h.numbered e he
    · exact h.numbered e' he'
  held e he := by
    rcases mem_take.mp he with ⟨he, hne⟩ | ⟨e', _, heq, rfl⟩
    · refine Iff.intro (fun htask => nomatch (h.held e he).mp htask) fun hflying => ?_
      exact absurd (Option.some.inj hflying).symm hne
    · exact Iff.intro (fun _ => congrArg some heq.symm) fun _ => rfl
  launched i hi := by
    obtain rfl := Option.some.inj hi
    exact hid

/-- Whatever becomes of an entry, it keeps its number. -/
theorem settled_id {now id : ℕ} {task : τ} {e b : Waiting τ}
    (h : (if e.id == id then Waiting.settled? now task e else some e) = some b) : b.id = e.id := by
  split at h
  · obtain ⟨n, _, rfl⟩ := Option.map_eq_some_iff.mp h
    rfl
  · obtain rfl := Option.some.inj h
    rfl

theorem mem_settle {now id : ℕ} {task : τ} {e : Waiting τ} : e ∈ (r.settle now id task).queue ↔
    (e ∈ r.queue ∧ e.id ≠ id) ∨ ∃ e' ∈ r.queue, e'.id = id ∧ ∃ n, e'.interval = some n ∧
      e = { e' with due := ticksLater now n, task := some task } := by
  unfold settle
  rw [List.mem_filterMap]
  constructor
  · rintro ⟨e', he', heq⟩
    by_cases hid : e'.id = id
    · rw [if_pos (by simp [hid])] at heq
      obtain ⟨n, hn, rfl⟩ := Option.map_eq_some_iff.mp heq
      exact .inr ⟨e', he', hid, n, hn, rfl⟩
    · rw [if_neg (by simp [hid])] at heq
      obtain rfl := Option.some.inj heq
      exact .inl ⟨he', hid⟩
  · rintro (⟨he, hid⟩ | ⟨e', he', hid, n, hn, rfl⟩)
    · exact ⟨e, he, by simp [hid]⟩
    · exact ⟨e', he', by simp [hid, Waiting.settled?, hn]⟩

/-- The turn of a task ends: it waits for the next one, if it repeats and was not cancelled. -/
theorem Entries.settle {id : ℕ} (h : Entries (some id) r) (now : ℕ) (task : τ) :
    Entries none (r.settle now id task) where
  ordered := by
    refine List.pairwise_filterMap.mpr (h.ordered.imp fun {e e'} hlt b hb b' hb' => ?_)
    rw [settled_id hb, settled_id hb']
    exact hlt
  numbered e he := by
    rcases mem_settle.mp he with ⟨he, _⟩ | ⟨e', he', _, n, _, rfl⟩
    · exact h.numbered e he
    · exact h.numbered e' he'
  held e he := by
    refine Iff.intro (fun htask => ?_) fun hflying => nomatch hflying
    rcases mem_settle.mp he with ⟨he, hid⟩ | ⟨e', _, _, n, _, rfl⟩
    · exact absurd (Option.some.inj ((h.held e he).mp htask)).symm hid
    · cases htask
  launched _ hflying := nomatch hflying

/-! ## What is in the queue -/

/-- The queue has an entry of a number. -/
def Has (r : TickRunner τ) (id : ℕ) : Prop := ∃ e ∈ r.queue, e.id = id

theorem cancel_eq_true_iff {id : TaskId} : (r.cancel id).1 = true ↔ r.Has id.raw := by
  unfold cancel Has
  simp only [List.any_eq_true, beq_iff_eq]

/-- A submission adds a new number. -/
theorem has_submit {task : τ} {lane : Lane} {mode : Mode} {id : ℕ} :
    (r.submit task lane mode).2.Has id ↔ r.Has id ∨ id = r.issued + 1 := by
  constructor
  · rintro ⟨e, he, rfl⟩
    rcases mem_submit.mp he with he | rfl
    · exact .inl ⟨e, he, rfl⟩
    · exact .inr rfl
  · rintro (⟨e, he, rfl⟩ | rfl)
    · exact ⟨e, mem_submit.mpr (.inl he), rfl⟩
    · exact ⟨_, mem_submit.mpr (.inr rfl), rfl⟩

theorem has_cancel {id : TaskId} {i : ℕ} : (r.cancel id).2.Has i ↔ r.Has i ∧ i ≠ id.raw := by
  constructor
  · rintro ⟨e, he, rfl⟩
    obtain ⟨he, hne⟩ := mem_cancel.mp he
    exact ⟨⟨e, he, rfl⟩, hne⟩
  · rintro ⟨⟨e, he, rfl⟩, hne⟩
    exact ⟨e, mem_cancel.mpr ⟨he, hne⟩, rfl⟩

theorem has_take {id i : ℕ} : (r.take id).Has i ↔ r.Has i := by
  constructor
  · rintro ⟨e, he, rfl⟩
    rcases mem_take.mp he with ⟨he, _⟩ | ⟨e', he', _, rfl⟩
    · exact ⟨e, he, rfl⟩
    · exact ⟨e', he', rfl⟩
  · rintro ⟨e, he, rfl⟩
    by_cases hid : e.id = id
    · exact ⟨_, mem_take.mpr (.inr ⟨e, he, hid, rfl⟩), rfl⟩
    · exact ⟨e, mem_take.mpr (.inl ⟨he, hid⟩), rfl⟩

/-- When a turn is over, the entry of its task stays if the task repeats. -/
theorem has_settle {now id : ℕ} {task : τ} {i : ℕ} : (r.settle now id task).Has i ↔
    ∃ e ∈ r.queue, e.id = i ∧ (i = id → e.interval ≠ none) := by
  constructor
  · rintro ⟨e, he, rfl⟩
    rcases mem_settle.mp he with ⟨he, hne⟩ | ⟨e', he', _, n, hn, rfl⟩
    · exact ⟨e, he, rfl, fun heq => absurd heq hne⟩
    · exact ⟨e', he', rfl, fun _ hnone => Option.some_ne_none n (hn.symm.trans hnone)⟩
  · rintro ⟨e, he, rfl, hrepeats⟩
    by_cases hid : e.id = id
    · obtain ⟨n, hn⟩ := Option.ne_none_iff_exists'.mp (hrepeats hid)
      exact ⟨_, mem_settle.mpr (.inr ⟨e, he, hid, n, hn, rfl⟩), rfl⟩
    · exact ⟨e, mem_settle.mpr (.inl ⟨he, hid⟩), rfl⟩

theorem has_of_task? {id : ℕ} {task : τ} (h : r.task? id = some task) : r.Has id := by
  obtain ⟨e, he, hid, _⟩ := task?_eq_some h
  exact ⟨e, he, hid⟩

/-- While nothing is firing, a task that has no turn to take is not there. -/
theorem Entries.not_has_of_task? (h : Entries none r) {id : ℕ} (hnone : r.task? id = none) :
    ¬ r.Has id := by
  rintro ⟨e, he, hid⟩
  exact h.not_mem_of_task? hnone e he hid

end TickRunner
end ScriptHost
