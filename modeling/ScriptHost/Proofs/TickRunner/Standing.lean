import ScriptHost.Proofs.TickRunner.Due
import ScriptHost.Proofs.TickRunner.Entries

/-!
# When entries are due

`Standing flying todo r` adds to the invariant of the entries what is known of their due ticks: `todo` has the
numbers of the tasks that were found due when the tick began and have not had their turn, and whatever is
overdue is among them. Between ticks there are none.

`Standing.dawn` is the start of a tick; `Standing.skip`, `Standing.take` and `Standing.settle` are the turn of
a task in it.
-/

namespace ScriptHost
namespace TickRunner

variable {τ : Type} {r : TickRunner τ} {flying : Option ℕ} {todo : List ℕ}

/-- The invariant of the queue of a runner whose last tick has not come. -/
structure Standing (flying : Option ℕ) (todo : List ℕ) (r : TickRunner τ) : Prop
    extends Entries flying r where
  capped : ∀ e ∈ r.queue, e.due ≤ lastTick
  paced : ∀ e ∈ r.queue, ∀ p, e.interval = some p → 1 ≤ p
  /-- What is due has its turn ahead of it. -/
  overdue : ∀ e ∈ r.queue, flying ≠ some e.id → e.due ≤ r.now → e.id ∈ todo
  nodup : todo.Nodup
  issued : ∀ id ∈ todo, id ≤ r.issued
  flown : ∀ id, flying = some id → id ∉ todo

theorem standing_empty : Standing none [] ({} : TickRunner τ) where
  toEntries := entries_empty
  capped _ h := nomatch h
  paced _ h := nomatch h
  overdue _ h := nomatch h
  nodup := .nil
  issued _ h := nomatch h
  flown _ h := nomatch h

/-! ## Submit and cancel -/

theorem firstDue_gt {now : ℕ} (hnow : now < lastTick) (mode : Mode) : now < mode.firstDue now := by
  obtain ⟨t, ⟨_, hlt, _⟩, hdue⟩ := mode.exists_isNext_firstDue hnow
  rw [hdue]
  exact Nat.lt_min.mpr ⟨hlt, hnow⟩

theorem firstDue_le {now : ℕ} (hnow : now < lastTick) (mode : Mode) :
    mode.firstDue now ≤ lastTick := by
  obtain ⟨t, _, hdue⟩ := mode.exists_isNext_firstDue hnow
  rw [hdue]
  exact Nat.min_le_right _ _

theorem one_le_of_interval? {mode : Mode} {p : ℕ} (h : mode.interval? = some p) : 1 ≤ p := by
  cases mode with
  | immediate => cases h
  | delayed delay => cases h
  | repeating delay period =>
    obtain rfl : max period 1 = p := by injection h
    exact Nat.le_max_right _ _

theorem Standing.submit (h : Standing flying todo r) (hnow : r.now < lastTick) (task : τ)
    (lane : Lane) (mode : Mode) : Standing flying todo (r.submit task lane mode).2 where
  toEntries := h.toEntries.submit task lane mode
  capped e he := by
    rcases mem_submit.mp he with he | rfl
    · exact h.capped e he
    · exact firstDue_le hnow mode
  paced e he p hp := by
    rcases mem_submit.mp he with he | rfl
    · exact h.paced e he p hp
    · exact one_le_of_interval? hp
  overdue e he hflying hdue := by
    rcases mem_submit.mp he with he | rfl
    · exact h.overdue e he hflying hdue
    · exact absurd hdue (Nat.not_le_of_lt (firstDue_gt hnow mode))
  nodup := h.nodup
  issued id hid := Nat.le_succ_of_le (h.issued id hid)
  flown := h.flown

theorem Standing.cancel (h : Standing flying todo r) (id : TaskId) :
    Standing flying todo (r.cancel id).2 where
  toEntries := h.toEntries.cancel id
  capped e he := h.capped e (mem_cancel.mp he).1
  paced e he := h.paced e (mem_cancel.mp he).1
  overdue e he := h.overdue e (mem_cancel.mp he).1
  nodup := h.nodup
  issued := h.issued
  flown := h.flown

/-! ## Ticks -/

theorem mem_dueIn {lane : Lane} {id : ℕ} :
    id ∈ r.dueIn lane ↔ ∃ e ∈ r.queue, e.id = id ∧ e.lane = lane ∧ e.due ≤ r.now := by
  unfold dueIn
  simp only [List.mem_map, List.mem_filter, Bool.and_eq_true, beq_iff_eq, decide_eq_true_eq]
  constructor
  · rintro ⟨e, ⟨he, hlane, hdue⟩, hid⟩
    exact ⟨e, he, hid, hlane, hdue⟩
  · rintro ⟨e, he, hid, hlane, hdue⟩
    exact ⟨e, ⟨he, hlane, hdue⟩, hid⟩

theorem mem_dueIds {id : ℕ} : id ∈ r.dueIds ↔ ∃ e ∈ r.queue, e.id = id ∧ e.due ≤ r.now := by
  unfold dueIds
  rw [List.mem_append, mem_dueIn, mem_dueIn]
  constructor
  · rintro (⟨e, he, hid, _, hdue⟩ | ⟨e, he, hid, _, hdue⟩)
    · exact ⟨e, he, hid, hdue⟩
    · exact ⟨e, he, hid, hdue⟩
  · rintro ⟨e, he, hid, hdue⟩
    cases hlane : e.lane with
    | sync => exact .inl ⟨e, he, hid, hlane, hdue⟩
    | async => exact .inr ⟨e, he, hid, hlane, hdue⟩

/-- A lane's due tasks come in the order of submission. -/
theorem Ordered.dueIn (h : r.Ordered) (lane : Lane) : (r.dueIn lane).Pairwise (· < ·) :=
  List.pairwise_map.mpr (h.filter _)

theorem Ordered.dueIds_nodup (h : r.Ordered) : r.dueIds.Nodup := by
  refine List.nodup_append.mpr ⟨(h.dueIn .sync).imp Nat.ne_of_lt,
    (h.dueIn .async).imp Nat.ne_of_lt, ?_⟩
  rintro i hsync j hasync rfl
  obtain ⟨e, he, hid, hlane, _⟩ := mem_dueIn.mp hsync
  obtain ⟨e', he', hid', hlane', _⟩ := mem_dueIn.mp hasync
  rw [h.eq_of_id he he' (hid.trans hid'.symm), hlane'] at hlane
  cases hlane

/-- The runner one tick later, before anything fires. -/
def dawn (r : TickRunner τ) : TickRunner τ := { r with now := r.now + 1 }

/-- A tick begins: whatever is due gets a turn. -/
theorem Standing.dawn (h : Standing none [] r) : Standing none r.dawn.dueIds r.dawn where
  toEntries := ⟨h.ordered, h.numbered, h.held, h.launched⟩
  capped := h.capped
  paced := h.paced
  overdue e he _ hdue := mem_dueIds.mpr ⟨e, he, rfl, hdue⟩
  nodup := Ordered.dueIds_nodup (r := r.dawn) h.ordered
  issued id hid := by
    obtain ⟨e, he, rfl, _⟩ := mem_dueIds.mp hid
    exact (h.numbered e he).2
  flown id hid := nomatch hid

/-- A task is passed over that is no longer there. -/
theorem Standing.skip {id : ℕ} (h : Standing none (id :: todo) r) (hnone : r.task? id = none) :
    Standing none todo r where
  toEntries := h.toEntries
  capped := h.capped
  paced := h.paced
  overdue e he hflying hdue := by
    have hmem := h.overdue e he hflying hdue
    exact (List.mem_cons.mp hmem).resolve_left (h.not_mem_of_task? hnone e he)
  nodup := (List.nodup_cons.mp h.nodup).2
  issued i hi := h.issued i (List.mem_cons_of_mem id hi)
  flown _ hflying := nomatch hflying

theorem Standing.take {id : ℕ} (h : Standing none (id :: todo) r) :
    Standing (some id) todo (r.take id) where
  toEntries := h.toEntries.take (h.issued id List.mem_cons_self)
  capped e he := by
    rcases mem_take.mp he with ⟨he, _⟩ | ⟨e', he', _, rfl⟩
    · exact h.capped e he
    · exact h.capped e' he'
  paced e he := by
    rcases mem_take.mp he with ⟨he, _⟩ | ⟨e', he', _, rfl⟩
    · exact h.paced e he
    · exact h.paced e' he'
  overdue e he hflying hdue := by
    rcases mem_take.mp he with ⟨he, hid⟩ | ⟨e', he', hid, rfl⟩
    · exact (List.mem_cons.mp (h.overdue e he (fun h => nomatch h) hdue)).resolve_left hid
    · exact absurd (congrArg some hid.symm) hflying
  nodup := (List.nodup_cons.mp h.nodup).2
  issued i hi := h.issued i (List.mem_cons_of_mem id hi)
  flown i hi := by
    obtain rfl := Option.some.inj hi
    exact (List.nodup_cons.mp h.nodup).1

theorem Standing.settle {id : ℕ} (h : Standing (some id) todo r) (hnow : r.now < lastTick)
    (task : τ) : Standing none todo (r.settle r.now id task) where
  toEntries := h.toEntries.settle r.now task
  capped e he := by
    rcases mem_settle.mp he with ⟨he, _⟩ | ⟨e', _, _, n, _, rfl⟩
    · exact h.capped e he
    · exact Nat.min_le_right _ _
  paced e he := by
    rcases mem_settle.mp he with ⟨he, _⟩ | ⟨e', he', _, n, _, rfl⟩
    · exact h.paced e he
    · exact h.paced e' he'
  overdue e he _ hdue := by
    rcases mem_settle.mp he with ⟨he, hid⟩ | ⟨e', he', _, n, hn, rfl⟩
    · exact h.overdue e he (fun hflying => hid (Option.some.inj hflying).symm) hdue
    · have hlt : r.now < ticksLater r.now n :=
        Nat.lt_min.mpr ⟨Nat.lt_add_of_pos_right (h.paced e' he' n hn), hnow⟩
      exact absurd hdue (Nat.not_le_of_lt hlt)
  nodup := h.nodup
  issued := h.issued
  flown _ hflying := nomatch hflying

end TickRunner
end ScriptHost
