import Mathlib.Data.List.Pairwise
import ScriptHost.Proofs.Scheduler.Agreement

/-!
# The tasks of others

What a script does to the scheduler in its own name leaves the tasks of all other scripts as they are: their
handles, the values of their pins, and their entries in the runner. This is stated between firings, when
every entry of the runner shows whose task it is.
-/

namespace ScriptHost
namespace Scheduler

variable {α : Type} {s s' : Scheduler α} {r r' : TickRunner (Submission α)} {script : String}

/-- The entry is not that of a script's task. -/
def isOthers (script : String) (e : Waiting (Submission α)) : Bool :=
  e.task.map Submission.script != some script

/-- The tasks of all scripts but one are the same. -/
structure SameTasks (script : String) (r r' : TickRunner (Submission α)) (s s' : Scheduler α) :
    Prop where
  handles : (s'.handles.filter fun k => k.script != script) =
    s.handles.filter fun k => k.script != script
  pins : ∀ k ∈ s.handles, k.script ≠ script → ∀ p, k.pin = some p →
    s'.bridge.get? p = s.bridge.get? p
  queue : r'.queue.filter (isOthers script) = r.queue.filter (isOthers script)

theorem SameTasks.refl : SameTasks script r r s s := ⟨rfl, fun _ _ _ _ _ => rfl, rfl⟩

theorem SameTasks.mem_handles (h : SameTasks script r r' s s') {k : TaskHandle}
    (hk : k.script ≠ script) : k ∈ s'.handles ↔ k ∈ s.handles := by
  have hmem := congrArg (k ∈ ·) h.handles
  simpa [List.mem_filter, hk] using hmem

theorem SameTasks.trans {r'' : TickRunner (Submission α)} {s'' : Scheduler α}
    (h₁ : SameTasks script r r' s s') (h₂ : SameTasks script r' r'' s' s'') :
    SameTasks script r r'' s s'' where
  handles := h₂.handles.trans h₁.handles
  pins k hk hscript p hp :=
    (h₂.pins k ((h₁.mem_handles hscript).mpr hk) hscript p hp).trans (h₁.pins k hk hscript p hp)
  queue := h₂.queue.trans h₁.queue

/-! ## Pins -/

/-- No two handles have the same pin. -/
theorem Balances.eq_of_pin (h : Balances [] s) {k k' : TaskHandle} (hk : k ∈ s.handles)
    (hk' : k' ∈ s.handles) {p : PinHandle} (hp : k.pin = some p) (hp' : k'.pin = some p) :
    k = k' := by
  by_contra hne
  have : Std.Symm fun k k' : TaskHandle => ∀ p, k.pin = some p → k'.pin ≠ some p :=
    ⟨fun _ _ hR p hp hp' => hR p hp' hp⟩
  exact List.Pairwise.forall h.pinsMatch.once hk hk' hne p hp hp'

theorem Balances.pin_le (h : Balances [] s) {k : TaskHandle} (hk : k ∈ s.handles) {p : PinHandle}
    (hp : k.pin = some p) : p.raw ≤ s.bridge.issued := by
  refine h.sound.issued p ((ValueBridge.isPinned_iff _ _).mp ?_)
  exact (h.pinsMatch.isPinned_iff p).mpr ⟨k, hk, hp⟩

theorem get?_releaseAll (b : ValueBridge α) (pins : List PinHandle) (p : PinHandle) :
    (releaseAll b pins).get? p = if p ∈ pins then none else b.get? p := by
  induction pins generalizing b with
  | nil => rfl
  | cons q pins ih =>
    refine (ih (b.release q)).trans ?_
    rw [ValueBridge.get?_release]
    by_cases hmem : p ∈ pins
    · simp [hmem]
    · by_cases hq : p = q
      · simp [hq]
      · simp [hmem, hq]

/-! ## What a script does in its own name -/

/-- A script submits a task. -/
theorem sameTasks_submit (h : Agree none r s) (callable : α) (lane : Lane) (mode : Mode) :
    SameTasks script r (r.submit (s.submission script callable mode) lane mode).2 s
      (s.enroll script callable mode ⟨r.issued + 1⟩) where
  handles := by
    show (s.handles ++ [_]).filter _ = _
    rw [List.filter_append]
    simp
  pins k hk _ p hp := by
    have hle := h.balances.pin_le hk hp
    -- a pin of another is an old one
    have hold : (s.bridge.pin callable).2.get? p = s.bridge.get? p :=
      ValueBridge.get?_pin_of_ne _ _ (by omega)
    unfold enroll
    dsimp only
    split
    · exact hold
    · rw [ValueBridge.get?_release, if_neg, hold]
      intro heq
      rw [heq, ValueBridge.pin_raw] at hle
      omega
  queue := by
    show (r.queue ++ [_]).filter (isOthers script) = _
    rw [List.filter_append]
    simp [isOthers, submission]

theorem filter_eraseP {τ : Type} {p q : τ → Bool} {l : List τ} (h : ∀ a, p a = true → q a = false) :
    (l.eraseP p).filter q = l.filter q := by
  induction l with
  | nil => rfl
  | cons a l ih =>
    cases hp : p a with
    | true => rw [List.eraseP_cons_of_pos hp, List.filter_cons_of_neg (by simp [h a hp])]
    | false => rw [List.eraseP_cons_of_neg (by simp [hp]), List.filter_cons, List.filter_cons, ih]

/-- The entry of another script's task shows a handle of that script. -/
theorem Agree.handle_of_isOthers (h : Agree none r s) {e : Waiting (Submission α)} (he : e ∈ r.queue)
    (hothers : isOthers script e = true) :
    ∃ k ∈ s.handles, k.task.raw = e.id ∧ k.script ≠ script := by
  cases htask : e.task with
  | none => exact nomatch (h.entries.held e he).mp htask
  | some task =>
    refine ⟨_, (h.tracked e he task (.inl htask)).handle, rfl, fun hscript => ?_⟩
    rw [isOthers, htask, bne_iff_ne] at hothers
    exact hothers (congrArg some hscript)

/-- A script cancels a task that is not another's. -/
theorem sameTasks_cancel (h : Agree none r s) {id : TaskId}
    (hown : s.ownedByOther script id = false) :
    SameTasks script r (r.cancel id).2 s (s.drop script id) where
  handles := filter_eraseP fun k hk => by simp [(isFor_iff.mp hk).1]
  pins k hk hscript p hp := by
    show (releaseAll _ _).get? p = _
    rw [get?_releaseAll, if_neg]
    intro hmem
    obtain ⟨k', hfind, hp'⟩ := Option.bind_eq_some_iff.mp (Option.mem_toList.mp hmem)
    obtain rfl := h.balances.eq_of_pin hk (List.mem_of_find?_eq_some hfind) hp hp'
    exact hscript (isFor_iff.mp (List.find?_some hfind)).1
  queue := by
    show (r.queue.filter _).filter (isOthers script) = _
    rw [List.filter_filter]
    refine List.filter_congr fun e he => ?_
    cases hothers : isOthers script e with
    | false => rfl
    | true =>
      obtain ⟨k, hk, hid, hscript⟩ := h.handle_of_isOthers he hothers
      have hne : e.id ≠ id.raw := fun heq =>
        hscript (ownedByOther_eq_false.mp hown k hk (congrArg TaskId.mk (hid.trans heq)))
      simp [hne]

theorem queue_cancelEach (ids : List TaskId) : (cancelEach r ids).queue =
    r.queue.filter fun e => ids.all fun id => e.id != id.raw := by
  induction ids generalizing r with
  | nil => simp [cancelEach]
  | cons id ids ih =>
    refine (ih (r := (r.cancel id).2)).trans ?_
    show (r.queue.filter _).filter _ = _
    rw [List.filter_filter]
    refine List.filter_congr fun e _ => ?_
    rw [List.all_cons, Bool.and_comm]

/-- All tasks of a script are cancelled. -/
theorem sameTasks_cancelAll (h : Agree none r s) :
    SameTasks script r (cancelEach r ((s.handlesOf script).map TaskHandle.task)) s
      (s.dropAll script) where
  handles := by
    show (s.handles.filter _).filter _ = _
    rw [List.filter_filter]
    simp
  pins k hk hscript p hp := by
    show (releaseAll _ _).get? p = _
    rw [get?_releaseAll, if_neg]
    intro hmem
    obtain ⟨k', hk', hp'⟩ := mem_pinsOf.mp hmem
    obtain ⟨hk', hscript'⟩ := mem_handlesOf.mp hk'
    -- no two handles have one pin
    obtain rfl := h.balances.eq_of_pin hk hk' hp hp'
    exact hscript hscript'
  queue := by
    rw [queue_cancelEach, List.filter_filter]
    refine List.filter_congr fun e he => ?_
    cases hothers : isOthers script e with
    | false => rfl
    | true =>
      obtain ⟨k, hk, hid, hscript⟩ := h.handle_of_isOthers he hothers
      refine List.all_eq_true.mpr fun id hlisted => bne_iff_ne.mpr fun heq => hscript ?_
      obtain ⟨k', hk', rfl⟩ := List.mem_map.mp hlisted
      obtain ⟨hk', hscript'⟩ := mem_handlesOf.mp hk'
      rw [h.eq_of_task hk hk' (congrArg TaskId.mk (hid.trans heq)), hscript']

/-- A script without handles has no entries. -/
theorem Agree.isOthers_of_no_handles (h : Agree none r s) (hnone : ∀ k ∈ s.handles, k.script ≠ script)
    {e : Waiting (Submission α)} (he : e ∈ r.queue) : isOthers script e = true := by
  cases htask : e.task with
  | none => exact nomatch (h.entries.held e he).mp htask
  | some task =>
    have hscript := hnone _ (h.tracked e he task (.inl htask)).handle
    rw [isOthers, htask, bne_iff_ne]
    exact fun heq => hscript (Option.some.inj heq)

end Scheduler
end ScriptHost
