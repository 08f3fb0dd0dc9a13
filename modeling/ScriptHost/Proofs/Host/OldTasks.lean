import ScriptHost.Proofs.Host.Lasting

/-!
# Old tasks do not come back

The number of a task is not given out again. When a script has been unloaded, the tasks that it had are gone, and those
that it is given when it is loaded again have later numbers (`Newer`). So whoever has kept an old number cannot cancel
a task of the script with it (`Newer.cancelTask`), nor at any time thereafter (`noneReturns_unload`).
-/

namespace ScriptHost
namespace Host

open Scheduler

variable {γ α : Type} {g : Guest γ α} {h : Host γ α} {name : String} {n : ℕ}

/-- The tasks that a script has have later numbers than those given out up to some moment. -/
structure Newer (n : ℕ) (name : String) (h : Host γ α) : Prop where
  issued : n ≤ h.runner.issued
  tasks : ∀ k ∈ h.scheduler.handlesOf name, n < k.task.raw

theorem Newer.shrink {h' : Host γ α} (hnewer : Newer n name h) (hissued : h'.runner.issued = h.runner.issued)
    (hhandles : h'.scheduler.handles ⊆ h.scheduler.handles) : Newer n name h' := by
  refine ⟨hissued ▸ hnewer.issued, fun k hk => hnewer.tasks k ?_⟩
  rw [handlesOf, List.mem_filter] at hk ⊢
  exact ⟨hhandles hk.1, hk.2⟩

theorem Newer.perform {flying : Option (ℕ × Submission α)} (hnewer : Newer n name h) (act : Act γ α)
    (h₀ : Orderly flying h) : Newer n name (act.perform h) := by
  have haside : ∀ h' : Host γ α, h'.runner = h.runner → h'.scheduler = h.scheduler → Newer n name h' :=
    fun h' hrunner hscheduler => hnewer.shrink (by rw [hrunner])
      (by rw [hscheduler]; exact List.Subset.refl _)
  cases act with
  | think state => exact haside _ rfl rfl
  | report record => exact haside _ rfl rfl
  | onLoad number hook => exact haside _ rfl rfl
  | onUnload number hook => exact haside _ rfl rfl
  | declare number command => exact haside _ rfl rfl
  | share number object value =>
    obtain ⟨objects, records, -, heq⟩ := share_eq (h := h) (.script (h.controlName number)) object value
    rw [Act.perform, heq]
    exact haside _ rfl rfl
  | unshare number object =>
    obtain ⟨objects, -, heq⟩ := unshare_eq (h := h) (.script (h.controlName number)) object
    rw [Act.perform, heq]
    exact haside _ rfl rfl
  -- a new task has the next number, and this is beyond the old ones
  | schedule script callable lane mode =>
    obtain ⟨record, heq⟩ := schedule_eq h₀.tasks.balances script callable lane mode
    rw [Act.perform, heq]
    refine ⟨Nat.le_succ_of_le hnewer.issued, fun k hk => ?_⟩
    obtain ⟨hk, hscript⟩ := List.mem_filter.mp hk
    rcases List.mem_append.mp hk with hold | hnew
    · exact hnewer.tasks k (List.mem_filter.mpr ⟨hold, hscript⟩)
    · rw [List.mem_singleton.mp hnew]
      exact Nat.lt_succ_of_le hnewer.issued
  | cancel script id =>
    rw [Act.perform, cancelTask_eq h₀.tasks.balances]
    split
    · exact hnewer
    · exact hnewer.shrink rfl List.eraseP_subset

/-- Nobody can make it otherwise. -/
theorem Newer.lasting (n : ℕ) (name : String) : Lasting (Newer (γ := γ) (α := α) n name) where
  acts flying h acts h₀ hnewer := by
    induction acts generalizing h with
    | nil => exact hnewer
    | cons act acts ih => exact ih _ (act.perform_orderly h₀).1 (hnewer.perform act h₀)
  shrink h h' hissued hhandles hnewer := hnewer.shrink hissued hhandles

/-! ## Cancelling under an old number -/

/-- What a script's tasks are is the same: their handles, their entries and what is pinned for them. -/
structure KeepsTasks (name : String) (h h' : Host γ α) : Prop where
  handles : h'.scheduler.handlesOf name = h.scheduler.handlesOf name
  waiting : ∀ k ∈ h.scheduler.handlesOf name, h'.runner.task? k.task.raw = h.runner.task? k.task.raw
  pins : ∀ k ∈ h.scheduler.handlesOf name, ∀ p, k.pin = some p →
    h'.scheduler.bridge.get? p = h.scheduler.bridge.get? p

/-- There is nothing to cancel under an old number: at most the runner is asked. -/
theorem Newer.cancelTask_eq {flying : Option (ℕ × Submission α)} (hnewer : Newer n name h)
    (h₀ : Orderly flying h) {id : TaskId} (hid : id.raw ≤ n) :
    Host.cancelTask name id h =
      if h.scheduler.ownedByOther name id then (.ok false, h)
      else (.ok (h.runner.cancel id).1, { h with runner := (h.runner.cancel id).2 }) := by
  have hnone : ∀ k ∈ h.scheduler.handles, ¬TaskHandle.isFor name id k = true := by
    intro k hk hfor
    obtain ⟨hscript, htask⟩ := isFor_iff.mp hfor
    have hlt := hnewer.tasks k (List.mem_filter.mpr ⟨hk, beq_iff_eq.mpr hscript⟩)
    rw [htask] at hlt
    exact absurd hid (Nat.not_le_of_lt hlt)
  have hfind : (h.scheduler.untrack name id).1 = none := List.find?_eq_none.mpr hnone
  have hdrop : h.scheduler.drop name id = h.scheduler := by
    unfold drop
    rw [hfind, List.eraseP_of_forall_not hnone]
    rfl
  rw [Host.cancelTask_eq h₀.tasks.balances, hfind, hdrop]
  rfl

/-- **An old number cancels nothing of a script.** Not even while guest code is at work, and whoever uses it. -/
theorem Newer.cancelTask {flying : Option (ℕ × Submission α)} (hnewer : Newer n name h)
    (h₀ : Orderly flying h) {id : TaskId} (hid : id.raw ≤ n) :
    KeepsTasks name h (Host.cancelTask name id h).2 := by
  rw [hnewer.cancelTask_eq h₀ hid]
  split
  · exact ⟨rfl, fun _ _ => rfl, fun _ _ _ _ => rfl⟩
  · refine ⟨rfl, fun k hk => ?_, fun _ _ _ _ => rfl⟩
    have hne : k.task.raw ≠ id.raw := Nat.ne_of_gt (Nat.lt_of_le_of_lt hid (hnewer.tasks k hk))
    show ((h.runner.queue.filter fun e => e.id != id.raw).find? _).bind _ = _
    rw [List.find?_filter]
    refine congrArg (fun x => Option.bind x Waiting.task) (congrArg (h.runner.queue.find? ·) ?_)
    funext e
    by_cases he : e.id = k.task.raw
    · simp [he, hne]
    · simp [he]

/-- Between operations it does nothing at all. -/
theorem Newer.cancelTask_idle (hnewer : Newer n name h) (h₀ : Orderly none h) {id : TaskId}
    (hid : id.raw ≤ n) : Host.cancelTask name id h = (.ok false, h) := by
  rw [hnewer.cancelTask_eq h₀ hid]
  cases hother : h.scheduler.ownedByOther name id with
  | true => rfl
  | false =>
    -- an entry of that number would be that of another script's task
    have hgone : ∀ e ∈ h.runner.queue, e.id ≠ id.raw := by
      intro e he heq
      cases htask : e.task with
      | none => exact nomatch (h₀.tasks.entries.held e he).mp htask
      | some task =>
        have hhandle := (h₀.tasks.tracked e he task (.inl htask)).handle
        have hscript := ownedByOther_eq_false.mp hother _ hhandle (congrArg TaskId.mk heq)
        have hlt := hnewer.tasks _ (List.mem_filter.mpr ⟨hhandle, beq_iff_eq.mpr hscript⟩)
        exact absurd hid (Nat.not_le_of_lt (heq ▸ hlt))
    have hcancel : h.runner.cancel id = (false, h.runner) := by
      unfold TickRunner.cancel
      rw [List.filter_eq_self.mpr fun e he => by simpa using hgone e he]
      have hany : h.runner.queue.any (fun e => e.id == id.raw) = false := by
        rw [List.any_eq_false]
        exact fun e he => by simpa using hgone e he
      rw [hany]
    rw [hcancel]
    rfl

/-! ## After an unload -/

/-- The tasks that a host has given out do not come back: whatever is done with it from now on, their numbers cancel
nothing of a script, neither in the end nor whenever guest code is at work meanwhile. -/
def NoneReturns (g : Guest γ α) (name : String) (h : Host γ α) : Prop :=
  ∀ (id : TaskId) (ops : List (Operation α)), id.raw ≤ h.runner.issued →
    Host.cancelTask name id (execAll g ops h) = (.ok false, execAll g ops h) ∧
    ∀ st ∈ runStints g ops h, ∀ acts : List (Act γ α),
      KeepsTasks name (Act.performAll acts st.before)
        (Host.cancelTask name id (Act.performAll acts st.before)).2

/-- When a script has been unloaded, none of its tasks comes back. -/
theorem noneReturns_unload (hg : g.KeepsToApi) (h₀ : Orderly none h) (hloaded : h.isLoaded name = true) :
    NoneReturns g name (unload g name h).2 := by
  obtain ⟨env, records, -, heq⟩ := h₀.unload_eq hg hloaded
  have hgone := Tidy.unload hg name h h₀
  have hnewer : Newer (unload g name h).2.runner.issued name (unload g name h).2 := by
    refine ⟨Nat.le_refl _, fun k hk => ?_⟩
    rw [heq] at hk
    obtain ⟨hleft, hscript⟩ := List.mem_filter.mp hk
    have hother : (k.script != name) = true := (List.mem_filter.mp hleft).2
    exact absurd (beq_iff_eq.mp hscript) (bne_iff_ne.mp hother)
  intro id ops hid
  obtain ⟨hend, hstints⟩ := (Newer.lasting _ name).execAll hg ops hgone hnewer
  refine ⟨hend.cancelTask_idle (execAll_orderly hg ops hgone) hid, fun st hst acts => ?_⟩
  obtain ⟨hbefore, flying, horder⟩ := hstints st hst
  exact ((Newer.lasting _ name).acts flying _ acts horder hbefore).cancelTask
    (Act.performAll_orderly acts horder).1 hid

end Host
end ScriptHost
