import ScriptHost.Proofs.Host.Likeness

/-!
# Parts that stay alike

The tasks, shared objects, commands and control objects of two hosts stay alike when the same is done to both: when
tasks are submitted, cancelled one by one or all those of a script, when objects are shared, removed and released,
when commands are published and presented, and when control objects are made and changed.
-/

namespace ScriptHost

/-! ## More numbers -/

namespace Matching

variable {α : Type} (m : Matching)

/-- A submission to either host: the next numbers of their tasks and of their pins match. -/
def submitted (r₁ r₂ : TickRunner (Submission α)) (s₁ s₂ : Scheduler α) : Matching :=
  { m with
    task := paired m.task (r₁.issued + 1) (r₂.issued + 1)
    pin := paired m.pin (s₁.bridge.issued + 1) (s₂.bridge.issued + 1) }

theorem le_submitted (r₁ r₂ : TickRunner (Submission α)) (s₁ s₂ : Scheduler α) :
    m ≤ m.submitted r₁ r₂ s₁ s₂ :=
  ⟨fun _ _ => .inl, fun _ _ => .inl, fun _ _ h => h⟩

/-- A new control object of either host. -/
def withControl (i j : ℕ) : Matching := { m with control := paired m.control i j }

theorem le_withControl (i j : ℕ) : m ≤ m.withControl i j :=
  ⟨fun _ _ h => h, fun _ _ h => h, fun _ _ => .inl⟩

end Matching

namespace Likeness

open Scheduler

variable {γ α : Type} {L : Likeness γ α} {w w' : L.World}

/-! ## Tasks -/

section

variable {r₁ r₂ : TickRunner (Submission α)} {s₁ s₂ : Scheduler α} {script : String} {i j : TaskId}

/-- What a submission leaves pinned: a task that is tracked keeps its callable there. -/
theorem get?_enroll (s : Scheduler α) (script : String) (callable : α) (mode : Mode) (id : TaskId)
    (p : PinHandle) : (s.enroll script callable mode id).bridge.get? p =
      if p.raw = s.bridge.issued + 1 then (if mode.isTracked then some callable else none)
      else s.bridge.get? p := by
  unfold enroll
  dsimp only
  by_cases hp : p.raw = s.bridge.issued + 1
  · obtain rfl : p = (s.bridge.pin callable).1 := congrArg PinHandle.mk hp
    rw [if_pos hp]
    split
    · exact List.lookup_cons_self
    · exact (ValueBridge.get?_release ..).trans (if_pos rfl)
  · have hold := ValueBridge.get?_pin_of_ne s.bridge callable hp
    rw [if_neg hp]
    split
    · exact hold
    · exact (ValueBridge.get?_release ..).trans
        ((if_neg fun heq => hp (congrArg PinHandle.raw heq)).trans hold)

/-- Of two callables that are alike, both are used or neither is. -/
theorem rel_ite {R : α → α → Prop} {a b : α} (hab : R a b) (c : Bool) :
    Option.Rel R (if c then some a else none) (if c then some b else none) := by
  cases c with
  | true => exact .some hab
  | false => exact .none

/-- A task is submitted to either. -/
theorem LikeTasks.submit (h : L.LikeTasks w r₁ r₂ s₁ s₂) (script : String) {a b : α}
    (hab : L.value w a b) (lane : Lane) (mode : Mode) :
    L.LikeTasks (w.1.submitted r₁ r₂ s₁ s₂, w.2)
      (r₁.submit (s₁.submission script a mode) lane mode).2
      (r₂.submit (s₂.submission script b mode) lane mode).2
      (s₁.enroll script a mode ⟨r₁.issued + 1⟩) (s₂.enroll script b mode ⟨r₂.issued + 1⟩) := by
  have hw : w ≤ (w.1.submitted r₁ r₂ s₁ s₂, w.2) := ⟨w.1.le_submitted r₁ r₂ s₁ s₂, le_refl w.2⟩
  have hab' := L.value_mono hw hab
  -- the new pins correspond, as do the new numbers
  have hnew : (w.1.submitted r₁ r₂ s₁ s₂).pin (s₁.bridge.issued + 1) (s₂.bridge.issued + 1) :=
    .inr ⟨rfl, rfl⟩
  constructor
  case numbers => exact h.numbers.paired
  case pins =>
    rw [issued_enroll, issued_enroll]
    exact h.pins.paired
  case tick => exact h.tick
  case queue =>
    refine List.rel_append (h.queue.imp fun _ _ => LikeEntry.mono hw) (.cons ?_ .nil)
    have hown : Option.Rel (L.value (w.1.submitted r₁ r₂ s₁ s₂, w.2))
        (if mode.isTracked then none else some a) (if mode.isTracked then none else some b) := by
      cases mode.isTracked with
      | true => exact .none
      | false => exact .some hab'
    exact ⟨.inr ⟨rfl, rfl⟩, rfl, congrArg mode.firstDue h.tick, rfl, .some ⟨hnew, rfl, hown, rfl⟩⟩
  case handles =>
    refine List.rel_append (h.handles.imp fun _ _ => LikeHandle.mono hw) (.cons ?_ .nil)
    refine ⟨rfl, .inr ⟨rfl, rfl⟩, ?_⟩
    cases mode.isTracked with
    | true => exact .some hnew
    | false => exact .none
  case pinned =>
    intro p q hpq
    rw [get?_enroll, get?_enroll]
    rcases hpq with hpq | ⟨hp, hq⟩
    · -- a pin that corresponded before is not the new one
      have hlt := h.pins.lt _ _ hpq
      rw [if_neg (by omega), if_neg (by omega)]
      exact rel_imp (fun _ _ => L.value_mono hw) (h.pinned p q hpq)
    · rw [if_pos hp, if_pos hq]
      exact rel_ite hab' mode.isTracked
  case live => exact h.live
  case balances => exact ⟨h.balances.1.enroll script a mode _, h.balances.2.enroll script b mode _⟩

theorem LikeTasks.task_iff (h : L.LikeTasks w r₁ r₂ s₁ s₂) (hij : w.1.task i.raw j.raw) {k l : TaskId}
    (hkl : w.1.task k.raw l.raw) : k = i ↔ l = j := by
  have hraw := h.numbers.iff hkl hij
  exact ⟨fun heq => congrArg TaskId.mk (hraw.mp (congrArg TaskId.raw heq)),
    fun heq => congrArg TaskId.mk (hraw.mpr (congrArg TaskId.raw heq))⟩

theorem LikeTasks.beq_task (h : L.LikeTasks w r₁ r₂ s₁ s₂) (hij : w.1.task i.raw j.raw) {k l : TaskId}
    (hkl : w.1.task k.raw l.raw) : (k == i) = (l == j) := by
  rw [Bool.eq_iff_iff, beq_iff_eq, beq_iff_eq]
  exact h.task_iff hij hkl

/-- Entries that match are those of tasks that match. -/
theorem LikeTasks.bne_entry (h : L.LikeTasks w r₁ r₂ s₁ s₂) (hij : w.1.task i.raw j.raw)
    {d e : Waiting (Submission α)} (hde : L.LikeEntry w d e) : (d.id != i.raw) = (e.id != j.raw) := by
  rw [Bool.eq_iff_iff, bne_iff_ne, bne_iff_ne]
  exact not_congr (h.numbers.iff hde.id hij)

theorem LikeTasks.ownedByOther (h : L.LikeTasks w r₁ r₂ s₁ s₂) (script : String)
    (hij : w.1.task i.raw j.raw) : s₁.ownedByOther script i = s₂.ownedByOther script j :=
  forall₂_any (fun k l hkl => by rw [hkl.script, h.beq_task hij hkl.task]) h.handles

theorem LikeTasks.isFor (h : L.LikeTasks w r₁ r₂ s₁ s₂) (script : String) (hij : w.1.task i.raw j.raw)
    (k l : TaskHandle) (hkl : L.LikeHandle w k l) :
    TaskHandle.isFor script i k = TaskHandle.isFor script j l := by
  unfold TaskHandle.isFor
  rw [hkl.script, h.beq_task hij hkl.task]

theorem LikeTasks.pin_iff (h : L.LikeTasks w r₁ r₂ s₁ s₂) {p q p' q' : PinHandle}
    (hpq : w.1.pin p.raw q.raw) (hpq' : w.1.pin p'.raw q'.raw) : p = p' ↔ q = q' := by
  have hraw := h.pins.iff hpq hpq'
  exact ⟨fun heq => congrArg PinHandle.mk (hraw.mp (congrArg PinHandle.raw heq)),
    fun heq => congrArg PinHandle.mk (hraw.mpr (congrArg PinHandle.raw heq))⟩

/-- Where the pins of handles that are alike are released, the rest stays alike. -/
theorem LikeTasks.releaseAll (h : L.LikeTasks w r₁ r₂ s₁ s₂) {pins₁ pins₂ : List PinHandle}
    (hpins : List.Forall₂ (fun p q : PinHandle => w.1.pin p.raw q.raw) pins₁ pins₂) (p q : PinHandle)
    (hpq : w.1.pin p.raw q.raw) : Option.Rel (L.value w)
      ((Scheduler.releaseAll s₁.bridge pins₁).get? p) ((Scheduler.releaseAll s₂.bridge pins₂).get? q) := by
  have hmem : p ∈ pins₁ ↔ q ∈ pins₂ := by
    constructor
    · intro hp
      obtain ⟨q', hq', hrel⟩ := mem_left_of_forall₂ hpins hp
      rw [(h.pin_iff hpq hrel).mp rfl]
      exact hq'
    · intro hq
      obtain ⟨p', hp', hrel⟩ := mem_right_of_forall₂ hpins hq
      rw [(h.pin_iff hpq hrel).mpr rfl]
      exact hp'
  rw [get?_releaseAll, get?_releaseAll]
  by_cases hp : p ∈ pins₁
  · rw [if_pos hp, if_pos (hmem.mp hp)]
    exact .none
  · rw [if_neg hp, if_neg (mt hmem.mpr hp)]
    exact h.pinned p q hpq

/-- A task of either is cancelled. -/
theorem LikeTasks.cancel (h : L.LikeTasks w r₁ r₂ s₁ s₂) (script : String)
    (hij : w.1.task i.raw j.raw) :
    L.LikeTasks w (r₁.cancel i).2 (r₂.cancel j).2 (s₁.drop script i) (s₂.drop script j) := by
  have hfound : Option.Rel (L.LikeHandle w) (s₁.untrack script i).1 (s₂.untrack script j).1 :=
    forall₂_find? (h.isFor script hij) h.handles
  have hpins : Option.Rel (fun p q : PinHandle => w.1.pin p.raw q.raw)
      ((s₁.untrack script i).1.bind TaskHandle.pin) ((s₂.untrack script j).1.bind TaskHandle.pin) :=
    rel_bind hfound fun _ _ hkl => hkl.pin
  constructor
  case numbers => exact h.numbers
  case pins =>
    unfold drop
    rw [issued_releaseAll, issued_releaseAll]
    exact h.pins
  case tick => exact h.tick
  case queue => exact forall₂_filter (fun d e => h.bne_entry hij) h.queue
  case handles => exact forall₂_eraseP (h.isFor script hij) h.handles
  case pinned => exact h.releaseAll (forall₂_toList hpins)
  case live => exact h.live
  case balances => exact ⟨h.balances.1.drop script i, h.balances.2.drop script j⟩

/-- The pins of handles that are alike. -/
theorem forall₂_pinsOf {ks ls : List TaskHandle} (h : List.Forall₂ (L.LikeHandle w) ks ls) :
    List.Forall₂ (fun p q : PinHandle => w.1.pin p.raw q.raw) (pinsOf ks) (pinsOf ls) := by
  induction h with
  | nil => exact .nil
  | @cons k l ks ls hkl _ ih =>
    have hpin := hkl.pin
    rw [pinsOf, pinsOf, List.filterMap_cons, List.filterMap_cons]
    cases hk : k.pin with
    | none =>
      rw [hk] at hpin
      cases hl : l.pin with
      | none => exact ih
      | some q => rw [hl] at hpin; cases hpin
    | some p =>
      rw [hk] at hpin
      cases hl : l.pin with
      | none => rw [hl] at hpin; cases hpin
      | some q =>
        rw [hl] at hpin
        cases hpin with
        | some hpq => exact .cons hpq ih

theorem LikeTasks.handlesOf (h : L.LikeTasks w r₁ r₂ s₁ s₂) (script : String) :
    List.Forall₂ (L.LikeHandle w) (s₁.handlesOf script) (s₂.handlesOf script) :=
  forall₂_filter (fun k l hkl => by rw [hkl.script]) h.handles

/-- All tasks of a script are cancelled. -/
theorem LikeTasks.cancelAll (h : L.LikeTasks w r₁ r₂ s₁ s₂) (script : String) :
    L.LikeTasks w (cancelEach r₁ ((s₁.handlesOf script).map TaskHandle.task))
      (cancelEach r₂ ((s₂.handlesOf script).map TaskHandle.task))
      (s₁.dropAll script) (s₂.dropAll script) := by
  have hown := h.handlesOf script
  constructor
  case numbers =>
    rw [issued_cancelEach, issued_cancelEach]
    exact h.numbers
  case pins =>
    unfold dropAll
    rw [issued_releaseAll, issued_releaseAll]
    exact h.pins
  case tick =>
    rw [now_cancelEach, now_cancelEach]
    exact h.tick
  case queue =>
    rw [queue_cancelEach, queue_cancelEach]
    refine forall₂_filter (fun d e hde => ?_) h.queue
    rw [List.all_map, List.all_map]
    exact forall₂_all (fun k l hkl => h.bne_entry hkl.task hde) hown
  case handles => exact forall₂_filter (fun k l hkl => by rw [hkl.script]) h.handles
  case pinned => exact h.releaseAll (forall₂_pinsOf hown)
  case live => exact h.live
  case balances => exact ⟨h.balances.1.dropAll script, h.balances.2.dropAll script⟩

end

/-! ## Shared objects -/

section

variable {s₁ s₂ : SharedObjects α}

theorem LikeObjects.erase (h : L.LikeObjects w s₁ s₂) (name : String) :
    L.LikeObjects w (s₁.erase name) (s₂.erase name) := by
  refine ⟨fun n => ?_, fun n => ?_⟩
  · rw [SharedObjects.owner?_erase, SharedObjects.owner?_erase, h.owner n]
  · rw [SharedObjects.get?_erase, SharedObjects.get?_erase]
    split
    · exact .none
    · exact h.value n

theorem LikeObjects.put (h : L.LikeObjects w s₁ s₂) (owner : Owner) (name : String) {a b : α}
    (hab : L.value w a b) : L.LikeObjects w (s₁.put owner name a) (s₂.put owner name b) := by
  refine ⟨fun n => ?_, fun n => ?_⟩
  · rw [SharedObjects.owner?_put, SharedObjects.owner?_put, h.owner n]
  · rw [SharedObjects.get?_put, SharedObjects.get?_put]
    split
    · exact .some hab
    · exact h.value n

/-- What a change leaves that may be refused. -/
def afterChange {ρ : Type} (s : SharedObjects α) : Except HostError (ρ × SharedObjects α) → SharedObjects α
  | .ok (_, t) => t
  | .error _ => s

theorem LikeObjects.unregister (h : L.LikeObjects w s₁ s₂) (owner : Owner) (name : String) :
    L.LikeObjects w (afterChange s₁ (s₁.unregister owner name))
      (afterChange s₂ (s₂.unregister owner name)) := by
  unfold SharedObjects.unregister
  rw [h.owner name]
  cases s₂.owner? name with
  | none => exact h
  | some existing =>
    dsimp only
    cases owner.mayChange existing with
    | true => exact h.erase name
    | false => exact h

theorem afterChange_register_none (s : SharedObjects α) (owner : Owner) (name : String) :
    afterChange s (s.register owner name none) = afterChange s (s.unregister owner name) := by
  unfold SharedObjects.register
  dsimp only
  cases s.unregister owner name <;> rfl

theorem LikeObjects.register (h : L.LikeObjects w s₁ s₂) (owner : Owner) (name : String) {u v : Option α}
    (huv : Option.Rel (L.value w) u v) :
    L.LikeObjects w (afterChange s₁ (s₁.register owner name u))
      (afterChange s₂ (s₂.register owner name v)) := by
  cases huv with
  | none =>
    rw [afterChange_register_none, afterChange_register_none]
    exact h.unregister owner name
  | some hab =>
    unfold SharedObjects.register
    rw [h.owner name]
    cases s₂.owner? name with
    | none => exact h.put owner name hab
    | some existing =>
      dsimp only
      cases owner.mayChange existing with
      | true => exact h.put owner name hab
      | false => exact h

theorem LikeObjects.releaseOwnedBy (h : L.LikeObjects w s₁ s₂) (script : String) :
    L.LikeObjects w (s₁.releaseOwnedBy script).2 (s₂.releaseOwnedBy script).2 := by
  refine ⟨fun n => ?_, fun n => ?_⟩
  · rw [SharedObjects.owner?_releaseOwnedBy, SharedObjects.owner?_releaseOwnedBy, h.owner n]
  · rw [SharedObjects.get?_releaseOwnedBy, SharedObjects.get?_releaseOwnedBy, h.owner n]
    split
    · exact .none
    · exact h.value n

end

/-! ## Commands -/

section

variable {t₁ t₂ : CommandTable}

theorem SameCommands.insert (h : SameCommands t₁ t₂) (name : String) (command : Command) :
    SameCommands { t₁ with entries := t₁.entries.insert name command, changed := true }
      { t₂ with entries := t₂.entries.insert name command, changed := true } := by
  refine ⟨fun n => ?_, rfl⟩
  show (t₁.entries.insert name command).get? n = (t₂.entries.insert name command).get? n
  rw [NameMap.get?_insert, NameMap.get?_insert]
  split
  · rfl
  · exact h.entries n

/-- A command is published in both, or refused by both for the same reason. -/
theorem SameCommands.register (h : SameCommands t₁ t₂) (command : Command) :
    match t₁.register command, t₂.register command with
    | .ok u₁, .ok u₂ => SameCommands u₁ u₂
    | .error e₁, .error e₂ => e₁ = e₂
    | _, _ => False := by
  unfold CommandTable.register
  rw [h.entries command.name]
  cases t₂.get? command.name with
  | none => exact h.insert _ command
  | some existing =>
    dsimp only
    cases existing.owner != command.owner with
    | true => rfl
    | false =>
      cases existing == command with
      | true => exact h
      | false => exact h.insert _ command

theorem SameCommands.sync (h : SameCommands t₁ t₂) : SameCommands t₁.sync.2 t₂.sync.2 := by
  refine ⟨fun n => ?_, ?_⟩
  · rw [CommandTable.get?_sync, CommandTable.get?_sync, h.entries n]
  · unfold CommandTable.sync
    rw [h.changed]
    cases hchanged : t₂.changed with
    | true => rfl
    | false => exact h.changed

end

/-! ## Control objects -/

section

variable {cs₁ cs₂ : Array (Control α)} {i j : ℕ}

/-- Control objects that match are changed alike. -/
theorem LikeControls.modify (h : L.LikeControls w cs₁ cs₂) (hij : w.1.control i j)
    {f₁ f₂ : Control α → Control α}
    (hf : ∀ c d, L.LikeControl w c d → L.LikeControl w (f₁ c) (f₂ d)) :
    L.LikeControls w (cs₁.modify i f₁) (cs₂.modify j f₂) := by
  refine ⟨by rw [Array.size_modify, Array.size_modify]; exact h.numbers, fun k l hkl => ?_⟩
  rw [Array.getElem?_modify, Array.getElem?_modify]
  have hsame := h.numbers.iff hij hkl
  have hlike := h.like k l hkl
  by_cases hi : i = k
  · rw [if_pos hi, if_pos (hsame.mp hi)]
    exact rel_map hlike hf
  · rw [if_neg hi, if_neg (mt hsame.mpr hi)]
    exact hlike

/-- Either gets a new control object. -/
theorem LikeControls.push (h : L.LikeControls w cs₁ cs₂) {c d : Control α} (hcd : L.LikeControl w c d) :
    L.LikeControls (w.1.withControl cs₁.size cs₂.size, w.2) (cs₁.push c) (cs₂.push d) := by
  have hw : w ≤ (w.1.withControl cs₁.size cs₂.size, w.2) := ⟨w.1.le_withControl _ _, le_refl w.2⟩
  refine ⟨by rw [Array.size_push, Array.size_push]; exact h.numbers.paired, fun k l hkl => ?_⟩
  rcases hkl with hkl | ⟨rfl, rfl⟩
  · have hlt := h.numbers.lt k l hkl
    rw [Array.getElem?_push, Array.getElem?_push, if_neg (by omega), if_neg (by omega)]
    exact rel_imp (fun _ _ => LikeControl.mono hw) (h.like k l hkl)
  · rw [Array.getElem?_push_size, Array.getElem?_push_size]
    exact .some (hcd.mono hw)

theorem LikeControl.addLoadHook {c d : Control α} (h : L.LikeControl w c d) {a b : α}
    (hab : L.hook w a b) : L.LikeControl w (c.addLoadHook a) (d.addLoadHook b) :=
  { h with loadHooks := List.rel_append h.loadHooks (.cons hab .nil) }

theorem LikeControl.addUnloadHook {c d : Control α} (h : L.LikeControl w c d) {a b : α}
    (hab : L.value w a b) : L.LikeControl w (c.addUnloadHook a) (d.addUnloadHook b) :=
  { h with unloadHooks := List.rel_append h.unloadHooks (.cons hab .nil) }

theorem LikeControl.addCommand {c d : Control α} (h : L.LikeControl w c d)
    {command₁ command₂ : DeclaredCommand α} (hcommand : L.LikeCommand w command₁ command₂) :
    L.LikeControl w (c.addCommand command₁) (d.addCommand command₂) where
  name := h.name
  folder := h.folder
  loadHooks := h.loadHooks
  unloadHooks := h.unloadHooks
  commands := by
    refine List.rel_append (forall₂_filter (fun a b hab => ?_) h.commands) (.cons hcommand .nil)
    rw [hab.name, hcommand.name]

theorem LikeControl.clear {c d : Control α} (h : L.LikeControl w c d) :
    L.LikeControl w c.clear d.clear :=
  ⟨h.name, h.folder, .nil, .nil, .nil⟩

end

end Likeness
end ScriptHost
