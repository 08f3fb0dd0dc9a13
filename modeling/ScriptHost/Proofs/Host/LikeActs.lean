import ScriptHost.Proofs.Host.LikeParts

/-!
# Acts that are alike

Guest code that does the like in two hosts that are alike leaves them alike.

* `Likeness.LikeAct`, `Likeness.LikeActs`: one thing that is done in either host, and one thing after the other. Tasks
  that are submitted in both match from then on.
* `LikeAct.perform`, `LikeActs.perform`: they leave hosts alike.
* `Guest.LoadsAlike`: what a guest does and what it answers when a script is loaded does not depend on what may differ
  in hosts that are alike: on numbers of tasks, on clocks, or on what was logged.
-/

namespace ScriptHost
namespace Likeness

open Host Scheduler

variable {γ α β : Type}

/-- One thing that is done in one host, and the like of it in the other. More may match afterwards. -/
inductive LikeAct (L : Likeness γ α) (w : L.World) (h₁ h₂ : Host γ α) :
    Act γ α → Act γ α → L.World → Prop
  /-- The guest may come to know more of its own affairs. -/
  | think {s t : γ} {o : L.Own} (ho : w.2 ≤ o) (hstate : L.state (w.1, o) s t) :
      LikeAct L w h₁ h₂ (.think s) (.think t) (w.1, o)
  | report (r₁ r₂ : Record) : LikeAct L w h₁ h₂ (.report r₁) (.report r₂) w
  | onLoad {i j : ℕ} {a b : α} (hij : w.1.control i j) (hab : L.hook w a b) :
      LikeAct L w h₁ h₂ (.onLoad i a) (.onLoad j b) w
  | onUnload {i j : ℕ} {a b : α} (hij : w.1.control i j) (hab : L.value w a b) :
      LikeAct L w h₁ h₂ (.onUnload i a) (.onUnload j b) w
  | declare {i j : ℕ} {c d : DeclaredCommand α} (hij : w.1.control i j) (hcd : L.LikeCommand w c d) :
      LikeAct L w h₁ h₂ (.declare i c) (.declare j d) w
  | share {i j : ℕ} {u v : Option α} (hij : w.1.control i j) (object : String)
      (huv : Option.Rel (L.value w) u v) : LikeAct L w h₁ h₂ (.share i object u) (.share j object v) w
  | unshare {i j : ℕ} (hij : w.1.control i j) (object : String) :
      LikeAct L w h₁ h₂ (.unshare i object) (.unshare j object) w
  | schedule (script : String) {a b : α} (hab : L.value w a b) (lane : Lane) (mode : Mode) :
      LikeAct L w h₁ h₂ (.schedule script a lane mode) (.schedule script b lane mode)
        (w.1.submitted h₁.runner h₂.runner h₁.scheduler h₂.scheduler, w.2)
  | cancel (script : String) {i j : TaskId} (hij : w.1.task i.raw j.raw) :
      LikeAct L w h₁ h₂ (.cancel script i) (.cancel script j) w

/-- One thing after the other is done in one host, and the like of it in the other. -/
inductive LikeActs (L : Likeness γ α) :
    L.World → Host γ α → Host γ α → List (Act γ α) → List (Act γ α) → L.World → Prop
  | nil (w : L.World) (h₁ h₂ : Host γ α) : LikeActs L w h₁ h₂ [] [] w
  | cons {w w' w'' : L.World} {h₁ h₂ : Host γ α} {act₁ act₂ : Act γ α} {acts₁ acts₂ : List (Act γ α)}
      (hact : L.LikeAct w h₁ h₂ act₁ act₂ w')
      (hrest : LikeActs L w' (act₁.perform h₁) (act₂.perform h₂) acts₁ acts₂ w'') :
      LikeActs L w h₁ h₂ (act₁ :: acts₁) (act₂ :: acts₂) w''

variable {L : Likeness γ α} {w w' : L.World} {h₁ h₂ : Host γ α}

/-! ## What acts leave -/

/-- Control objects that match act in the name of one script. -/
theorem LikeControls.controlName (h : L.LikeControls w h₁.controls h₂.controls) {i j : ℕ}
    (hij : w.1.control i j) : h₁.controlName i = h₂.controlName j := by
  have hlike : Option.Rel (L.LikeControl w) (h₁.control? i) (h₂.control? j) := h.like i j hij
  unfold Host.controlName
  rw [map_eq_of_rel hlike fun _ _ hcd => hcd.name]

theorem LikeHost.think (h : L.LikeHost w h₁ h₂) {s t : γ} {o : L.Own} (ho : w.2 ≤ o)
    (hstate : L.state (w.1, o) s t) :
    L.LikeHost (w.1, o) { h₁ with guest := s } { h₂ with guest := t } :=
  have hw : w ≤ (w.1, o) := ⟨le_refl w.1, ho⟩
  { h with
    guest := hstate
    tasks := h.tasks.mono hw rfl rfl
    objects := h.objects.mono hw
    controls := h.controls.mono hw rfl
    environments := fun n => rel_imp (fun _ _ => LikeEnvironment.mono hw) (h.environments n) }

theorem LikeHost.changeControl (h : L.LikeHost w h₁ h₂) {i j : ℕ} (hij : w.1.control i j)
    {f₁ f₂ : Control α → Control α}
    (hf : ∀ c d, L.LikeControl w c d → L.LikeControl w (f₁ c) (f₂ d)) :
    L.LikeHost w (changeControl i f₁ h₁).2 (changeControl j f₂ h₂).2 :=
  { h with controls := h.controls.modify hij hf }

theorem share_state (owner : Owner) (object : String) (value : Option α) (h : Host γ α) :
    ∃ records, (Host.share owner object value h).2 =
      { h with objects := afterChange h.objects (h.objects.register owner object value), records } := by
  obtain ⟨objects, records, -, heq⟩ := share_eq (h := h) owner object value
  have hobjects := share_objects (h := h) owner object value
  rw [heq] at hobjects ⊢
  obtain rfl : objects = afterChange h.objects (h.objects.register owner object value) := by
    refine Eq.trans hobjects ?_
    cases h.objects.register owner object value <;> rfl
  exact ⟨records, rfl⟩

theorem unshare_state (owner : Owner) (object : String) (h : Host γ α) :
    (Host.unshare owner object h).2 =
      { h with objects := afterChange h.objects (h.objects.unregister owner object) } := by
  obtain ⟨objects, -, heq⟩ := unshare_eq (h := h) owner object
  have hobjects := unshare_objects (h := h) owner object
  rw [heq] at hobjects ⊢
  obtain rfl : objects = afterChange h.objects (h.objects.unregister owner object) := by
    refine Eq.trans hobjects ?_
    cases h.objects.unregister owner object <;> rfl
  rfl

theorem LikeHost.share (h : L.LikeHost w h₁ h₂) (owner : Owner) (object : String) {u v : Option α}
    (huv : Option.Rel (L.value w) u v) :
    L.LikeHost w (Host.share owner object u h₁).2 (Host.share owner object v h₂).2 := by
  obtain ⟨records₁, heq₁⟩ := share_state owner object u h₁
  obtain ⟨records₂, heq₂⟩ := share_state owner object v h₂
  rw [heq₁, heq₂]
  exact { h with objects := h.objects.register owner object huv }

theorem LikeHost.unshare (h : L.LikeHost w h₁ h₂) (owner : Owner) (object : String) :
    L.LikeHost w (Host.unshare owner object h₁).2 (Host.unshare owner object h₂).2 := by
  rw [unshare_state, unshare_state]
  exact { h with objects := h.objects.unregister owner object }

theorem LikeHost.schedule (h : L.LikeHost w h₁ h₂) (script : String) {a b : α} (hab : L.value w a b)
    (lane : Lane) (mode : Mode) :
    L.LikeHost (w.1.submitted h₁.runner h₂.runner h₁.scheduler h₂.scheduler, w.2)
      (Host.schedule script a lane mode h₁).2 (Host.schedule script b lane mode h₂).2 := by
  have hm := w.1.le_submitted h₁.runner h₂.runner h₁.scheduler h₂.scheduler
  have hw : w ≤ (w.1.submitted h₁.runner h₂.runner h₁.scheduler h₂.scheduler, w.2) := ⟨hm, le_refl w.2⟩
  obtain ⟨record₁, heq₁⟩ := schedule_eq h.tasks.balances.1 script a lane mode
  obtain ⟨record₂, heq₂⟩ := schedule_eq h.tasks.balances.2 script b lane mode
  rw [heq₁, heq₂]
  exact
    { h with
      guest := L.state_mono hm h.guest
      tasks := h.tasks.submit script hab lane mode
      objects := h.objects.mono hw
      controls := h.controls.mono hw rfl
      environments := fun n => rel_imp (fun _ _ => LikeEnvironment.mono hw) (h.environments n) }

theorem LikeHost.cancelTask (h : L.LikeHost w h₁ h₂) (script : String) {i j : TaskId}
    (hij : w.1.task i.raw j.raw) :
    L.LikeHost w (Host.cancelTask script i h₁).2 (Host.cancelTask script j h₂).2 := by
  rw [cancelTask_eq h.tasks.balances.1, cancelTask_eq h.tasks.balances.2, h.tasks.ownedByOther script hij]
  cases h₂.scheduler.ownedByOther script j with
  | true => exact h
  | false => exact { h with tasks := h.tasks.cancel script hij }

/-! ## Steps and runs -/

/-- What is done in either host leaves them alike. -/
theorem LikeAct.perform {act₁ act₂ : Act γ α} (hact : L.LikeAct w h₁ h₂ act₁ act₂ w')
    (h : L.LikeHost w h₁ h₂) : w ≤ w' ∧ L.LikeHost w' (act₁.perform h₁) (act₂.perform h₂) := by
  cases hact with
  | think ho hstate => exact ⟨⟨le_refl w.1, ho⟩, h.think ho hstate⟩
  | report r₁ r₂ => exact ⟨le_refl w, h.logged _ _⟩
  | onLoad hij hab => exact ⟨le_refl w, h.changeControl hij fun _ _ hcd => hcd.addLoadHook hab⟩
  | onUnload hij hab => exact ⟨le_refl w, h.changeControl hij fun _ _ hcd => hcd.addUnloadHook hab⟩
  | declare hij hcommand => exact ⟨le_refl w, h.changeControl hij fun _ _ hcd => hcd.addCommand hcommand⟩
  | share hij object huv =>
    refine ⟨le_refl w, ?_⟩
    rw [Act.perform, Act.perform, h.controls.controlName hij]
    exact h.share _ object huv
  | unshare hij object =>
    refine ⟨le_refl w, ?_⟩
    rw [Act.perform, Act.perform, h.controls.controlName hij]
    exact h.unshare _ object
  | schedule script hab lane mode =>
    exact ⟨⟨w.1.le_submitted _ _ _ _, le_refl w.2⟩, h.schedule script hab lane mode⟩
  | cancel script hij => exact ⟨le_refl w, h.cancelTask script hij⟩

theorem LikeActs.perform {acts₁ acts₂ : List (Act γ α)} (hacts : L.LikeActs w h₁ h₂ acts₁ acts₂ w')
    (h : L.LikeHost w h₁ h₂) :
    w ≤ w' ∧ L.LikeHost w' (Act.performAll acts₁ h₁) (Act.performAll acts₂ h₂) := by
  induction hacts with
  | nil w h₁ h₂ => exact ⟨le_refl w, h⟩
  | cons hact _ ih =>
    obtain ⟨hw, hnext⟩ := hact.perform h
    obtain ⟨hw', hend⟩ := ih hnext
    exact ⟨le_trans hw hw', hend⟩

/-! ## Guests -/

/-- Two guest operations do the like in hosts that are alike, and have like results. -/
def Conducts (L : Likeness γ α) (w : L.World) (x₁ x₂ : HostM γ α β) (R : L.World → β → β → Prop) :
    Prop :=
  ∀ h₁ h₂, L.LikeHost w h₁ h₂ → ∃ acts₁ acts₂ w', L.LikeActs w h₁ h₂ acts₁ acts₂ w' ∧
    (x₁ h₁).2 = Act.performAll acts₁ h₁ ∧ (x₂ h₂).2 = Act.performAll acts₂ h₂ ∧
    R w' (x₁ h₁).1 (x₂ h₂).1

theorem Conducts.parallel {x₁ x₂ : HostM γ α β} {R : L.World → β → β → Prop}
    (hx : L.Conducts w x₁ x₂ R) : L.Parallel w x₁ x₂ R := by
  intro h₁ h₂ hlike
  obtain ⟨acts₁, acts₂, w', hacts, heq₁, heq₂, hresult⟩ := hx h₁ h₂ hlike
  obtain ⟨hw, hend⟩ := hacts.perform hlike
  refine ⟨w', hw, ?_, hresult⟩
  rw [heq₁, heq₂]
  exact hend

/-- Answers that are alike: results that are alike, or the same error. -/
inductive LikeAnswer {ε : Type} (R : L.World → β → β → Prop) (w : L.World) : Except ε β → Except ε β → Prop
  | ok {b c : β} (hbc : R w b c) : LikeAnswer R w (.ok b) (.ok c)
  | error (e : ε) : LikeAnswer R w (.error e) (.error e)

end Likeness

/-- Calls of two functions do the like from now on, and come to the same. -/
def Guest.RunAlike {γ α : Type} (g : Guest γ α) (L : Likeness γ α) (w : L.World) (a b : α) : Prop :=
  ∀ w' ≥ w, L.Conducts w' (g.run a) (g.run b) (L.Same (Except GuestError Unit))

/-- From now on a source is compiled alike with two globals: to bodies that run alike, or with the same error. -/
def Guest.CompileAlike {γ α : Type} (g : Guest γ α) (L : Likeness γ α) (name source : String) (w : L.World)
    (a b : α) : Prop :=
  ∀ w' ≥ w, L.Conducts w' (g.compile name a source) (g.compile name b source) (Likeness.LikeAnswer (g.RunAlike L))

/-- What a guest does to load a script from a source depends on nothing that may differ in hosts that are alike. This is
about the code that a load runs and no other: the making of the script's globals, its body, and load hooks. -/
structure Guest.LoadsAlike {γ α : Type} (g : Guest γ α) (L : Likeness γ α) (w₀ : L.World) (name : String)
    (folder : Option String) (source : String) : Prop where
  body : ∀ w ≥ w₀, ∀ i j, w.1.control i j →
    L.Conducts w (g.createGlobals name folder i) (g.createGlobals name folder j) fun w' a b =>
      L.value w' a b ∧ g.CompileAlike L name source w' a b
  hook : ∀ w ≥ w₀, ∀ a b, L.hook w a b →
    L.Conducts w (g.run a) (g.run b) (L.Anyhow (Except GuestError Unit))

end ScriptHost
