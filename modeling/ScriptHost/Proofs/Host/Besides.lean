import ScriptHost.Proofs.Host.LikeLoads

/-!
# Hosts that agree besides one script

Two hosts may differ in what one loaded script has: its globals, its hooks and commands, its tasks with their pins,
and its shared objects. Apart from that they are alike (`Likeness.Besides`). When the script is unloaded from both,
and its hooks act on nothing but what is its own (`Likeness.DepartsAlone`), nothing is left of the difference
(`Likeness.Besides.unloaded`).
-/

namespace ScriptHost
namespace Host

open Scheduler

variable {γ α : Type} {h h' : Host γ α} {flying : Option (ℕ × Submission α)}

/-! ## What guest code leaves as it is -/

/-- The tick stays, numbers only grow, and control objects stay whose they are. -/
structure GoesOn (h h' : Host γ α) : Prop where
  tick : h'.runner.now = h.runner.now
  tasks : h.runner.issued ≤ h'.runner.issued
  pins : h.scheduler.bridge.issued ≤ h'.scheduler.bridge.issued
  controls : h'.controls.size = h.controls.size
  folder : ∀ i, (h'.control? i).map Control.folder = (h.control? i).map Control.folder

/-- Other parts of the host do not matter. -/
theorem goesOn_with (guest : γ) (objects : SharedObjects α) (phases : Std.TreeMap String Phase)
    (records : Array Record) : GoesOn h { h with guest, objects, phases, records } :=
  ⟨rfl, Nat.le_refl _, Nat.le_refl _, rfl, fun _ => rfl⟩

theorem GoesOn.refl (h : Host γ α) : GoesOn h h := goesOn_with _ _ _ _

theorem GoesOn.trans {h'' : Host γ α} (h₁ : GoesOn h h') (h₂ : GoesOn h' h'') : GoesOn h h'' where
  tick := h₂.tick.trans h₁.tick
  tasks := Nat.le_trans h₁.tasks h₂.tasks
  pins := Nat.le_trans h₁.pins h₂.pins
  controls := h₂.controls.trans h₁.controls
  folder i := (h₂.folder i).trans (h₁.folder i)

theorem goesOn_changeControl (number : ℕ) {f : Control α → Control α} (hf : ∀ c, (f c).folder = c.folder) :
    GoesOn h { h with controls := h.controls.modify number f } := by
  refine ⟨rfl, Nat.le_refl _, Nat.le_refl _, Array.size_modify .., fun i => ?_⟩
  rw [control?_modify]
  split
  · rw [Option.map_map]
    exact congrArg (fun f => (h.control? i).map f) (funext hf)
  · rfl

theorem Act.perform_goesOn (act : Act γ α) (h₀ : Orderly flying h) :
    GoesOn h (act.perform h) := by
  cases act with
  | think state => exact goesOn_with _ _ _ _
  | report record => exact goesOn_with _ _ _ _
  | onLoad number hook => exact goesOn_changeControl number fun _ => rfl
  | onUnload number hook => exact goesOn_changeControl number fun _ => rfl
  | declare number command => exact goesOn_changeControl number fun _ => rfl
  | share number object value =>
    obtain ⟨objects, records, -, heq⟩ := share_eq (h := h) (.script (h.controlName number)) object value
    rw [Act.perform, heq]
    exact goesOn_with _ _ _ _
  | unshare number object =>
    obtain ⟨objects, -, heq⟩ := unshare_eq (h := h) (.script (h.controlName number)) object
    rw [Act.perform, heq]
    exact goesOn_with _ _ _ _
  | schedule script callable lane mode =>
    obtain ⟨record, heq⟩ := schedule_eq h₀.tasks.balances script callable lane mode
    rw [Act.perform, heq]
    refine ⟨rfl, Nat.le_succ _, ?_, rfl, fun _ => rfl⟩
    rw [issued_enroll]
    exact Nat.le_succ _
  | cancel script id =>
    rw [Act.perform, cancelTask_eq h₀.tasks.balances]
    split
    · exact .refl h
    · exact ⟨rfl, Nat.le_refl _, Nat.le_of_eq (issued_releaseAll _ _).symm, rfl, fun _ => rfl⟩

theorem Act.performAll_goesOn (acts : List (Act γ α)) (h₀ : Orderly flying h) :
    GoesOn h (Act.performAll acts h) := by
  induction acts generalizing h with
  | nil => exact .refl h
  | cons act acts ih => exact (Act.perform_goesOn act h₀).trans (ih (act.perform_orderly h₀).1)

theorem runHooks_goesOn {g : Guest γ α} (hg : g.KeepsToApi) (name kind : String) (hooks : List α)
    (h₀ : Orderly none h) : GoesOn h (runHooks g name kind hooks h).2 := by
  induction hooks generalizing h with
  | nil => exact .refl h
  | cons hook hooks ih =>
    obtain ⟨acts, heq⟩ := hg.call hook [] h
    obtain ⟨records, hone⟩ := runHooks_one g name kind hook h
    have hcall : GoesOn h (g.run hook h).2 := by
      rw [show (g.run hook h).2 = _ from heq]
      exact Act.performAll_goesOn acts h₀
    have hfirst : GoesOn h (runHooks g name kind [hook] h).2 := by
      rw [hone]
      exact hcall.trans (goesOn_with _ _ _ _)
    rw [runHooks_cons]
    exact hfirst.trans (ih (Modest.runHooks hg name kind [hook] none h h₀).1)

/-! ## The script is gone -/

/-- What has become of a host from which a script was unloaded. -/
structure Departed (g : Guest γ α) (name : String) (env : Environment α) (h h' : Host γ α) : Prop where
  released : Released name env.control h h'
  goesOn : GoesOn h h'
  orderly : Orderly none h'
  guest : h'.guest = (afterHooks g name env h).guest
  /-- That its commands are withdrawn has been presented. -/
  presented : h'.commands.changed = false
  policy : h'.policy = h.policy
  bundles : h'.bundles = h.bundles
  files : h'.files = h.files

theorem changed_sync (t : CommandTable) : t.sync.2.changed = false := by
  unfold CommandTable.sync
  cases hchanged : t.changed with
  | true => rfl
  | false => exact hchanged

/-- A host in order, of which a script's hooks keep to what is the script's own, lets the script go. -/
theorem unload_departed {g : Guest γ α} (hg : g.KeepsToApi) (h₀ : Orderly none h) {name : String}
    {env : Environment α} (henv : h.environment? name = some env)
    (hhooks : HooksAreOwn g name env.control (h.unloadHooks env) (setPhase name (some .unloading) h).2) :
    (unload g name h).1 = .ok () ∧ Departed g name env h (unload g name h).2 := by
  have hloaded : h.isLoaded name = true := h₀.isLoaded_of_environment henv
  have hstart := Tidy.setPhase name (some .unloading) h h₀
  have hc : ControlOf name env.control (setPhase name (some .unloading) h).2 :=
    (h₀.environment name env henv).2
  obtain ⟨horder, hbooks⟩ := afterHooks_orderly hg name env h₀
  have huntouched := runHooks_untouched hg _ hhooks hstart hc
  -- the hooks only go on: they take back neither numbers nor ticks
  have hgoes : GoesOn h (afterHooks g name env h) :=
    (goesOn_with _ _ _ _).trans (runHooks_goesOn hg name "unload" (h.unloadHooks env) hstart)
  obtain ⟨records, heq⟩ := unload_eq henv hloaded horder.tasks.balances
  have htidy := Tidy.unload hg name h h₀
  rw [heq] at htidy ⊢
  refine ⟨rfl, ?_⟩
  constructor
  case released =>
    refine released_without h₀ hbooks huntouched horder (hc.keep hbooks)
      (h.phases.insert name .unloading) (fun n hn => ?_) rfl records
    rw [NameMap.get?_insert, if_neg (Ne.symm hn)]
  case goesOn =>
    have hcleared := goesOn_changeControl (h := afterHooks g name env h) env.control (f := Control.clear)
      fun _ => rfl
    refine hgoes.trans ⟨now_cancelEach _ _, Nat.le_of_eq (issued_cancelEach _ _).symm,
      Nat.le_of_eq (issued_releaseAll _ _).symm, hcleared.controls, hcleared.folder⟩
  case orderly => exact htidy
  case guest => rfl
  case presented => exact changed_sync _
  case policy => exact hbooks.policy
  case bundles => exact hbooks.bundles
  case files => exact hbooks.files

variable {g : Guest γ α} {name : String} {env : Environment α}

/-- What is pinned for others is so afterwards, and nothing else is. -/
theorem Departed.get?_pin (hdeparted : Departed g name env h h') (h₀ : Orderly none h) {p : PinHandle}
    (hown : ∀ k ∈ h.scheduler.handlesOf name, k.pin ≠ some p) :
    h'.scheduler.bridge.get? p = h.scheduler.bridge.get? p := by
  have hreleased := hdeparted.released
  have hpins := h₀.tasks.balances.pinsMatch
  cases hpinned : h.scheduler.bridge.isPinned p with
  | true =>
    obtain ⟨k, hk, hp⟩ := (hpins.isPinned_iff p).mp hpinned
    -- the pin is of a handle, which is another script's and so stays
    have hother : k.script ≠ name := fun hscript =>
      hown k (List.mem_filter.mpr ⟨hk, beq_iff_eq.mpr hscript⟩) hp
    refine hreleased.pins k ?_ p hp
    rw [hreleased.handles]
    exact List.mem_filter.mpr ⟨hk, bne_iff_ne.mpr hother⟩
  | false =>
    -- what is not pinned is of no handle, and no handle comes to have it
    have hgone : h'.scheduler.bridge.isPinned p ≠ true := by
      intro hstill
      obtain ⟨k, hk, hp⟩ := (hreleased.pinned p).mp hstill
      rw [hreleased.handles] at hk
      exact Bool.false_ne_true
        (hpinned.symm.trans ((hpins.isPinned_iff p).mpr ⟨k, (List.mem_filter.mp hk).1, hp⟩))
    unfold ValueBridge.isPinned at hpinned hgone
    rw [Option.not_isSome_iff_eq_none.mp hgone]
    cases hget : h.scheduler.bridge.get? p with
    | none => rfl
    | some v => rw [hget] at hpinned; cases hpinned

/-- What is shared is what others shared. -/
theorem Departed.objects (hdeparted : Departed g name env h h') (h₀ : Orderly none h) (n : String) :
    h'.objects.owner? n = (h.objects.foreign? name n).map Prod.fst ∧
      h'.objects.get? n = (h.objects.foreign? name n).bind Prod.snd := by
  obtain ⟨howner, hget⟩ := hdeparted.released.objects n
  rw [howner, hget, SharedObjects.foreign?]
  cases hn : h.objects.owner? n with
  | none => exact ⟨rfl, (h₀.objects n).mpr hn⟩
  | some owner =>
    dsimp only
    by_cases hown : owner = .script name
    · rw [if_pos (congrArg some hown), if_pos (congrArg some hown), if_pos hown]
      exact ⟨rfl, rfl⟩
    · have hother : some owner ≠ some (Owner.script name) := fun heq => hown (Option.some.inj heq)
      rw [if_neg hother, if_neg hother, if_neg hown]
      exact ⟨rfl, rfl⟩

end Host

/-! ## All but one script -/

namespace Likeness

open Host Scheduler

variable {γ α : Type}

/-- Runners and schedulers in which the tasks of all scripts but one are alike. -/
structure LikeOthers (L : Likeness γ α) (w : L.World) (name : String)
    (r₁ r₂ : TickRunner (Submission α)) (s₁ s₂ : Scheduler α) : Prop where
  numbers : Matching.Fits w.1.task (r₁.issued + 1) (r₂.issued + 1)
  pins : Matching.Fits w.1.pin (s₁.bridge.issued + 1) (s₂.bridge.issued + 1)
  tick : r₁.now = r₂.now
  queue : List.Forall₂ (L.LikeEntry w) (r₁.queue.filter (isOthers name)) (r₂.queue.filter (isOthers name))
  handles : List.Forall₂ (L.LikeHandle w) (s₁.handles.filter fun k => k.script != name)
    (s₂.handles.filter fun k => k.script != name)
  pinned : ∀ p q : PinHandle, w.1.pin p.raw q.raw →
    Option.Rel (L.value w) (s₁.bridge.get? p) (s₂.bridge.get? q)
  /-- The pins of the script itself do not match any. -/
  own : ∀ p q : PinHandle, w.1.pin p.raw q.raw →
    (∀ k ∈ s₁.handlesOf name, k.pin ≠ some p) ∧ ∀ k ∈ s₂.handlesOf name, k.pin ≠ some q

/-- Two hosts that have loaded a script from the same origin, and agree besides what that script has. -/
structure Besides (L : Likeness γ α) (w : L.World) (name : String) (env₁ env₂ : Environment α)
    (h₁ h₂ : Host γ α) : Prop where
  environment : h₁.environment? name = some env₁ ∧ h₂.environment? name = some env₂
  origin : env₁.origin = env₂.origin
  guest : L.state w h₁.guest h₂.guest
  tasks : L.LikeOthers w name h₁.runner h₂.runner h₁.scheduler h₂.scheduler
  objects : ∀ n, Option.Rel (fun x y => x.1 = y.1 ∧ Option.Rel (L.value w) x.2 y.2)
    (h₁.objects.foreign? name n) (h₂.objects.foreign? name n)
  commands : ∀ n, (h₁.commands.get? n).filter (fun c => c.owner != name) =
    (h₂.commands.get? n).filter fun c => c.owner != name
  numbers : Matching.Fits w.1.control h₁.controls.size h₂.controls.size
  /-- The control objects of the script match, whatever hooks and commands they hold. -/
  control : w.1.control env₁.control env₂.control ∧
    (h₁.control? env₁.control).map Control.folder = (h₂.control? env₂.control).map Control.folder
  controls : ∀ i j, w.1.control i j → i ≠ env₁.control →
    Option.Rel (L.LikeControl w) (h₁.control? i) (h₂.control? j)
  loaded : ∀ n, n ≠ name → h₁.loaded.get? n = h₂.loaded.get? n
  environments : ∀ n, n ≠ name →
    Option.Rel (L.LikeEnvironment w) (h₁.environments.get? n) (h₂.environments.get? n)
  phases : ∀ n, n ≠ name → h₁.phases.get? n = h₂.phases.get? n
  policy : h₁.policy = h₂.policy
  bundles : h₁.bundles = h₂.bundles
  files : h₁.files = h₂.files

/-- The unload hooks of a script act on nothing but what is the script's own: within the host they use its own
objects only, and within the guest they change nothing that another would see. -/
structure DepartsAlone (g : Guest γ α) (L : Likeness γ α) (w : L.World) (name : String)
    (env : Environment α) (h : Host γ α) : Prop where
  own : HooksAreOwn g name env.control (h.unloadHooks env) (setPhase name (some .unloading) h).2
  left : ∀ t, L.state w h.guest t → L.state w (afterHooks g name env h).guest t
  right : ∀ t, L.state w t h.guest → L.state w t (afterHooks g name env h).guest

variable {g : Guest γ α} {L : Likeness γ α} {w : L.World} {name : String} {env₁ env₂ : Environment α}
  {h₁ h₂ h₁' h₂' : Host γ α}

theorem LikeOthers.departed (h : L.LikeOthers w name h₁.runner h₂.runner h₁.scheduler h₂.scheduler)
    (h₀₁ : Orderly none h₁) (h₀₂ : Orderly none h₂) (hgone₁ : Departed g name env₁ h₁ h₁')
    (hgone₂ : Departed g name env₂ h₂ h₂') :
    L.LikeTasks w h₁'.runner h₂'.runner h₁'.scheduler h₂'.scheduler where
  numbers := h.numbers.mono (Nat.succ_le_succ hgone₁.goesOn.tasks) (Nat.succ_le_succ hgone₂.goesOn.tasks)
  pins := h.pins.mono (Nat.succ_le_succ hgone₁.goesOn.pins) (Nat.succ_le_succ hgone₂.goesOn.pins)
  tick := by rw [hgone₁.goesOn.tick, hgone₂.goesOn.tick, h.tick]
  queue := by
    rw [hgone₁.released.waiting, hgone₂.released.waiting]
    exact h.queue
  handles := by
    rw [hgone₁.released.handles, hgone₂.released.handles]
    exact h.handles
  pinned p q hpq := by
    obtain ⟨hown₁, hown₂⟩ := h.own p q hpq
    rw [hgone₁.get?_pin h₀₁ hown₁, hgone₂.get?_pin h₀₂ hown₂]
    exact h.pinned p q hpq
  live := hgone₁.orderly.tasks.live.trans hgone₂.orderly.tasks.live.symm
  balances := ⟨hgone₁.orderly.tasks.balances, hgone₂.orderly.tasks.balances⟩

/-- The control objects of a script that is gone are empty, and all others are as they were. -/
theorem Besides.controls_departed (h : L.Besides w name env₁ env₂ h₁ h₂)
    (hgone₁ : Departed g name env₁ h₁ h₁') (hgone₂ : Departed g name env₂ h₂ h₂') :
    L.LikeControls w h₁'.controls h₂'.controls := by
  refine ⟨?_, fun i j hij => ?_⟩
  · rw [hgone₁.goesOn.controls, hgone₂.goesOn.controls]
    exact h.numbers
  · show Option.Rel _ (h₁'.control? i) (h₂'.control? j)
    have hsame := h.numbers.iff hij h.control.1
    by_cases hi : i = env₁.control
    · obtain rfl := hi
      obtain rfl := hsame.mp rfl
      obtain ⟨c, hc, hname₁, hload₁, hunload₁, hcommands₁⟩ := hgone₁.released.control
      obtain ⟨d, hd, hname₂, hload₂, hunload₂, hcommands₂⟩ := hgone₂.released.control
      have hfolder : (h₁'.control? env₁.control).map Control.folder =
          (h₂'.control? env₂.control).map Control.folder := by
        rw [hgone₁.goesOn.folder, hgone₂.goesOn.folder, h.control.2]
      rw [hc, hd] at hfolder
      rw [hc, hd]
      refine .some ⟨hname₁.trans hname₂.symm, Option.some.inj hfolder, ?_, ?_, ?_⟩
      · rw [hload₁, hload₂]
        exact .nil
      · rw [hunload₁, hunload₂]
        exact .nil
      · rw [hcommands₁, hcommands₂]
        exact .nil
    · rw [hgone₁.released.controls i hi, hgone₂.released.controls j (mt hsame.mpr hi)]
      exact h.controls i j hij hi

/-- Where a name is looked up of which nothing is left, and where any other is. -/
theorem get?_departed {β : Type} {R : Option β → Option β → Prop} {x₁ x₂ y₁ y₂ : String → Option β}
    (hx₁ : ∀ n, x₁ n = if name = n then none else y₁ n) (hx₂ : ∀ n, x₂ n = if name = n then none else y₂ n)
    (hnone : R none none) (hy : ∀ n, n ≠ name → R (y₁ n) (y₂ n)) (n : String) : R (x₁ n) (x₂ n) := by
  rw [hx₁, hx₂]
  by_cases hn : name = n
  · rw [if_pos hn, if_pos hn]
    exact hnone
  · rw [if_neg hn, if_neg hn]
    exact hy n (Ne.symm hn)

/-- Once the script is unloaded from both hosts, they are alike. -/
theorem Besides.unloaded (hg : g.KeepsToApi) (h₀₁ : Orderly none h₁) (h₀₂ : Orderly none h₂)
    (h : L.Besides w name env₁ env₂ h₁ h₂) (halone₁ : L.DepartsAlone g w name env₁ h₁)
    (halone₂ : L.DepartsAlone g w name env₂ h₂) :
    L.LikeHost w (unload g name h₁).2 (unload g name h₂).2 := by
  -- what is left in either host is what is besides the script
  obtain ⟨-, hgone₁⟩ := unload_departed hg h₀₁ h.environment.1 halone₁.own
  obtain ⟨-, hgone₂⟩ := unload_departed hg h₀₂ h.environment.2 halone₂.own
  constructor
  case guest =>
    rw [hgone₁.guest, hgone₂.guest]
    exact halone₂.right _ (halone₁.left _ h.guest)
  case tasks => exact h.tasks.departed h₀₁ h₀₂ hgone₁ hgone₂
  case objects =>
    refine ⟨fun n => ?_, fun n => ?_⟩
    · rw [(hgone₁.objects h₀₁ n).1, (hgone₂.objects h₀₂ n).1]
      exact map_eq_of_rel (h.objects n) fun _ _ hxy => hxy.1
    · rw [(hgone₁.objects h₀₁ n).2, (hgone₂.objects h₀₂ n).2]
      exact rel_bind (h.objects n) fun _ _ hxy => hxy.2
  case commands =>
    refine ⟨fun n => ?_, hgone₁.presented.trans hgone₂.presented.symm⟩
    rw [hgone₁.released.commands, hgone₂.released.commands, h.commands n]
  case controls => exact h.controls_departed hgone₁ hgone₂
  case loaded => exact get?_departed hgone₁.released.loaded hgone₂.released.loaded rfl h.loaded
  case environments =>
    exact get?_departed hgone₁.released.environments hgone₂.released.environments .none h.environments
  case phases => exact get?_departed hgone₁.released.phases hgone₂.released.phases rfl h.phases
  case policy => rw [hgone₁.policy, hgone₂.policy, h.policy]
  case bundles => rw [hgone₁.bundles, hgone₂.bundles, h.bundles]
  case files => rw [hgone₁.files, hgone₂.files, h.files]

end Likeness
end ScriptHost
