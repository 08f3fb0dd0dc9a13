import ScriptHost.Proofs.Host.Steps
import ScriptHost.Proofs.Host.Stints

/-!
# Who owns what

Tasks, pins, shared objects and published commands belong to scripts. The host takes them from a script when it is
unloaded, and when its load fails; nothing takes them back when they are acquired later. A scheduler and a control
object act for their script as long as anyone keeps them, whether the script is loaded or not.

* `Act.IsLive`: the act acquires nothing, or acquires it for a script that is loaded or being loaded.
  Among live owners it is exactly such acts after which all owners live (`Act.perform_ownersLive`).
* `OwnersLoaded`: the resources of a host between operations belong to it or to loaded scripts.
-/

namespace ScriptHost
namespace Host

open Scheduler

variable {γ α β : Type} {g : Guest γ α} {h h' : Host γ α} {flying : Option (ℕ × Submission α)}

/-- A script is loaded, or is being loaded. -/
def Lives (h : Host γ α) (script : String) : Prop :=
  h.isLoaded script = true ∨ h.phases.get? script = some .loading

/-- The tasks and the shared objects belong to scripts that live, or to the host. -/
structure OwnersLive (h : Host γ α) : Prop where
  tasks : ∀ k ∈ h.scheduler.handles, h.Lives k.script
  objects : ∀ n script, h.objects.owner? n = some (.script script) → h.Lives script

/-- The published commands belong to loaded scripts. -/
def CommandsLoaded (h : Host γ α) : Prop :=
  ∀ n c, h.commands.get? n = some c → h.isLoaded c.owner = true

/-- No script is in transition. -/
def Settled (h : Host γ α) : Prop := ∀ n, h.phases.get? n = none

/-- Whatever there is belongs to the host or to loaded scripts. -/
structure OwnersLoaded (h : Host γ α) : Prop where
  tasks : ∀ k ∈ h.scheduler.handles, h.isLoaded k.script = true
  pins : ∀ p, h.scheduler.bridge.isPinned p = true →
    ∃ k ∈ h.scheduler.handles, k.pin = some p ∧ h.isLoaded k.script = true
  waiting : ∀ e ∈ h.runner.queue,
    ∃ k ∈ h.scheduler.handles, k.task.raw = e.id ∧ h.isLoaded k.script = true
  objects : ∀ n script, h.objects.owner? n = some (.script script) → h.isLoaded script = true
  commands : ∀ n c, h.commands.get? n = some c → h.isLoaded c.owner = true

end Host

/-! ## Acts that acquire -/

namespace Act

open Host

variable {γ α : Type}

/-- What the act acquires, if anything, it acquires for a script that lives. -/
def IsLive (h : Host γ α) : Act γ α → Prop
  | .schedule script _ _ _ => h.Lives script
  | .share number object (some _) =>
    h.objects.Permits (.script (h.controlName number)) object → h.Lives (h.controlName number)
  | _ => True

/-- Each of the acts is live when its turn comes. -/
def AllLive : List (Act γ α) → Host γ α → Prop
  | [], _ => True
  | act :: acts, h => act.IsLive h ∧ AllLive acts (act.perform h)

end Act

namespace Host

open Scheduler

variable {γ α β : Type} {g : Guest γ α} {h h' : Host γ α} {flying : Option (ℕ × Submission α)}

/-- Whatever is acquired in the stint is acquired for scripts that live. -/
def Stint.IsLive (st : Stint γ α) : Prop :=
  ∃ acts, Act.AllLive acts st.before ∧ st.after = Act.performAll acts st.before

/-! ## What becomes of owners -/

theorem Lives.keep {script : String} (hlives : h.Lives script) (hbooks : KeepsBooks h h') :
    h'.Lives script := by
  unfold Lives isLoaded at *
  rw [hbooks.loaded, hbooks.phases]
  exact hlives

/-- Owners live on if those that are left do. -/
theorem OwnersLive.shrink (howners : OwnersLive h)
    (htasks : ∀ k ∈ h'.scheduler.handles, k ∈ h.scheduler.handles ∧ (h.Lives k.script → h'.Lives k.script))
    (hobjects : ∀ n script, h'.objects.owner? n = some (.script script) →
      h.objects.owner? n = some (.script script) ∧ (h.Lives script → h'.Lives script)) :
    OwnersLive h' where
  tasks k hk := (htasks k hk).2 (howners.tasks k (htasks k hk).1)
  objects n script hn := (hobjects n script hn).2 (howners.objects n script (hobjects n script hn).1)

/-- While the books are kept and nothing is acquired, owners live on. -/
theorem OwnersLive.keep (howners : OwnersLive h) (hbooks : KeepsBooks h h')
    (htasks : ∀ k ∈ h'.scheduler.handles, k ∈ h.scheduler.handles)
    (hobjects : ∀ n script, h'.objects.owner? n = some (.script script) →
      h.objects.owner? n = some (.script script)) : OwnersLive h' :=
  howners.shrink (fun k hk => ⟨htasks k hk, fun hlives => hlives.keep hbooks⟩)
    fun n script hn => ⟨hobjects n script hn, fun hlives => hlives.keep hbooks⟩

theorem CommandsLoaded.keep (hcommands : CommandsLoaded h) (hbooks : KeepsBooks h h') :
    CommandsLoaded h' := by
  intro n c hc
  rw [hbooks.commands] at hc
  rw [isLoaded, hbooks.loaded]
  exact hcommands n c hc

theorem Settled.keep (hsettled : Settled h) (hbooks : KeepsBooks h h') : Settled h' := by
  intro n
  rw [hbooks.phases]
  exact hsettled n

/-- Between operations a script lives when it is loaded. -/
theorem Settled.lives_iff (hsettled : Settled h) {script : String} :
    h.Lives script ↔ h.isLoaded script = true := by
  unfold Lives
  rw [hsettled script]
  exact or_iff_left fun hphase => nomatch hphase

/-- Between operations, what belongs to scripts that live belongs to loaded scripts: pins and waiting tasks are
those of the task lists. -/
theorem OwnersLive.loaded (howners : OwnersLive h) (hcommands : CommandsLoaded h)
    (h₀ : Orderly none h) (hsettled : Settled h) : OwnersLoaded h := by
  have htasks : ∀ k ∈ h.scheduler.handles, h.isLoaded k.script = true := fun k hk =>
    hsettled.lives_iff.mp (howners.tasks k hk)
  exact
    { tasks := htasks
      pins := fun p hp => by
        obtain ⟨k, hk, hpin⟩ := (h₀.tasks.balances.pinsMatch.isPinned_iff p).mp hp
        exact ⟨k, hk, hpin, htasks k hk⟩
      waiting := fun e he => by
        cases htask : e.task with
        | none => exact nomatch (h₀.tasks.entries.held e he).mp htask
        | some task =>
          have hhandle := (h₀.tasks.tracked e he task (.inl htask)).handle
          exact ⟨_, hhandle, rfl, htasks _ hhandle⟩
      objects := fun n script hn => hsettled.lives_iff.mp (howners.objects n script hn)
      commands := hcommands }

/-! ## Acts -/

theorem owner?_of_share {owner o : Owner} {name m : String} {value : Option α}
    (ho : (share owner name value h).2.objects.owner? m = some o) :
    h.objects.owner? m = some o ∨ (o = owner ∧ value.isSome ∧ h.objects.Permits owner name) := by
  rw [share_objects] at ho
  cases hregister : h.objects.register owner name value with
  | error e =>
    rw [hregister] at ho
    exact .inl ho
  | ok result =>
    rw [hregister] at ho
    exact SharedObjects.owner?_of_register hregister ho

theorem owner?_of_unshare {owner o : Owner} {name m : String}
    (ho : (unshare owner name h).2.objects.owner? m = some o) : h.objects.owner? m = some o := by
  rw [unshare_objects] at ho
  cases hunregister : h.objects.unregister owner name with
  | error e =>
    rw [hunregister] at ho
    exact ho
  | ok result =>
    rw [hunregister] at ho
    exact SharedObjects.owner?_of_unregister hunregister ho

/-- An act brings no script to life. -/
theorem Lives.of_perform {act : Act γ α} (h₀ : Orderly flying h) {script : String}
    (hlives : (act.perform h).Lives script) : h.Lives script := by
  have hbooks := (act.perform_orderly h₀).2
  unfold Lives isLoaded at *
  rw [hbooks.loaded, hbooks.phases] at hlives
  exact hlives

theorem share_ownersLive_iff (number : ℕ) (object : String) (value : Option α) (h₀ : Orderly flying h)
    (howners : OwnersLive h) :
    OwnersLive ((Act.share number object value : Act γ α).perform h) ↔
      (Act.share number object value : Act γ α).IsLive h := by
  have hbooks := ((Act.share number object value : Act γ α).perform_orderly h₀).2
  constructor
  · intro hafter
    cases value with
    | none => trivial
    | some value =>
      intro hpermits
      -- the value is now under the name, in the script's possession
      refine Lives.of_perform h₀ (hafter.objects object _ ?_)
      show (Host.share (.script (h.controlName number)) object (some value) h).2.objects.owner?
        object = _
      rw [share_objects, SharedObjects.register_of_permits hpermits, SharedObjects.owner?_put,
        if_pos rfl]
  · intro hlive
    obtain ⟨objects, records, _, heq⟩ :=
      share_eq (h := h) (.script (h.controlName number)) object value
    refine ⟨fun k hk => ?_, fun n script hn => ?_⟩
    · rw [Act.perform, heq] at hk
      exact (howners.tasks k hk).keep hbooks
    · rcases owner?_of_share hn with hold | ⟨hnew, hsome, hpermits⟩
      · exact (howners.objects n script hold).keep hbooks
      · obtain rfl := Owner.script.inj hnew
        obtain ⟨value, rfl⟩ := Option.isSome_iff_exists.mp hsome
        exact Lives.keep (hlive hpermits) hbooks

theorem schedule_ownersLive_iff (script : String) (callable : α) (lane : Lane) (mode : Mode)
    (h₀ : Orderly flying h) (howners : OwnersLive h) :
    OwnersLive ((Act.schedule script callable lane mode : Act γ α).perform h) ↔ h.Lives script := by
  have hbooks := ((Act.schedule script callable lane mode : Act γ α).perform_orderly h₀).2
  obtain ⟨record, heq⟩ := schedule_eq h₀.tasks.balances script callable lane mode
  have hhandles : ((Act.schedule script callable lane mode).perform h).scheduler.handles =
      (h.scheduler.enroll script callable mode ⟨h.runner.issued + 1⟩).handles := by
    rw [Act.perform, heq]
  constructor
  · intro hafter
    -- the new handle is among the tasks, in the script's name
    refine Lives.of_perform h₀ (hafter.tasks ⟨script, ⟨h.runner.issued + 1⟩,
      if mode.isTracked then some (h.scheduler.bridge.pin callable).1 else none⟩ ?_)
    rw [hhandles]
    exact List.mem_append_right _ (List.mem_singleton.mpr rfl)
  · intro hlive
    refine ⟨fun k hk => ?_, fun n owner hn => ?_⟩
    · rw [hhandles] at hk
      rcases List.mem_append.mp hk with hk | hk
      · exact (howners.tasks k hk).keep hbooks
      · rw [List.mem_singleton.mp hk]
        exact Lives.keep hlive hbooks
    · rw [Act.perform, heq] at hn
      exact (howners.objects n owner hn).keep hbooks

/-- Among owners that live, all live after an act exactly if it acquires nothing for another script. -/
theorem Act.perform_ownersLive_iff (act : Act γ α) (h₀ : Orderly flying h) (howners : OwnersLive h) :
    OwnersLive (act.perform h) ↔ act.IsLive h := by
  have hbooks := (act.perform_orderly h₀).2
  have hsame : (act.perform h).scheduler.handles = h.scheduler.handles →
      (act.perform h).objects = h.objects → OwnersLive (act.perform h) := by
    intro hhandles hobjects
    refine howners.keep hbooks (fun k hk => hhandles ▸ hk) fun n script hn => ?_
    rw [hobjects] at hn
    exact hn
  -- only to share and to schedule is to acquire
  cases act with
  | think state => exact iff_of_true (hsame rfl rfl) trivial
  | report record => exact iff_of_true (hsame rfl rfl) trivial
  | onLoad number hook => exact iff_of_true (hsame rfl rfl) trivial
  | onUnload number hook => exact iff_of_true (hsame rfl rfl) trivial
  | declare number command => exact iff_of_true (hsame rfl rfl) trivial
  | share number object value => exact share_ownersLive_iff number object value h₀ howners
  | unshare number object =>
    obtain ⟨objects, _, heq⟩ := unshare_eq (h := h) (.script (h.controlName number)) object
    refine iff_of_true (howners.keep hbooks (fun k hk => ?_) fun n script hn => ?_) trivial
    · rw [Act.perform, heq] at hk
      exact hk
    · exact owner?_of_unshare hn
  | schedule script callable lane mode => exact schedule_ownersLive_iff script callable lane mode h₀ howners
  | cancel script id =>
    refine iff_of_true (howners.keep hbooks (fun k hk => ?_) fun n owner hn => ?_) trivial
    · rw [Act.perform, cancelTask_eq h₀.tasks.balances] at hk
      split at hk
      · exact hk
      · exact List.mem_of_mem_eraseP hk
    · rw [Act.perform, cancelTask_eq h₀.tasks.balances] at hn
      split at hn <;> exact hn

theorem performAll_ownersLive (acts : List (Act γ α)) (hlive : Act.AllLive acts h)
    (h₀ : Orderly flying h) (howners : OwnersLive h) : OwnersLive (Act.performAll acts h) := by
  induction acts generalizing h with
  | nil => exact howners
  | cons act acts ih =>
    have hnext := (act.perform_orderly h₀).1
    exact ih hlive.2 hnext ((Act.perform_ownersLive_iff act h₀ howners).mpr hlive.1)

theorem Stint.IsLive.owners {st : Stint γ α} (hlive : st.IsLive) (h₀ : Orderly flying st.before)
    (howners : OwnersLive st.before) : OwnersLive st.after := by
  obtain ⟨acts, hacts, heq⟩ := hlive
  rw [heq]
  exact performAll_ownersLive acts hacts h₀ howners

/-! ## Stretches of the host's own work -/

/-- What is kept from one moment to another: transitions come to an end, the owners of published commands are
loaded, and owners live on if guest code acquires nothing for scripts that do not live. -/
structure Accounted (stints : List (Stint γ α)) (h h' : Host γ α) : Prop where
  settled : Settled h → Settled h'
  commands : CommandsLoaded h → CommandsLoaded h'
  owners : Settled h → (∀ st ∈ stints, st.IsLive) → OwnersLive h → OwnersLive h'

namespace Accounted

variable {stints stints' : List (Stint γ α)} {h'' : Host γ α}

theorem of_books (hbooks : KeepsBooks h h')
    (howners : (∀ st ∈ stints, st.IsLive) → OwnersLive h → OwnersLive h') :
    Accounted stints h h' :=
  ⟨fun hsettled => hsettled.keep hbooks, fun hcommands => hcommands.keep hbooks, fun _ => howners⟩

theorem same : Accounted stints h h := of_books (KeepsBooks.refl h) fun _ howners => howners

theorem trans (h₁ : Accounted stints h h') (h₂ : Accounted stints' h' h'') :
    Accounted (stints ++ stints') h h'' where
  settled hsettled := h₂.settled (h₁.settled hsettled)
  commands hcommands := h₂.commands (h₁.commands hcommands)
  owners hsettled hlive howners := by
    rw [List.forall_mem_append] at hlive
    exact h₂.owners (h₁.settled hsettled) hlive.2 (h₁.owners hsettled hlive.1 howners)

/-- Nothing is acquired. -/
theorem of_shrink (hbooks : KeepsBooks h h')
    (htasks : ∀ k ∈ h'.scheduler.handles, k ∈ h.scheduler.handles)
    (hobjects : ∀ n script, h'.objects.owner? n = some (.script script) →
      h.objects.owner? n = some (.script script)) : Accounted stints h h' :=
  of_books hbooks fun _ howners => howners.keep hbooks htasks hobjects

/-- The books of commands change, and all else stays. -/
theorem of_commands (table : CommandTable) (records : Array Record)
    (htable : ∀ n c, table.get? n = some c → h.commands.get? n = some c ∨ h.isLoaded c.owner = true) :
    Accounted stints h { h with commands := table, records := records } where
  settled hsettled := hsettled
  commands hcommands n c hc := (htable n c hc).elim (hcommands n c) id
  owners _ _ howners := ⟨howners.tasks, howners.objects⟩

/-- What is logged is of no account. -/
theorem logged (records : Array Record) : Accounted [] h { h with records := records } :=
  of_books (keepsBooks_with _ _ _ _ _) fun _ howners => ⟨howners.tasks, howners.objects⟩

/-- One stint of the guest. -/
theorem stint (hg : ∃ acts, h' = Act.performAll acts h) (h₀ : Orderly none h) :
    Accounted [⟨h, h'⟩] h h' := by
  have hbooks : KeepsBooks h h' := by
    obtain ⟨acts, rfl⟩ := hg
    exact (Act.performAll_orderly acts h₀).2
  exact of_books hbooks fun hlive howners => (hlive _ List.mem_cons_self).owners h₀ howners

end Accounted

/-! ## Hooks -/

/-- Owners live on while hooks run. -/
theorem runHooks_owners (hg : g.KeepsToApi) (name kind : String) (hooks : List α)
    (h₀ : Orderly none h) (hlive : ∀ st ∈ hookStints g name kind hooks h, st.IsLive)
    (howners : OwnersLive h) : OwnersLive (runHooks g name kind hooks h).2 :=
  runHooks_keeps hg (fun _ _ howners => ⟨howners.tasks, howners.objects⟩) name kind hooks h₀
    (fun st hst => (hlive st hst).owners) howners

/-! ## Unloading -/

/-- When a script comes to be in transition, whoever lived is loaded and lives on. -/
theorem OwnersLive.transition (howners : OwnersLive h) (hsettled : Settled h) (name : String)
    (phase : Phase) : OwnersLive (setPhase name (some phase) h).2 := by
  have hlives : ∀ script, h.Lives script → (setPhase name (some phase) h).2.Lives script :=
    fun script hlives => .inl (hsettled.lives_iff.mp hlives)
  exact howners.shrink (fun k hk => ⟨hk, hlives k.script⟩) fun n script hn => ⟨hn, hlives script⟩

/-- What is left when a script is taken away belongs to others, who live on. -/
theorem OwnersLive.without (howners : OwnersLive h) (name : String) (control : ℕ) :
    OwnersLive (h.without name control) := by
  have hlives : ∀ script, script ≠ name → h.Lives script → (h.without name control).Lives script := by
    intro script hne hlives
    unfold Lives isLoaded at *
    show ((h.loaded.erase name).get? script).getD false = true ∨
      (h.phases.erase name).get? script = some .loading
    rw [NameMap.get?_erase, NameMap.get?_erase, if_neg (Ne.symm hne), if_neg (Ne.symm hne)]
    exact hlives
  refine howners.shrink (fun k hk => ?_) fun n script hn => ?_
  · obtain ⟨hk, hne⟩ := mem_dropAll.mp hk
    exact ⟨hk, hlives k.script hne⟩
  · obtain ⟨hn, hne⟩ := SharedObjects.owner?_of_release hn
    exact ⟨hn, hlives script hne⟩

theorem unload_accounted (hg : g.KeepsToApi) (name : String) (h₀ : Orderly none h) :
    Accounted (unloadStints g name h) h (unload g name h).2 := by
  cases hloaded : h.isLoaded name with
  | false =>
    rw [unload_eq_of_not_loaded hloaded]
    exact Accounted.same
  | true =>
    obtain ⟨env, records, henv, heq⟩ := h₀.unload_eq hg hloaded
    obtain ⟨horder, hbooks⟩ := afterHooks_orderly hg name env h₀
    rw [heq, unloadStints_of_loaded henv hloaded]
    constructor
    case settled =>
      intro hsettled n
      show ((afterHooks g name env h).phases.erase name).get? n = none
      rw [NameMap.get?_erase, hbooks.phases]
      split
      · rfl
      · rename_i hn
        show (h.phases.insert name .unloading).get? n = none
        rw [NameMap.get?_insert, if_neg hn]
        exact hsettled n
    case commands =>
      intro hcommands n c hc
      have hc' : ((afterHooks g name env h).commands.withdraw
          ((afterHooks g name env h).commands.ownedBy name)).sync.2.get? n = some c := hc
      rw [CommandTable.get?_sync, horder.commands.get?_withdraw_ownedBy, hbooks.commands] at hc'
      obtain ⟨hc', hne⟩ := Option.filter_eq_some_iff.mp hc'
      -- the commands of the script have been withdrawn, so this one is of another
      have howner := hcommands n c hc'
      show (((afterHooks g name env h).loaded.erase name).get? c.owner).getD false = true
      rw [NameMap.get?_erase, if_neg (Ne.symm (bne_iff_ne.mp hne)), hbooks.loaded]
      exact howner
    case owners =>
      intro hsettled hlive howners
      have hunloading := howners.transition hsettled name .unloading
      have hafter : OwnersLive (afterHooks g name env h) :=
        runHooks_owners hg name "unload" _ (Tidy.setPhase _ _ h h₀) hlive hunloading
      have hwithout := hafter.without name env.control
      exact ⟨hwithout.tasks, hwithout.objects⟩

/-! ## Loading -/

theorem publish_accounted {name : String} (hloaded : h.isLoaded name = true) :
    Accounted [] h (publish name h).2 := by
  obtain ⟨commands, records, heq, howned⟩ := publish_eq name h
  rw [heq]
  refine Accounted.of_commands commands records fun n c hc => (howned n c hc).imp_right fun hnew => ?_
  rw [hnew]
  exact hloaded

/-- A script that has entered among the loaded ones publishes its commands and runs its load hooks. -/
theorem enter_accounted (hg : g.KeepsToApi) {name : String} {env : Environment α}
    (h₀ : Orderly none (h.entered name env)) :
    Accounted (enterStints g name env h) (h.entered name env) (enter g name env h).2 := by
  have hloaded : (h.entered name env).isLoaded name = true := by
    show ((h.loaded.insert name true).get? name).getD false = true
    rw [NameMap.get?_insert, if_pos rfl]
    rfl
  have hpublished := publish_accounted hloaded
  have horder := Tidy.publish name _ h₀
  -- commands are published before the hooks run and after, each time by a script that is loaded
  have hkept : (publish name (h.entered name env)).2.isLoaded name = true := by
    obtain ⟨commands, records, heq, _⟩ := publish_eq name (h.entered name env)
    rw [heq]
    exact hloaded
  obtain ⟨_, hbooks⟩ := Modest.runHooks hg name "load"
    ((publish name (h.entered name env)).2.loadHooks env) none _ horder
  have hhooks : Accounted (enterStints g name env h) (publish name (h.entered name env)).2 _ :=
    Accounted.of_books hbooks (runHooks_owners hg name "load" _ horder)
  rw [isLoaded, ← hbooks.loaded] at hkept
  have hagain := publish_accounted hkept
  obtain ⟨records, heq⟩ := enter_eq g name env h
  rw [heq]
  have hall := hpublished.trans (hhooks.trans (hagain.trans (Accounted.logged records)))
  rw [List.nil_append, List.nil_append, List.append_nil] at hall
  exact hall

/-- Owners live on while the body of a script runs. -/
theorem afterSource_owners (hg : g.KeepsToApi) (name : String) (origin : Origin) (source : String)
    (h₀ : Orderly none h) (hlive : ∀ st ∈ instantiateStints g name origin source h, st.IsLive)
    (howners : OwnersLive h) : OwnersLive (afterSource g name origin source h) :=
  afterSource_keeps hg (fun _ _ howners => ⟨howners.tasks, howners.objects⟩) name origin source h₀
    (fun howners => ⟨howners.tasks, howners.objects⟩) (fun st hst => (hlive st hst).owners) howners

section

variable {name : String} {stints : List (Stint γ α)}

/-- While a script is being loaded no other is in transition. -/
theorem phases_of_loading (hbooks : KeepsBooks (setPhase name (some .loading) h).2 h')
    (hsettled : Settled h) {n : String} (hn : n ≠ name) : h'.phases.get? n = none := by
  rw [hbooks.phases]
  show (h.phases.insert name .loading).get? n = none
  rw [NameMap.get?_insert, if_neg (Ne.symm hn)]
  exact hsettled n

/-- When a load has come to its end, no script is in transition. -/
theorem settled_of_loading (hbooks : KeepsBooks (setPhase name (some .loading) h).2 h')
    (hsettled : Settled h) : Settled (setPhase name none h').2 := by
  intro n
  show (h'.phases.erase name).get? n = none
  rw [NameMap.get?_erase]
  split
  · rfl
  · rename_i hn
    exact phases_of_loading hbooks hsettled (Ne.symm hn)

/-- A body has failed: what it acquired is discarded, and what is left belongs to others. -/
theorem discarded_accounted (hbooks : KeepsBooks (setPhase name (some .loading) h).2 h')
    (howners : Settled h → (∀ st ∈ stints, st.IsLive) → OwnersLive h → OwnersLive h')
    (control : ℕ) (records : Array Record) :
    Accounted stints h
      (setPhase name none { h'.discarded name control with records := records }).2 where
  settled hsettled n := settled_of_loading hbooks hsettled n
  commands hcommands n c hc := by
    have hc' : h'.commands.get? n = some c := hc
    rw [hbooks.commands] at hc'
    show (h'.loaded.get? c.owner).getD false = true
    rw [hbooks.loaded]
    exact hcommands n c hc'
  owners hsettled hlive hstart := by
    have hlives : ∀ script, script ≠ name → h'.Lives script →
        (setPhase name none { h'.discarded name control with records := records }).2.Lives script := by
      intro script hne hlives
      refine .inl (hlives.resolve_right fun hphase => ?_)
      rw [phases_of_loading hbooks hsettled hne] at hphase
      cases hphase
    refine (howners hsettled hlive hstart).shrink (fun k hk => ?_) fun n script hn => ?_
    · obtain ⟨hk, hne⟩ := mem_dropAll.mp hk
      exact ⟨hk, hlives k.script hne⟩
    · obtain ⟨hn, hne⟩ := SharedObjects.owner?_of_release hn
      exact ⟨hn, hlives script hne⟩

/-- A body has come to its end: what it acquired belongs to a script that is loaded now. -/
theorem entered_accounted (hbooks : KeepsBooks (setPhase name (some .loading) h).2 h')
    (howners : Settled h → (∀ st ∈ stints, st.IsLive) → OwnersLive h → OwnersLive h')
    (env : Environment α) :
    Accounted stints h ((setPhase name none h').2.entered name env) := by
  have hloaded : ∀ script, h'.isLoaded script = true ∨ script = name →
      ((setPhase name none h').2.entered name env).isLoaded script = true := by
    intro script hscript
    show ((h'.loaded.insert name true).get? script).getD false = true
    rw [NameMap.get?_insert]
    split
    · rfl
    · rename_i hne
      exact hscript.resolve_right (Ne.symm hne)
  constructor
  case settled => exact fun hsettled => settled_of_loading hbooks hsettled
  case commands =>
    intro hcommands n c hc
    have hc' : h'.commands.get? n = some c := hc
    rw [hbooks.commands] at hc'
    refine hloaded c.owner (.inl ?_)
    rw [isLoaded, hbooks.loaded]
    exact hcommands n c hc'
  case owners =>
    intro hsettled hlive hstart
    -- between operations the only script that is being loaded is this one
    have hlives : ∀ script, h'.Lives script →
        ((setPhase name none h').2.entered name env).Lives script := by
      intro script hlives
      by_cases hname : script = name
      · exact .inl (hloaded script (.inr hname))
      · refine .inl (hloaded script (.inl (hlives.resolve_right fun hphase => ?_)))
        rw [phases_of_loading hbooks hsettled hname] at hphase
        cases hphase
    exact (howners hsettled hlive hstart).shrink (fun k hk => ⟨hk, hlives k.script⟩)
      fun n script hn => ⟨hn, hlives script⟩

end

theorem bringUp_accounted (hg : g.KeepsToApi) (name : String) (origin : Origin) (source : String)
    (h₀ : Orderly none h) :
    Accounted (bringUpStints g name origin source h) h (bringUp g name origin source h).2 := by
  have hbegun := Tidy.setPhase name (some .loading) h h₀
  obtain ⟨horder, hbooks⟩ := afterSource_orderly hg name origin source hbegun
  have howners := fun hsettled hlive (hstart : OwnersLive h) =>
    afterSource_owners hg name origin source hbegun hlive
      (hstart.transition hsettled name .loading)
  unfold bringUpStints
  dsimp only
  rcases instantiate_cases hg name origin source hbegun with hok | ⟨e, records, herror⟩
  · rw [bringUp_of_ok hok, hok]
    dsimp only
    have hentered := entered_accounted hbooks howners
      (createEnvironment g name origin (setPhase name (some .loading) h).2).1
    obtain ⟨hname, hcontrol⟩ := (instantiate_spec hg name origin source).2 none _ _ hbegun
      (congrArg Prod.fst hok)
    rw [hok] at hcontrol
    have hsettling := Tidy.setPhase name none _ horder
    have horder' := hsettling.entered hname (hcontrol.setPhase name none)
    exact hentered.trans (enter_accounted hg horder')
  · obtain ⟨records', heq⟩ := bringUp_of_error herror
    rw [heq, herror]
    dsimp only
    exact (discarded_accounted hbooks howners _ records).trans (Accounted.logged records')

theorem makeRoom_accounted (hg : g.KeepsToApi) (name : String) (h₀ : Orderly none h) :
    Accounted (makeRoomStints g name h) h (makeRoom g name h).2 := by
  unfold makeRoom makeRoomStints
  rw [read_bind]
  by_cases hloaded : h.isLoaded name = true
  · rw [if_pos hloaded, if_pos hloaded]
    cases h.policy with
    | reject => exact Accounted.same
    | reload =>
      have hlogged := Tidy.log (lifeRecord .info s!"Script '{name}' is already loaded, replacing it")
        h h₀
      exact (Accounted.logged _).trans (unload_accounted hg name hlogged)
  · rw [if_neg hloaded, if_neg hloaded]
    exact Accounted.same

theorem loadFrom_accounted (hg : g.KeepsToApi) (name : String) (origin : Origin) (source : String)
    (h₀ : Orderly none h) :
    Accounted (loadFromStints g name origin source h) h (loadFrom g name origin source h).2 := by
  have hroom := makeRoom_accounted hg name h₀
  rw [loadFrom_eq, bind_run, loadFromStints]
  cases (makeRoom g name h).1 with
  | error e => exact hroom.trans Accounted.same
  | ok _ => exact hroom.trans (bringUp_accounted hg name origin source (Tidy.makeRoom hg name h h₀))

theorem load_accounted (hg : g.KeepsToApi) (source name : String) (h₀ : Orderly none h) :
    Accounted (loadStints g source name h) h (load g source name h).2 := by
  unfold load loadStints
  cases isScriptName name with
  | false => exact Accounted.same
  | true => exact loadFrom_accounted hg name _ source h₀

theorem loadBundle_accounted (hg : g.KeepsToApi) (name : String) (h₀ : Orderly none h) :
    Accounted (loadBundleStints g name h) h (loadBundle g name h).2 := by
  unfold loadBundle loadBundleStints
  cases isScriptName name with
  | false => exact Accounted.same
  | true =>
    simp only [if_true]
    rw [read_bind]
    cases h.bundles.read h.files name with
    | error e => exact Accounted.same
    | ok entry => exact loadFrom_accounted hg name _ entry.source h₀

theorem reload_accounted (hg : g.KeepsToApi) (name : String) (h₀ : Orderly none h) :
    Accounted (reloadStints g name h) h (reload g name h).2 := by
  have hunload := unload_accounted hg name h₀
  have horder := Tidy.unload hg name h h₀
  rw [reload_eq, read_bind, reloadStints]
  cases h.environment? name with
  | none => exact Accounted.same
  | some env =>
    dsimp only
    rw [bind_run]
    cases (unload g name h).1 with
    | error e => exact hunload.trans Accounted.same
    | ok _ =>
      dsimp only
      cases env.origin with
      | bundle folder => exact hunload.trans (loadBundle_accounted hg name horder)
      | inline source => exact hunload.trans (loadFrom_accounted hg name _ source horder)

/-! ## Several scripts -/

theorem forScripts_accounted {act : String → HostM γ α (Except HostError Unit)}
    {stints : String → Host γ α → List (Stint γ α)} (htidy : ∀ name, Tidy (act name))
    (hact : ∀ name h, Orderly none h → Accounted (stints name h) h (act name h).2)
    (names : List String) (h₀ : Orderly none h) :
    Accounted (scriptStints act stints names h) h (forScripts act names h).2 := by
  induction names generalizing h with
  | nil => exact Accounted.same
  | cons name names ih =>
    have hrest := ih (htidy name h h₀)
    rw [forScripts, bind_run, bind_run]
    exact (hact name h h₀).trans hrest

/-! ## Ticks -/

theorem fire_accounted (hg : g.KeepsToApi) {now id : ℕ} {task : Submission α}
    (h₀ : Orderly (some (id, task)) h) (hhandle : handleOf id task ∈ h.scheduler.handles) :
    Accounted (fireStints g task h) h
      ((Scheduler.fire (α := α) g.run task h).2.settle now id task) := by
  obtain ⟨callable, hcarried⟩ := h₀.tasks.carried hhandle
  have hrun := (Modest.runCallable hg task.script callable _ h h₀).1
  refine Accounted.of_books (fire_orderly hg h₀ hhandle).2 fun hlive howners => ?_
  rw [fireStints, hcarried] at hlive
  have hcalled : OwnersLive (g.run callable h).2 := (hlive _ List.mem_cons_self).owners h₀ howners
  have hran : OwnersLive (Scheduler.runCallable g.run task.script callable h).2 := by
    rw [Scheduler.runCallable, bind_run]
    cases (g.run callable h).1 with
    | ok _ => exact hcalled
    | error e => exact ⟨hcalled.tasks, hcalled.objects⟩
  rw [fire_state hcarried rfl hrun.tasks]
  split
  · exact ⟨fun k hk => hran.tasks k (List.mem_of_mem_eraseP hk), hran.objects⟩
  · exact ⟨hran.tasks, hran.objects⟩

theorem fireAll_accounted (hg : g.KeepsToApi) {now fired : ℕ} (ids : List ℕ)
    (h₀ : Orderly none h) : Accounted (fireAllStints g now ids h) h
      (TickRunner.fireAll (Scheduler.fire (α := α) g.run) now fired ids h).2 := by
  induction ids generalizing h fired with
  | nil => exact Accounted.same
  | cons id ids ih =>
    rw [fireAllStints]
    cases htask : h.runner.task? id with
    | none =>
      rw [fireAll_skip htask]
      exact ih h₀
    | some task =>
      rw [fireAll_fire htask]
      obtain ⟨hhandle, htaken⟩ := take_orderly h₀ htask
      have hnext : Orderly none ((Scheduler.fire (α := α) g.run task
          { h with runner := h.runner.take id }).2.settle now id task) :=
        (fire_orderly hg htaken hhandle).1
      have htook : Accounted [] h { h with runner := h.runner.take id } :=
        Accounted.of_books (keepsBooks_with _ _ _ _ _)
          fun _ howners => ⟨howners.tasks, howners.objects⟩
      exact (htook.trans (fire_accounted hg htaken hhandle)).trans (ih hnext)

theorem tick_accounted (hg : g.KeepsToApi) (h₀ : Orderly none h) :
    Accounted (tickStints g h) h (tick g h).2 := by
  have hdawn : Accounted [] h h.atDawn :=
    Accounted.of_books (keepsBooks_with _ _ _ _ _) fun _ howners => ⟨howners.tasks, howners.objects⟩
  obtain ⟨records, heq⟩ := tick_eq g h
  rw [heq]
  have hfired : Accounted (tickStints g h) h.atDawn
      (TickRunner.fireAll (Scheduler.fire (α := α) g.run) h.atDawn.runner.now 0
        h.atDawn.runner.dueIds h.atDawn).2 :=
    fireAll_accounted hg h.atDawn.runner.dueIds (atDawn_orderly h₀)
  have hall := (hdawn.trans hfired).trans (Accounted.logged records)
  rw [List.nil_append, List.append_nil] at hall
  exact hall

/-! ## Commands and variables -/

theorem dispatch_accounted (hg : g.KeepsToApi) (name : String) (arguments : List String)
    (h₀ : Orderly none h) :
    Accounted (dispatchStints g name arguments h) h (dispatch g name arguments h).2 := by
  unfold dispatch dispatchStints
  rw [read_bind]
  cases h.findCommand name with
  | none => exact Accounted.same
  | some found =>
    have hlogged := Tidy.log ⟨.debug, "luna::registry::manager",
      s!"Dispatching command '{name}' to script '{found.1}'"⟩ h h₀
    have hcall := Accounted.stint
      (hg.call found.2.handler (arguments.map g.ofText) _) hlogged
    dsimp only
    rw [bind_run, bind_run]
    have hall := (Accounted.logged _).trans hcall
    cases (g.call found.2.handler (arguments.map g.ofText) _).1 with
    | ok values => exact hall
    | error e => exact hall

theorem inspect_accounted (hg : g.KeepsToApi) (script path : String) (h₀ : Orderly none h) :
    Accounted (inspectStints g script path h) h (inspect g script path h).2 := by
  unfold inspect inspectStints
  rw [read_bind]
  cases h.environment? script with
  | none => exact Accounted.same
  | some env => exact Accounted.stint (hg.readVariable env.globals path h) h₀

/-! ## Operations -/

/-- With this the owner of the host acquires nothing in the name of a script. -/
def Operation.IsNeutral : Operation α → Prop
  | .share (.script _) _ (some _) => False
  | .schedule _ _ _ _ => False
  | .register _ => False
  | _ => True

/-- The owner of the host shares an object, but none in the name of a script. -/
theorem share_accounted (owner : Owner) (name : String) (value : Option α)
    (hneutral : ∀ script, owner = .script script → value.isSome → False) :
    Accounted [] h (Host.share owner name value h).2 := by
  obtain ⟨objects, records, _, heq⟩ := share_eq (h := h) owner name value
  have hbooks : KeepsBooks h (Host.share owner name value h).2 := by
    rw [heq]
    exact keepsBooks_with _ _ _ _ _
  refine Accounted.of_shrink hbooks (fun k hk => ?_) fun n script hn => ?_
  · have hk' : k ∈ (Host.share owner name value h).2.scheduler.handles := hk
    rw [heq] at hk'
    exact hk'
  · refine (owner?_of_share hn).resolve_right ?_
    rintro ⟨howner, hsome, -⟩
    exact hneutral script howner.symm hsome

theorem unshare_accounted (owner : Owner) (name : String) :
    Accounted [] h (Host.unshare owner name h).2 := by
  obtain ⟨objects, _, heq⟩ := unshare_eq (h := h) owner name
  have hbooks : KeepsBooks h (Host.unshare owner name h).2 := by
    rw [heq]
    exact keepsBooks_with _ _ _ _ _
  refine Accounted.of_shrink hbooks (fun k hk => ?_) fun n script hn => owner?_of_unshare hn
  have hk' : k ∈ (Host.unshare owner name h).2.scheduler.handles := hk
  rw [heq] at hk'
  exact hk'

/-- To present the commands changes none of them. -/
theorem syncCommands_accounted : Accounted [] h (Host.syncCommands h).2 := by
  obtain ⟨records, heq⟩ := syncCommands_eq h
  rw [heq]
  refine Accounted.of_commands h.commands.sync.2 records fun n c hc => .inl ?_
  rw [CommandTable.get?_sync] at hc
  exact hc

/-- An operation by which the owner of the host acquires nothing in the name of a script. -/
theorem Operation.exec_accounted (hg : g.KeepsToApi) (op : Operation α) (hneutral : op.IsNeutral)
    (h₀ : Orderly none h) : Accounted (op.stints g h) h (op.exec g h) := by
  cases op with
  | load source name => exact load_accounted hg source name h₀
  | loadBundle name => exact loadBundle_accounted hg name h₀
  | unload name => exact unload_accounted hg name h₀
  | reload name => exact reload_accounted hg name h₀
  | loadAll =>
    rw [Operation.stints, Operation.exec, Host.loadAll, read_bind]
    cases h.bundles.list h.files with
    | error e => exact Accounted.same
    | ok names =>
      exact forScripts_accounted (Tidy.loadBundle hg) (fun name h h₀ => loadBundle_accounted hg name h₀)
        names h₀
  | unloadAll =>
    exact forScripts_accounted (Tidy.unload hg) (fun name h h₀ => unload_accounted hg name h₀) _ h₀
  | dispatch name arguments => exact dispatch_accounted hg name arguments h₀
  | inspect script path => exact inspect_accounted hg script path h₀
  | tick => exact tick_accounted hg h₀
  | share owner name value =>
    refine share_accounted owner name value fun script howner hsome => ?_
    obtain ⟨value, rfl⟩ := Option.isSome_iff_exists.mp hsome
    subst howner
    exact hneutral
  | unshare owner name => exact unshare_accounted owner name
  | releaseObjects script =>
    exact Accounted.of_shrink (keepsBooks_with _ _ _ _ _) (fun k hk => hk)
      fun n owner hn => (SharedObjects.owner?_of_release hn).1
  | schedule script callable lane mode => exact absurd hneutral id
  | cancel script id =>
    exact Accounted.of_books ((Act.cancel script id).perform_orderly h₀).2
      fun _ howners => (Act.perform_ownersLive_iff (.cancel script id) h₀ howners).mpr trivial
  | cancelAll script =>
    obtain ⟨records, heq⟩ := cancelAllTasks_eq h₀.tasks.balances script
    show Accounted _ h (cancelAllTasks script h).2
    rw [heq]
    exact Accounted.of_shrink (keepsBooks_with _ _ _ _ _) (fun k hk => (mem_dropAll.mp hk).1)
      fun n owner hn => hn
  | register command => exact absurd hneutral id
  | unregister name =>
    refine Accounted.of_commands (h.commands.unregister name).2 h.records fun n c hc => .inl ?_
    rw [CommandTable.get?_unregister] at hc
    split at hc
    · cases hc
    · exact hc
  | sync => exact syncCommands_accounted
  | call f arguments => exact Accounted.stint (hg.call f arguments h) h₀
  | drift files now =>
    exact ⟨fun hsettled => hsettled, fun hcommands => hcommands,
      fun _ _ howners => ⟨howners.tasks, howners.objects⟩⟩

/-- Between operations no script is in transition. -/
theorem Operation.exec_settled (hg : g.KeepsToApi) (op : Operation α) (h₀ : Orderly none h)
    (hsettled : Settled h) : Settled (op.exec g h) := by
  by_cases hneutral : op.IsNeutral
  · exact (op.exec_accounted hg hneutral h₀).settled hsettled
  · cases op with
    | share owner name value =>
      obtain ⟨objects, records, _, heq⟩ := share_eq (h := h) owner name value
      show Settled (Host.share owner name value h).2
      rw [heq]
      exact hsettled
    | schedule script callable lane mode =>
      exact hsettled.keep ((Act.schedule script callable lane mode).perform_orderly h₀).2
    | register command =>
      rw [Operation.exec]
      cases h.commands.register command <;> exact hsettled
    | _ => exact absurd trivial hneutral

theorem Reachable.settled (hg : g.KeepsToApi) (hreach : Reachable g h) : Settled h := by
  induction hreach with
  | new guest policy bundles files now records => exact fun n => NameMap.get?_empty n
  | step hreach op ih => exact op.exec_settled hg (hreach.orderly hg) ih

/-! ## Runs -/

theorem execAll_accounted (hg : g.KeepsToApi) (ops : List (Operation α))
    (hneutral : ∀ op ∈ ops, op.IsNeutral) (h₀ : Orderly none h) :
    Accounted (runStints g ops h) h (execAll g ops h) ∧ Orderly none (execAll g ops h) := by
  induction ops generalizing h with
  | nil => exact ⟨Accounted.same, h₀⟩
  | cons op ops ih =>
    rw [List.forall_mem_cons] at hneutral
    have hfirst := op.exec_accounted hg hneutral.1 h₀
    obtain ⟨hrest, horder⟩ := ih hneutral.2 (op.exec_orderly hg h₀)
    exact ⟨hfirst.trans hrest, horder⟩

/-- A new host has neither tasks nor shared objects. -/
theorem ownersLive_new (guest : γ) (policy : DoubleLoad) (bundles : BundleFolder) (files : FileTree)
    (now : Timestamp) (records : Array Record) :
    OwnersLive ({ guest, policy, bundles, files, now, records } : Host γ α) := by
  refine ⟨fun k hk => (nomatch hk), fun n script hn => ?_⟩
  have hn' : ({} : Std.TreeMap String Owner).get? n = some (.script script) := hn
  rw [NameMap.get?_empty] at hn'
  cases hn'

/-- A new host has no commands. -/
theorem commandsLoaded_new (guest : γ) (policy : DoubleLoad) (bundles : BundleFolder)
    (files : FileTree) (now : Timestamp) (records : Array Record) :
    CommandsLoaded ({ guest, policy, bundles, files, now, records } : Host γ α) := by
  intro n c hc
  have hc' : ({} : Std.TreeMap String Command).get? n = some c := hc
  rw [NameMap.get?_empty] at hc'
  cases hc'

/-- Loaded scripts own everything after a run, if they did before and whatever was acquired was acquired for
scripts that lived. -/
theorem execAll_ownersLoaded (hg : g.KeepsToApi) (ops : List (Operation α))
    (hneutral : ∀ op ∈ ops, op.IsNeutral) (h₀ : Orderly none h) (hsettled : Settled h)
    (hcommands : CommandsLoaded h) (howners : OwnersLive h)
    (hlive : ∀ st ∈ runStints g ops h, st.IsLive) : OwnersLoaded (execAll g ops h) := by
  obtain ⟨hrun, horder⟩ := execAll_accounted hg ops hneutral h₀
  exact (hrun.owners hsettled hlive howners).loaded (hrun.commands hcommands) horder
    (hrun.settled hsettled)

end Host
end ScriptHost
