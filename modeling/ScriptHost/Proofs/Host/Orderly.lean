import ScriptHost.Proofs.Commands
import ScriptHost.Proofs.Host.Api
import ScriptHost.Proofs.Host.Tasks
import ScriptHost.Proofs.SharedObjects

/-!
# Orderly hosts

`Orderly flying h` is the invariant of a host: its scheduler and its runner agree, its stores are in step, and
every loaded script has its environment with a control object of its own. It is kept by everything that guest
code can do (`Act.perform_orderly`), also while a task is firing.
-/

namespace ScriptHost
namespace Host

open Scheduler

variable {γ α : Type} {h h' : Host γ α} {flying : Option (ℕ × Submission α)}

/-- The invariant of a host; `flying` is the task that is firing, if one is. -/
structure Orderly (flying : Option (ℕ × Submission α)) (h : Host γ α) : Prop where
  tasks : Agree flying h.runner h.scheduler
  objects : h.objects.InStep
  commands : h.commands.Keyed
  loaded : ∀ name, h.loaded.get? name = (h.environments.get? name).map fun _ => true
  environment : ∀ name env, h.environments.get? name = some env →
    env.name = name ∧ ∃ c, h.control? env.control = some c ∧ c.name = name

/-- What guest code cannot change: the books of the host, and whose a control object is. -/
structure KeepsBooks (h h' : Host γ α) : Prop where
  commands : h'.commands = h.commands
  loaded : h'.loaded = h.loaded
  environments : h'.environments = h.environments
  phases : h'.phases = h.phases
  policy : h'.policy = h.policy
  bundles : h'.bundles = h.bundles
  files : h'.files = h.files
  now : h'.now = h.now
  control : ∀ number c, h.control? number = some c →
    ∃ c', h'.control? number = some c' ∧ c'.name = c.name

/-- The other parts of a host are not its books. -/
theorem keepsBooks_with (guest : γ) (runner : TickRunner (Submission α)) (scheduler : Scheduler α)
    (objects : SharedObjects α) (records : Array Record) :
    KeepsBooks h { h with guest, runner, scheduler, objects, records } :=
  ⟨rfl, rfl, rfl, rfl, rfl, rfl, rfl, rfl, fun _ c hc => ⟨c, hc, rfl⟩⟩

theorem KeepsBooks.refl (h : Host γ α) : KeepsBooks h h := keepsBooks_with _ _ _ _ _

theorem KeepsBooks.trans {h'' : Host γ α} (h₁ : KeepsBooks h h') (h₂ : KeepsBooks h' h'') :
    KeepsBooks h h'' where
  commands := h₂.commands.trans h₁.commands
  loaded := h₂.loaded.trans h₁.loaded
  environments := h₂.environments.trans h₁.environments
  phases := h₂.phases.trans h₁.phases
  policy := h₂.policy.trans h₁.policy
  bundles := h₂.bundles.trans h₁.bundles
  files := h₂.files.trans h₁.files
  now := h₂.now.trans h₁.now
  control number c hc := by
    obtain ⟨c', hc', hname'⟩ := h₁.control number c hc
    obtain ⟨c'', hc'', hname''⟩ := h₂.control number c' hc'
    exact ⟨c'', hc'', hname''.trans hname'⟩

/-- While the books are kept, order is a matter of tasks and objects. -/
theorem Orderly.of_keepsBooks (h₀ : Orderly flying h) (hbooks : KeepsBooks h h')
    {flying' : Option (ℕ × Submission α)} (htasks : Agree flying' h'.runner h'.scheduler)
    (hobjects : h'.objects.InStep) : Orderly flying' h' where
  tasks := htasks
  objects := hobjects
  commands := hbooks.commands ▸ h₀.commands
  loaded name := by
    rw [hbooks.loaded, hbooks.environments]
    exact h₀.loaded name
  environment name env henv := by
    rw [hbooks.environments] at henv
    obtain ⟨hname, c, hc, hcname⟩ := h₀.environment name env henv
    obtain ⟨c', hc', hname'⟩ := hbooks.control _ c hc
    exact ⟨hname, c', hc', hname'.trans hcname⟩

/-- The scripts that are loaded are those that have environments. -/
theorem Orderly.isLoaded_eq (h₀ : Orderly flying h) (name : String) :
    h.isLoaded name = (h.environment? name).isSome := by
  rw [isLoaded, h₀.loaded, environment?]
  cases h.environments.get? name <;> rfl

/-- A loaded script has its environment. -/
theorem Orderly.exists_environment (h₀ : Orderly flying h) {name : String}
    (hloaded : h.isLoaded name = true) : ∃ env, h.environment? name = some env := by
  rw [h₀.isLoaded_eq] at hloaded
  exact Option.isSome_iff_exists.mp hloaded

theorem Orderly.isLoaded_of_environment (h₀ : Orderly flying h) {name : String} {env : Environment α}
    (henv : h.environment? name = some env) : h.isLoaded name = true := by
  rw [h₀.isLoaded_eq, henv]
  rfl

/-! ## Control objects -/

theorem control?_modify (number m : ℕ) (f : Control α → Control α) :
    ({ h with controls := h.controls.modify number f } : Host γ α).control? m =
      if number = m then (h.control? m).map f else h.control? m := by
  unfold control?
  exact Array.getElem?_modify

theorem keepsBooks_changeControl (number : ℕ) (f : Control α → Control α)
    (hf : ∀ c, (f c).name = c.name) :
    KeepsBooks h { h with controls := h.controls.modify number f } := by
  refine ⟨rfl, rfl, rfl, rfl, rfl, rfl, rfl, rfl, fun m c hc => ?_⟩
  rw [control?_modify, hc]
  split
  · exact ⟨f c, rfl, hf c⟩
  · exact ⟨c, rfl, rfl⟩

/-! ## Shared objects -/

theorem logAll_eq (rs : List Record) :
    ∃ records, logAll rs h = ((), { h with records := records }) := by
  induction rs generalizing h with
  | nil => exact ⟨h.records, rfl⟩
  | cons r rs ih => exact ih (h := { h with records := h.records.push r })

open SharedObjects in
theorem share_eq (owner : Owner) (name : String) (value : Option α) :
    ∃ objects records, Change h.objects owner name objects ∧
      (share owner name value h).2 = { h with objects := objects, records := records } := by
  rw [share, read_bind]
  cases hregister : h.objects.register owner name value with
  | error e => exact ⟨h.objects, h.records, .same, rfl⟩
  | ok result =>
    obtain ⟨rs, objects⟩ := result
    obtain ⟨records, hlog⟩ := logAll_eq (h := { h with objects := objects }) rs
    exact ⟨objects, records, register_change hregister, congrArg Prod.snd hlog⟩

open SharedObjects in
theorem unshare_eq (owner : Owner) (name : String) :
    ∃ objects, Change h.objects owner name objects ∧
      (unshare owner name h).2 = { h with objects := objects } := by
  rw [unshare, read_bind]
  cases hunregister : h.objects.unregister owner name with
  | error e => exact ⟨h.objects, .same, rfl⟩
  | ok result =>
    obtain ⟨found, objects⟩ := result
    exact ⟨objects, unregister_change hunregister, rfl⟩

end Host

/-! ## Acts -/

namespace Act

open Host Scheduler

variable {γ α : Type} {h : Host γ α} {flying : Option (ℕ × Submission α)}

/-- Guest code keeps a host in order, and its books as they are. -/
theorem perform_orderly (act : Act γ α) (h₀ : Orderly flying h) :
    Orderly flying (act.perform h) ∧ KeepsBooks h (act.perform h) := by
  have hkeeps : ∀ h' : Host γ α, KeepsBooks h h' → Agree flying h'.runner h'.scheduler →
      h'.objects.InStep → Orderly flying h' ∧ KeepsBooks h h' := fun h' hbooks htasks hobjects =>
    ⟨h₀.of_keepsBooks hbooks htasks hobjects, hbooks⟩
  cases act with
  | think state => exact hkeeps _ (keepsBooks_with _ _ _ _ _) h₀.tasks h₀.objects
  | report record => exact hkeeps _ (keepsBooks_with _ _ _ _ _) h₀.tasks h₀.objects
  | onLoad number hook =>
    exact hkeeps _ (keepsBooks_changeControl number _ fun _ => rfl) h₀.tasks h₀.objects
  | onUnload number hook =>
    exact hkeeps _ (keepsBooks_changeControl number _ fun _ => rfl) h₀.tasks h₀.objects
  | declare number command =>
    exact hkeeps _ (keepsBooks_changeControl number _ fun _ => rfl) h₀.tasks h₀.objects
  | share number object value =>
    obtain ⟨objects, records, hchange, heq⟩ :=
      share_eq (h := h) (.script (h.controlName number)) object value
    rw [perform, heq]
    exact hkeeps _ (keepsBooks_with _ _ _ _ _) h₀.tasks (hchange.inStep h₀.objects)
  | unshare number object =>
    obtain ⟨objects, hchange, heq⟩ := unshare_eq (h := h) (.script (h.controlName number)) object
    rw [perform, heq]
    exact hkeeps _ (keepsBooks_with _ _ _ _ _) h₀.tasks (hchange.inStep h₀.objects)
  | schedule script callable lane mode =>
    obtain ⟨record, heq⟩ := schedule_eq h₀.tasks.balances script callable lane mode
    rw [perform, heq]
    exact hkeeps _ (keepsBooks_with _ _ _ _ _) (h₀.tasks.submit script callable lane mode) h₀.objects
  | cancel script id =>
    rw [perform, cancelTask_eq h₀.tasks.balances]
    cases hother : h.scheduler.ownedByOther script id with
    | true => exact ⟨h₀, KeepsBooks.refl h⟩
    | false => exact hkeeps _ (keepsBooks_with _ _ _ _ _) (h₀.tasks.cancel hother) h₀.objects

theorem performAll_orderly (acts : List (Act γ α)) (h₀ : Orderly flying h) :
    Orderly flying (performAll acts h) ∧ KeepsBooks h (performAll acts h) := by
  induction acts generalizing h with
  | nil => exact ⟨h₀, KeepsBooks.refl h⟩
  | cons act acts ih =>
    obtain ⟨hact, hbooks⟩ := act.perform_orderly h₀
    obtain ⟨hacts, hbooks'⟩ := ih hact
    exact ⟨hacts, hbooks.trans hbooks'⟩

end Act
end ScriptHost
