import ScriptHost.Proofs.Host.Modest

/-!
# The life of scripts keeps order

`Tidy x`: a host that is in order between operations is so after `x`. Every operation of a script's life is:
loading, unloading, reloading, on one script or on several, and what is done with loaded scripts.
-/

namespace ScriptHost
namespace Host

open Scheduler

variable {γ α β : Type} {g : Guest γ α}

/-- A host that has entered a script among the loaded ones. -/
def entered (name : String) (env : Environment α) (h : Host γ α) : Host γ α :=
  { h with
    loaded := h.loaded.insert name true
    environments := h.environments.insert name env }

/-- A script enters the books, with an environment that has a control object. -/
theorem Orderly.entered {name : String} {env : Environment α} {h : Host γ α}
    (h₀ : Orderly none h) (hname : env.name = name) (hcontrol : HasControl env h) :
    Orderly none (h.entered name env) := by
  refine ⟨h₀.tasks, h₀.objects, h₀.commands, fun n => ?_, fun n env' henv => ?_⟩
  · show (h.loaded.insert name true).get? n = ((h.environments.insert name env).get? n).map _
    rw [NameMap.get?_insert, NameMap.get?_insert, h₀.loaded]
    split <;> rfl
  · have henv' : (h.environments.insert name env).get? n = some env' := henv
    rw [NameMap.get?_insert] at henv'
    split at henv'
    · rename_i hn
      obtain rfl := Option.some.inj henv'
      exact ⟨hname.trans hn, hcontrol.imp fun c hc => ⟨hc.1, hc.2.trans (hname.trans hn)⟩⟩
    · exact h₀.environment n env' henv'

/-- Load a source for a script that is not loaded. -/
def bringUp (g : Guest γ α) (name : String) (origin : Origin) (source : String) :
    HostM γ α (Except HostError Unit) := do
  setPhase name (some .loading)
  let result ← instantiate g name origin source
  setPhase name none
  match result with
  | .error e =>
    log (lifeRecord .error s!"Failed to load script '{name}': {e.message}")
    pure (.error e)
  | .ok env =>
    enter g name env
    pure (.ok ())

theorem loadFrom_eq (g : Guest γ α) (name : String) (origin : Origin) (source : String) :
    loadFrom g name origin source = (do
      match ← makeRoom g name with
      | .error e => pure (.error e)
      | .ok () => bringUp g name origin source) := rfl

/-- To present the commands is to log what is new of them. -/
theorem syncCommands_eq (h : Host γ α) :
    ∃ records, syncCommands h = ((), { h with commands := h.commands.sync.2, records := records }) :=
  logAll_eq (h := { h with commands := h.commands.sync.2 }) h.commands.sync.1

/-- Order is kept, between operations. -/
def Tidy (x : HostM γ α β) : Prop := ∀ h, Orderly none h → Orderly none (x h).2

theorem Modest.tidy {x : HostM γ α β} (hx : Modest x) : Tidy x := fun h h₀ => (hx none h h₀).1

namespace Tidy

theorem pure (b : β) : Tidy (Pure.pure b : HostM γ α β) := (Modest.pure b).tidy

theorem bind {δ : Type} {x : HostM γ α β} {f : β → HostM γ α δ} (hx : Tidy x)
    (hf : ∀ b, Tidy (f b)) : Tidy (x >>= f) :=
  fun h h₀ => hf (x h).1 (x h).2 (hx h h₀)

theorem read : Tidy (Host.read : HostM γ α (Host γ α)) := Modest.read.tidy

theorem log (r : Record) : Tidy (ScriptHost.log r : HostM γ α Unit) := (Modest.log r).tidy

theorem setPhase (name : String) (phase : Option Phase) :
    Tidy (Host.setPhase name phase : HostM γ α Unit) := fun _ h₀ =>
  ⟨h₀.tasks, h₀.objects, h₀.commands, h₀.loaded, h₀.environment⟩

/-- What is changed are the published commands. -/
theorem setCommands {f : Host γ α → CommandTable} (hf : ∀ h, h.commands.Keyed → (f h).Keyed) :
    Tidy (change fun h => { h with commands := f h } : HostM γ α Unit) := fun h h₀ =>
  ⟨h₀.tasks, h₀.objects, hf h h₀.commands, h₀.loaded, h₀.environment⟩

/-! ## Commands -/

theorem syncCommands : Tidy (Host.syncCommands : HostM γ α Unit) := by
  intro h h₀
  have hsynced : Orderly none { h with commands := h.commands.sync.2 } :=
    ⟨h₀.tasks, h₀.objects, h₀.commands.sync, h₀.loaded, h₀.environment⟩
  exact (Modest.logAll h.commands.sync.1).tidy _ hsynced

theorem withdrawCommands (name : String) : Tidy (Host.withdrawCommands name : HostM γ α Unit) := by
  unfold Host.withdrawCommands
  refine Tidy.bind Tidy.read fun h => ?_
  exact Tidy.bind (Tidy.setCommands fun h' hkeyed => hkeyed.withdraw _) fun _ => Tidy.syncCommands

theorem publishAll (name : String) (commands : List (DeclaredCommand α)) :
    Tidy (Host.publishAll name commands : HostM γ α Unit) := by
  induction commands with
  | nil => exact Tidy.pure ()
  | cons c cs ih =>
    intro h h₀
    rw [Host.publishAll, read_bind]
    cases hregister : h.commands.register ⟨c.name, name, c.description⟩ with
    | ok commands =>
      refine ih { h with commands } ⟨h₀.tasks, h₀.objects, ?_, h₀.loaded, h₀.environment⟩
      exact h₀.commands.register hregister
    | error e => exact ih _ (Tidy.log _ h h₀)

theorem publish (name : String) : Tidy (Host.publish name : HostM γ α Unit) := by
  unfold Host.publish
  refine Tidy.bind Tidy.read fun h => ?_
  cases h.environment? name with
  | none => exact Tidy.pure ()
  | some env => exact Tidy.bind (Tidy.publishAll _ _) fun _ => Tidy.syncCommands

/-! ## Unloading and loading -/

/-- A script leaves the books. -/
theorem leave (name : String) :
    Tidy (change fun h => { h with
      loaded := h.loaded.erase name
      environments := h.environments.erase name } : HostM γ α Unit) := by
  intro h h₀
  refine ⟨h₀.tasks, h₀.objects, h₀.commands, fun n => ?_, fun n env henv => ?_⟩
  · show (h.loaded.erase name).get? n = ((h.environments.erase name).get? n).map _
    rw [NameMap.get?_erase, NameMap.get?_erase, h₀.loaded]
    split <;> rfl
  · have henv' : (h.environments.erase name).get? n = some env := henv
    rw [NameMap.get?_erase] at henv'
    split at henv'
    · cases henv'
    · exact h₀.environment n env henv'

theorem unload (hg : g.KeepsToApi) (name : String) : Tidy (Host.unload g name) := by
  unfold Host.unload
  refine Tidy.bind Tidy.read fun h => ?_
  split
  · refine Tidy.bind (Tidy.setPhase _ _) fun _ => ?_
    refine Tidy.bind (Modest.runHooks hg _ _ _).tidy fun _ => ?_
    refine Tidy.bind (Modest.cancelAllTasks _).tidy fun _ => ?_
    refine Tidy.bind (Tidy.withdrawCommands _) fun _ => ?_
    refine Tidy.bind (Modest.releaseObjects _).tidy fun _ => ?_
    refine Tidy.bind (Modest.changeControl (f := Control.clear) _ fun _ => rfl).tidy fun _ => ?_
    refine Tidy.bind (Tidy.leave _) fun _ => ?_
    refine Tidy.bind (Tidy.setPhase _ _) fun _ => ?_
    exact Tidy.bind (Tidy.log _) fun _ => Tidy.pure _
  · exact Tidy.pure _

theorem enter_orderly (hg : g.KeepsToApi) {name : String} {env : Environment α} {h : Host γ α}
    (h₀ : Orderly none h) (hname : env.name = name) (hcontrol : HasControl env h) :
    Orderly none (Host.enter g name env h).2 := by
  have hrest : Tidy (do
      Host.publish name
      runHooks g name "load" ((((← Host.read).control? env.control).map Control.loadHooks).getD [])
      Host.publish name
      ScriptHost.log (lifeRecord .info s!"Loaded script '{name}'") : HostM γ α Unit) := by
    refine Tidy.bind (Tidy.publish name) fun _ => ?_
    refine Tidy.bind Tidy.read fun _ => ?_
    refine Tidy.bind (Modest.runHooks hg _ _ _).tidy fun _ => ?_
    exact Tidy.bind (Tidy.publish name) fun _ => Tidy.log _
  exact hrest _ (h₀.entered hname hcontrol)

theorem makeRoom (hg : g.KeepsToApi) (name : String) : Tidy (Host.makeRoom g name) := by
  unfold Host.makeRoom
  refine Tidy.bind Tidy.read fun h => ?_
  split
  · split
    · exact Tidy.pure _
    · exact Tidy.bind (Tidy.log _) fun _ => Tidy.unload hg name
  · exact Tidy.pure _

theorem bringUp (hg : g.KeepsToApi) (name : String) (origin : Origin) (source : String) :
    Tidy (Host.bringUp g name origin source) := by
  refine Tidy.bind (Tidy.setPhase _ _) fun _ => ?_
  intro h h₀
  obtain ⟨hmodest, hmade⟩ := instantiate_spec hg name origin source
  have h₁ := Tidy.setPhase name none _ (hmodest.tidy h h₀)
  rw [bind_run, bind_run]
  cases hresult : (instantiate g name origin source h).1 with
  | error e => exact Tidy.bind (Tidy.log _) (fun _ => Tidy.pure _) _ h₁
  | ok env =>
    obtain ⟨hname, hcontrol⟩ := hmade none h env h₀ hresult
    have hentered := enter_orderly hg h₁ hname (hcontrol.setPhase name none)
    dsimp only
    rw [bind_run]
    exact Tidy.pure _ _ hentered

theorem loadFrom (hg : g.KeepsToApi) (name : String) (origin : Origin) (source : String) :
    Tidy (Host.loadFrom g name origin source) := by
  rw [loadFrom_eq]
  refine Tidy.bind (Tidy.makeRoom hg name) fun room => ?_
  cases room with
  | error e => exact Tidy.pure _
  | ok _ => exact Tidy.bringUp hg name origin source

theorem load (hg : g.KeepsToApi) (source name : String) : Tidy (Host.load g source name) := by
  unfold Host.load
  split
  · exact Tidy.loadFrom hg _ _ _
  · exact Tidy.pure _

theorem loadBundle (hg : g.KeepsToApi) (name : String) : Tidy (Host.loadBundle g name) := by
  unfold Host.loadBundle
  split
  · refine Tidy.bind Tidy.read fun h => ?_
    split
    · exact Tidy.pure _
    · exact Tidy.loadFrom hg _ _ _
  · exact Tidy.pure _

theorem reload (hg : g.KeepsToApi) (name : String) : Tidy (Host.reload g name) := by
  unfold Host.reload
  refine Tidy.bind Tidy.read fun h => ?_
  split
  · exact Tidy.pure _
  · refine Tidy.bind (Tidy.unload hg name) fun answer => ?_
    cases answer with
    | error e => exact Tidy.pure _
    | ok _ =>
      dsimp only
      split
      · exact Tidy.loadBundle hg name
      · exact Tidy.loadFrom hg _ _ _

/-! ## Several scripts -/

theorem forScripts {act : String → HostM γ α (Except HostError Unit)} (hact : ∀ name, Tidy (act name))
    (names : List String) : Tidy (Host.forScripts act names) := by
  induction names with
  | nil => exact Tidy.pure _
  | cons name names ih =>
    refine Tidy.bind (hact name) fun answer => ?_
    exact Tidy.bind ih fun _ => Tidy.pure _

theorem loadAll (hg : g.KeepsToApi) : Tidy (Host.loadAll g) := by
  unfold Host.loadAll
  refine Tidy.bind Tidy.read fun h => ?_
  split
  · exact Tidy.pure _
  · exact Tidy.bind (Tidy.forScripts (Tidy.loadBundle hg) _) fun _ => Tidy.pure _

theorem unloadAll (hg : g.KeepsToApi) : Tidy (Host.unloadAll g) := by
  unfold Host.unloadAll
  exact Tidy.bind Tidy.read fun h => Tidy.forScripts (Tidy.unload hg) _

/-! ## Commands and variables -/

theorem dispatch (hg : g.KeepsToApi) (name : String) (arguments : List String) :
    Tidy (Host.dispatch g name arguments) := by
  unfold Host.dispatch
  refine Tidy.bind Tidy.read fun h => ?_
  split
  · exact Tidy.pure _
  · refine Tidy.bind (Tidy.log _) fun _ => ?_
    refine Tidy.bind (Modest.performAll (hg.call _ _)).tidy fun answer => ?_
    cases answer <;> exact Tidy.pure _

theorem inspect (hg : g.KeepsToApi) (script path : String) : Tidy (Host.inspect g script path) := by
  unfold Host.inspect
  refine Tidy.bind Tidy.read fun h => ?_
  split
  · exact Tidy.bind (Modest.performAll (hg.readVariable _ _)).tidy fun _ => Tidy.pure _
  · exact Tidy.bind (Tidy.pure _) fun _ => Tidy.pure _

end Tidy

end Host
end ScriptHost
