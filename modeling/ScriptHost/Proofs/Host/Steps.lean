import ScriptHost.Proofs.Host.Unload

/-!
# The steps of a script's life

What each step of loading and unloading comes to, besides what it logs: one change of the host, apart from the
work of the guest.
-/

namespace ScriptHost
namespace Host

open Scheduler

variable {γ α β : Type} {g : Guest γ α} {h : Host γ α} {flying : Option (ℕ × Submission α)}

/-! ## Shared objects -/

theorem share_objects (owner : Owner) (name : String) (value : Option α) :
    (share owner name value h).2.objects =
      match h.objects.register owner name value with
      | .ok (_, objects) => objects
      | .error _ => h.objects := by
  rw [share, read_bind]
  cases h.objects.register owner name value with
  | error e => rfl
  | ok result =>
    obtain ⟨records, hlog⟩ := logAll_eq (h := { h with objects := result.2 }) result.1
    exact congrArg (fun x => x.2.objects) hlog

theorem unshare_objects (owner : Owner) (name : String) :
    (unshare owner name h).2.objects =
      match h.objects.unregister owner name with
      | .ok (_, objects) => objects
      | .error _ => h.objects := by
  rw [unshare, read_bind]
  cases h.objects.unregister owner name <;> rfl

/-! ## Unloading -/

theorem unload_eq_of_not_loaded {name : String} (hloaded : h.isLoaded name = false) :
    unload g name h = (.error (.notLoaded name), h) := by
  rw [unload, read_bind, hloaded]
  cases h.environment? name <;> rfl

/-- A loaded script is unloaded, whatever its hooks do. -/
theorem Orderly.unload_eq (hg : g.KeepsToApi) (h₀ : Orderly none h) {name : String}
    (hloaded : h.isLoaded name = true) : ∃ env records, h.environment? name = some env ∧
      unload g name h =
        (.ok (), { (afterHooks g name env h).without name env.control with records := records }) := by
  obtain ⟨env, henv⟩ := h₀.exists_environment hloaded
  have hstart := Tidy.setPhase name (some .unloading) h h₀
  have horder := (Modest.runHooks hg name "unload" (h.unloadHooks env) none _ hstart).1
  obtain ⟨records, heq⟩ := Host.unload_eq henv hloaded horder.tasks.balances
  exact ⟨env, records, henv, heq⟩

/-- The hooks of a script leave its host in order, and the books alone. -/
theorem afterHooks_orderly (hg : g.KeepsToApi) (name : String) (env : Environment α)
    (h₀ : Orderly none h) : Orderly none (afterHooks g name env h) ∧
      KeepsBooks (setPhase name (some .unloading) h).2 (afterHooks g name env h) :=
  Modest.runHooks hg name "unload" (h.unloadHooks env) none _ (Tidy.setPhase _ _ h h₀)

/-! ## Publishing -/

/-- What is published is published for the script. -/
theorem publishAll_eq (name : String) (declared : List (DeclaredCommand α)) (h : Host γ α) :
    ∃ commands records,
      publishAll name declared h = ((), { h with commands := commands, records := records }) ∧
      ∀ n c, commands.get? n = some c → h.commands.get? n = some c ∨ c.owner = name := by
  induction declared generalizing h with
  | nil => exact ⟨h.commands, h.records, rfl, fun n c hc => .inl hc⟩
  | cons d ds ih =>
    rw [publishAll, read_bind]
    cases hregister : h.commands.register ⟨d.name, name, d.description⟩ with
    | error e =>
      obtain ⟨commands, records, heq, howned⟩ := ih ((log (scriptRecord .warn name
        s!"command '{d.name}' not registered: {e.message}") : HostM γ α Unit) h).2
      exact ⟨commands, records, heq, howned⟩
    | ok table =>
      obtain ⟨commands, records, heq, howned⟩ := ih { h with commands := table }
      refine ⟨commands, records, heq, fun n c hc => ?_⟩
      rcases howned n c hc with hold | hnew
      · refine (CommandTable.get?_of_register hregister hold).imp_right fun hc' => ?_
        rw [hc']
      · exact .inr hnew

theorem publish_eq (name : String) (h : Host γ α) :
    ∃ commands records,
      publish name h = ((), { h with commands := commands, records := records }) ∧
      ∀ n c, commands.get? n = some c → h.commands.get? n = some c ∨ c.owner = name := by
  rw [publish, read_bind]
  cases h.environment? name with
  | none => exact ⟨h.commands, h.records, rfl, fun n c hc => .inl hc⟩
  | some env =>
    obtain ⟨commands, records, heq, howned⟩ := publishAll_eq name (h.declared env) h
    obtain ⟨records', hsync⟩ := syncCommands_eq { h with commands := commands, records := records }
    refine ⟨commands.sync.2, records', ?_, fun n c hc => howned n c ?_⟩
    · dsimp only
      rw [bind_run, heq]
      exact hsync
    · rw [CommandTable.get?_sync] at hc
      exact hc

/-! ## Making room -/

theorem makeRoom_of_not_loaded {name : String} (hloaded : h.isLoaded name = false) :
    makeRoom g name h = (.ok (), h) := by
  unfold makeRoom
  rw [read_bind, hloaded]
  rfl

/-- Under the one policy a loaded instance stands in the way. -/
theorem makeRoom_of_reject {name : String} (hloaded : h.isLoaded name = true)
    (hpolicy : h.policy = .reject) : makeRoom g name h = (.error (.alreadyLoaded name), h) := by
  unfold makeRoom
  rw [read_bind, hloaded, hpolicy]
  rfl

/-- Under the other it is unloaded. -/
theorem makeRoom_of_reload {name : String} (hloaded : h.isLoaded name = true)
    (hpolicy : h.policy = .reload) :
    makeRoom g name h = unload g name ((log (lifeRecord .info
      s!"Script '{name}' is already loaded, replacing it") : HostM γ α Unit) h).2 := by
  unfold makeRoom
  rw [read_bind, hloaded, hpolicy]
  rfl

/-! ## Loading -/

/-- A host without what the body of a script acquired, besides what it logs. -/
def discarded (name : String) (control : ℕ) (h : Host γ α) : Host γ α :=
  { h with
    runner := cancelEach h.runner ((h.scheduler.handlesOf name).map TaskHandle.task)
    scheduler := h.scheduler.dropAll name
    objects := (h.objects.releaseOwnedBy name).2
    controls := h.controls.modify control Control.clear }

theorem discard_eq (hbalances : Balances [] h.scheduler) (env : Environment α) :
    ∃ records, discard env h =
      ((), { h.discarded env.name env.control with records := records }) := by
  obtain ⟨records, hcancel⟩ := cancelAllTasks_eq (h := (changeControl env.control Control.clear h).2)
    hbalances env.name
  unfold discard
  rw [bind_run, bind_run, hcancel]
  exact ⟨_, rfl⟩

/-- The host when a source has been run in new surroundings. -/
def afterSource (g : Guest γ α) (name : String) (origin : Origin) (source : String)
    (h : Host γ α) : Host γ α :=
  (runSource g name (createEnvironment g name origin h).1.globals source
    (createEnvironment g name origin h).2).2

/-- A source that is compiled, and whose body comes to its end, leaves an environment. -/
theorem instantiate_of_ok {name source : String} {origin : Origin} {env : Environment α} {body : α}
    {h₁ h₂ h₃ : Host γ α} (hcreated : createEnvironment g name origin h = (env, h₁))
    (hcompiled : g.compile name env.globals source h₁ = (.ok body, h₂)) (hran : g.run body h₂ = (.ok (), h₃)) :
    instantiate g name origin source h = (.ok env, h₃) := by
  rw [instantiate_eq, bind_run, hcreated, bind_run, runSource, bind_run, hcompiled]
  show keepOrDiscard name env (g.run body h₂).1 (g.run body h₂).2 = _
  rw [hran]
  rfl

/-- A body leaves its host in order, and the books alone. -/
theorem afterSource_orderly (hg : g.KeepsToApi) (name : String) (origin : Origin) (source : String)
    (h₀ : Orderly none h) : Orderly none (afterSource g name origin source h) ∧
      KeepsBooks h (afterSource g name origin source h) := by
  obtain ⟨hcreated, hbooks⟩ := (createEnvironment_spec hg name origin).1 none h h₀
  obtain ⟨hran, hbooks'⟩ := Modest.runSource hg name (createEnvironment g name origin h).1.globals
    source none _ hcreated
  exact ⟨hran, hbooks.trans hbooks'⟩

/-- The control object that was made for a body acts in the script's name when the body has run. -/
theorem afterSource_control (hg : g.KeepsToApi) (name : String) (origin : Origin) (source : String)
    (h₀ : Orderly none h) :
    ControlOf name h.controls.size (afterSource g name origin source h) := by
  obtain ⟨hmodest, hmade⟩ := createEnvironment_spec hg name origin
  obtain ⟨_, hcontrol⟩ := hmade none h h₀
  have hcreated : ControlOf name h.controls.size (createEnvironment g name origin h).2 := hcontrol
  exact hcreated.keep (Modest.runSource hg name _ source none _ (hmodest none h h₀).1).2

/-- A body that comes to its end leaves an environment; what a body that fails has acquired is discarded. -/
theorem instantiate_cases (hg : g.KeepsToApi) (name : String) (origin : Origin) (source : String)
    (h₀ : Orderly none h) :
    instantiate g name origin source h =
        (.ok (createEnvironment g name origin h).1, afterSource g name origin source h) ∨
      ∃ e records, instantiate g name origin source h = (.error (.ofGuest name e),
        { (afterSource g name origin source h).discarded name h.controls.size with
          records := records }) := by
  have horder := (afterSource_orderly hg name origin source h₀).1
  rw [instantiate_eq, bind_run, bind_run]
  cases (runSource g name (createEnvironment g name origin h).1.globals source
    (createEnvironment g name origin h).2).1 with
  | ok _ => exact .inl rfl
  | error e =>
    obtain ⟨records, hdiscard⟩ := discard_eq horder.tasks.balances (createEnvironment g name origin h).1
    refine .inr ⟨e, records, ?_⟩
    have hkeep : keepOrDiscard name (createEnvironment g name origin h).1 (.error e)
        (afterSource g name origin source h) = (.error (.ofGuest name e),
          (discard (createEnvironment g name origin h).1 (afterSource g name origin source h)).2) :=
      rfl
    rw [hdiscard] at hkeep
    exact hkeep

end Host
end ScriptHost
