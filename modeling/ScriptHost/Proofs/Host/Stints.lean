import ScriptHost.Proofs.Host.Steps

/-!
# When guest code is at work

An operation of the host calls the guest at certain moments: for hooks, for a body, for a task whose turn has
come, for the handler of a command. Each call is a stint of the guest. What guest code may do to the host it does
in its stints, so that a condition on them is a condition on all guest code that takes part in a run.

* `Operation.stints`: the stints of an operation, in order, each with the host as the guest found it and as the
  guest left it.
* `runStints`: the stints of a run, and `execAll`: the host at its end.
* `runHooks_keeps`, `afterSource_keeps`: what every stint keeps is kept while hooks run, and while a body does.
-/

namespace ScriptHost
namespace Host

open Scheduler

variable {γ α : Type}

/-- A stretch of time in which the guest is at work: the host at its beginning and at its end. -/
structure Stint (γ α : Type) where
  before : Host γ α
  after : Host γ α

/-! ## Hooks -/

/-- The stints of hooks that are called one after the other. -/
def hookStints (g : Guest γ α) (name kind : String) : List α → Host γ α → List (Stint γ α)
  | [], _ => []
  | hook :: hooks, h =>
    ⟨h, (g.run hook h).2⟩ :: hookStints g name kind hooks (runHooks g name kind [hook] h).2

/-- The load hooks of an environment's control object. -/
def loadHooks (h : Host γ α) (env : Environment α) : List α :=
  ((h.control? env.control).map Control.loadHooks).getD []

/-! ## Unloading -/

/-- The stints of an unload: its hooks. -/
def unloadStints (g : Guest γ α) (name : String) (h : Host γ α) : List (Stint γ α) :=
  match h.environment? name, h.isLoaded name with
  | some env, true =>
    hookStints g name "unload" (h.unloadHooks env) (setPhase name (some .unloading) h).2
  | _, _ => []

/-- The stints of making room for a load: those of the unload, if an instance is replaced. -/
def makeRoomStints (g : Guest γ α) (name : String) (h : Host γ α) : List (Stint γ α) :=
  if h.isLoaded name then
    match h.policy with
    | .reject => []
    | .reload =>
      unloadStints g name
        ((log (lifeRecord .info s!"Script '{name}' is already loaded, replacing it") :
          HostM γ α Unit) h).2
  else []

section

variable {g : Guest γ α} {h : Host γ α} {name : String}

theorem unloadStints_of_not_loaded (hloaded : h.isLoaded name = false) : unloadStints g name h = [] := by
  rw [unloadStints, hloaded]
  cases h.environment? name <;> rfl

theorem unloadStints_of_loaded {env : Environment α} (henv : h.environment? name = some env)
    (hloaded : h.isLoaded name = true) : unloadStints g name h =
      hookStints g name "unload" (h.unloadHooks env) (setPhase name (some .unloading) h).2 := by
  rw [unloadStints, henv, hloaded]

theorem makeRoomStints_of_reload (hloaded : h.isLoaded name = true) (hpolicy : h.policy = .reload) :
    makeRoomStints g name h = unloadStints g name ((log (lifeRecord .info
      s!"Script '{name}' is already loaded, replacing it") : HostM γ α Unit) h).2 := by
  rw [makeRoomStints, if_pos hloaded, hpolicy]

end

/-! ## Loading -/

/-- The host with a control object for a new environment. -/
def withControl (name : String) (origin : Origin) (h : Host γ α) : Host γ α :=
  { h with controls := h.controls.push { name, folder := origin.folder? } }

/-- The stint in which the globals of a new environment are made. -/
def globalsStint (g : Guest γ α) (name : String) (origin : Origin) (h : Host γ α) : Stint γ α :=
  ⟨h.withControl name origin,
    (g.createGlobals name origin.folder? h.controls.size (h.withControl name origin)).2⟩

/-- The stints of running a source: it is compiled, and its body is called. -/
def sourceStints (g : Guest γ α) (name : String) (globals : α) (source : String) (h : Host γ α) :
    List (Stint γ α) :=
  ⟨h, (g.compile name globals source h).2⟩ ::
    match (g.compile name globals source h).1 with
    | .error _ => []
    | .ok body =>
      [⟨(g.compile name globals source h).2, (g.run body (g.compile name globals source h).2).2⟩]

/-- The stints of running the body of a script in new surroundings. -/
def instantiateStints (g : Guest γ α) (name : String) (origin : Origin) (source : String)
    (h : Host γ α) : List (Stint γ α) :=
  globalsStint g name origin h ::
    sourceStints g name (createEnvironment g name origin h).1.globals source
      (createEnvironment g name origin h).2

/-- The stints of entering a script among the loaded ones: its load hooks. -/
def enterStints (g : Guest γ α) (name : String) (env : Environment α) (h : Host γ α) :
    List (Stint γ α) :=
  let published := (publish name (h.entered name env)).2
  hookStints g name "load" (published.loadHooks env) published

/-- A script that enters publishes its commands, before its load hooks run and after. -/
theorem enter_eq (g : Guest γ α) (name : String) (env : Environment α) (h : Host γ α) :
    ∃ records, (enter g name env h).2 =
      { (publish name (runHooks g name "load"
          ((publish name (h.entered name env)).2.loadHooks env)
          (publish name (h.entered name env)).2).2).2 with records := records } := by
  have hchange : (change (fun h => { h with
      loaded := h.loaded.insert name true
      environments := h.environments.insert name env }) : HostM γ α Unit) h =
        ((), h.entered name env) := rfl
  have hhooks : ∀ h' : Host γ α,
      ((h'.control? env.control).map Control.loadHooks).getD [] = h'.loadHooks env := fun _ => rfl
  unfold enter
  rw [bind_run, hchange, bind_run, read_bind, hhooks, bind_run, bind_run, log_run]
  dsimp only
  exact ⟨_, rfl⟩

theorem bringUp_of_ok {g : Guest γ α} {name : String} {origin : Origin} {source : String}
    {h h' : Host γ α} {env : Environment α}
    (hok : instantiate g name origin source (setPhase name (some .loading) h).2 = (.ok env, h')) :
    bringUp g name origin source h = (.ok (), (enter g name env (setPhase name none h').2).2) := by
  unfold bringUp
  rw [bind_run, bind_run, hok]
  rfl

theorem bringUp_of_error {g : Guest γ α} {name : String} {origin : Origin} {source : String}
    {h h' : Host γ α} {e : HostError}
    (herror : instantiate g name origin source (setPhase name (some .loading) h).2 = (.error e, h')) :
    ∃ records, bringUp g name origin source h =
      (.error e, { (setPhase name none h').2 with records := records }) := by
  unfold bringUp
  rw [bind_run, bind_run, herror]
  exact ⟨_, rfl⟩

/-- The stints of loading a script that is not loaded. -/
def bringUpStints (g : Guest γ α) (name : String) (origin : Origin) (source : String)
    (h : Host γ α) : List (Stint γ α) :=
  let begun := (setPhase name (some .loading) h).2
  let instantiated := instantiate g name origin source begun
  instantiateStints g name origin source begun ++
    match instantiated.1 with
    | .error _ => []
    | .ok env => enterStints g name env (setPhase name none instantiated.2).2

/-- The stints of loading a source of some origin. -/
def loadFromStints (g : Guest γ α) (name : String) (origin : Origin) (source : String)
    (h : Host γ α) : List (Stint γ α) :=
  makeRoomStints g name h ++
    match (makeRoom g name h).1 with
    | .error _ => []
    | .ok () => bringUpStints g name origin source (makeRoom g name h).2

/-- The stints of loading a source as a script. -/
def loadStints (g : Guest γ α) (source name : String) (h : Host γ α) : List (Stint γ α) :=
  if isScriptName name then loadFromStints g name (.inline source) source h else []

/-- The stints of loading the entry point of a bundle. -/
def loadBundleStints (g : Guest γ α) (name : String) (h : Host γ α) : List (Stint γ α) :=
  if isScriptName name then
    match h.bundles.read h.files name with
    | .error _ => []
    | .ok entry => loadFromStints g name (.bundle entry.folder) entry.source h
  else []

/-- Load a script again from its origin, once it is unloaded. -/
def loadAgain (g : Guest γ α) (name : String) : Origin → HostM γ α (Except HostError Unit)
  | .bundle _ => loadBundle g name
  | .inline source => loadFrom g name (.inline source) source

/-- The stints of loading a script again from its origin. -/
def loadAgainStints (g : Guest γ α) (name : String) : Origin → Host γ α → List (Stint γ α)
  | .bundle _ => loadBundleStints g name
  | .inline source => loadFromStints g name (.inline source) source

/-- The stints of unloading a script and loading it again. -/
def reloadStints (g : Guest γ α) (name : String) (h : Host γ α) : List (Stint γ α) :=
  match h.environment? name with
  | none => []
  | some env =>
    unloadStints g name h ++
      match (unload g name h).1 with
      | .error _ => []
      | .ok () => loadAgainStints g name env.origin (unload g name h).2

theorem reload_eq (g : Guest γ α) (name : String) :
    reload g name = (do
      match (← read).environment? name with
      | none => pure (.error (.notLoaded name))
      | some env =>
        match ← unload g name with
        | .error e => pure (.error e)
        | .ok () => loadAgain g name env.origin) := by
  unfold reload
  refine congrArg (read >>= ·) (funext fun h => ?_)
  cases h.environment? name with
  | none => rfl
  | some env =>
    refine congrArg (unload g name >>= ·) (funext fun answer => ?_)
    cases answer with
    | error e => rfl
    | ok _ => cases horigin : env.origin <;> simp only [loadAgain]

/-- The stints of doing something for each of several scripts. -/
def scriptStints (act : String → HostM γ α (Except HostError Unit))
    (stints : String → Host γ α → List (Stint γ α)) : List String → Host γ α → List (Stint γ α)
  | [], _ => []
  | name :: names, h => stints name h ++ scriptStints act stints names (act name h).2

/-! ## Ticks -/

/-- The stint of a task whose turn has come. -/
def fireStints (g : Guest γ α) (task : Submission α) (h : Host γ α) : List (Stint γ α) :=
  match h.scheduler.carried? task with
  | some callable => [⟨h, (g.run callable h).2⟩]
  | none => []

/-- The stints of the listed tasks that are still in the queue. -/
def fireAllStints (g : Guest γ α) (now : ℕ) : List ℕ → Host γ α → List (Stint γ α)
  | [], _ => []
  | id :: ids, h =>
    match h.runner.task? id with
    | none => fireAllStints g now ids h
    | some task =>
      let taken := { h with runner := h.runner.take id }
      fireStints g task taken ++
        fireAllStints g now ids ((fire (α := α) g.run task taken).2.settle now id task)

/-- The stints of a tick. -/
def tickStints (g : Guest γ α) (h : Host γ α) : List (Stint γ α) :=
  fireAllStints g h.atDawn.runner.now h.atDawn.runner.dueIds h.atDawn

/-! ## Commands and variables -/

/-- The stint of a published command: its handler. -/
def dispatchStints (g : Guest γ α) (name : String) (arguments : List String) (h : Host γ α) :
    List (Stint γ α) :=
  match h.findCommand name with
  | none => []
  | some (script, command) =>
    let logged := ((log ⟨.debug, "luna::registry::manager",
      s!"Dispatching command '{name}' to script '{script}'"⟩ : HostM γ α Unit) h).2
    [⟨logged, (g.call command.handler (arguments.map g.ofText) logged).2⟩]

/-- The stint of asking what a path means to a script. -/
def inspectStints (g : Guest γ α) (script path : String) (h : Host γ α) : List (Stint γ α) :=
  match h.environment? script with
  | none => []
  | some env => [⟨h, (g.readVariable env.globals path h).2⟩]

/-! ## Operations -/

/-- The stints of an operation. What the owner of the host does with its parts needs no guest. -/
def Operation.stints (g : Guest γ α) : Operation α → Host γ α → List (Stint γ α)
  | .load source name, h => loadStints g source name h
  | .loadBundle name, h => loadBundleStints g name h
  | .unload name, h => unloadStints g name h
  | .reload name, h => reloadStints g name h
  | .loadAll, h =>
    match h.bundles.list h.files with
    | .error _ => []
    | .ok names => scriptStints (Host.loadBundle g) (loadBundleStints g) names h
  | .unloadAll, h => scriptStints (Host.unload g) (unloadStints g) h.loadedScripts h
  | .dispatch name arguments, h => dispatchStints g name arguments h
  | .inspect script path, h => inspectStints g script path h
  | .tick, h => tickStints g h
  | .call f arguments, h => [⟨h, (g.call f arguments h).2⟩]
  | _, _ => []

/-- The host after a number of operations. -/
def execAll (g : Guest γ α) (ops : List (Operation α)) (h : Host γ α) : Host γ α :=
  ops.foldl (fun h op => op.exec g h) h

/-- The stints of a number of operations. -/
def runStints (g : Guest γ α) : List (Operation α) → Host γ α → List (Stint γ α)
  | [], _ => []
  | op :: ops, h => op.stints g h ++ runStints g ops (op.exec g h)

/-! ## What stints keep -/

section

variable {g : Guest γ α} {h : Host γ α} {P : Host γ α → Prop}

theorem execAll_orderly (hg : g.KeepsToApi) (ops : List (Operation α)) (h₀ : Orderly none h) :
    Orderly none (execAll g ops h) := by
  induction ops generalizing h with
  | nil => exact h₀
  | cons op ops ih => exact ih (op.exec_orderly hg h₀)

/-- What each of the stints of hooks keeps is kept while they run; what is logged must not matter. -/
theorem runHooks_keeps (hg : g.KeepsToApi) (hlog : ∀ h records, P h → P { h with records := records })
    (name kind : String) (hooks : List α) (h₀ : Orderly none h)
    (hstints : ∀ st ∈ hookStints g name kind hooks h, Orderly none st.before → P st.before → P st.after)
    (hstart : P h) : P (runHooks g name kind hooks h).2 := by
  induction hooks generalizing h with
  | nil => exact hstart
  | cons hook hooks ih =>
    obtain ⟨hfirst, hrest⟩ := List.forall_mem_cons.mp hstints
    have hnext := (Modest.runHooks hg name kind [hook] none h h₀).1
    have hone : P (runHooks g name kind [hook] h).2 := by
      obtain ⟨records, heq⟩ := runHooks_one g name kind hook h
      rw [heq]
      exact hlog _ records (hfirst h₀ hstart)
    rw [runHooks_cons]
    exact ih hnext hrest hone

/-- What each of the stints of a source keeps is kept while it runs. -/
theorem runSource_keeps (hg : g.KeepsToApi) (name : String) (globals : α) (source : String)
    (h₀ : Orderly none h)
    (hstints : ∀ st ∈ sourceStints g name globals source h,
      Orderly none st.before → P st.before → P st.after)
    (hstart : P h) : P (runSource g name globals source h).2 := by
  obtain ⟨hcompile, hbody⟩ := List.forall_mem_cons.mp hstints
  have hcompiled : P (g.compile name globals source h).2 := hcompile h₀ hstart
  have horder := (Modest.performAll (hg.compile name globals source) none h h₀).1
  rw [runSource, bind_run]
  cases hresult : (g.compile name globals source h).1 with
  | error e => exact hcompiled
  | ok body =>
    rw [hresult] at hbody
    exact hbody _ List.mem_cons_self horder hcompiled

/-- What each of the stints of a body keeps is kept while it runs; a new control object and what is logged must
not matter. -/
theorem afterSource_keeps (hg : g.KeepsToApi)
    (hlog : ∀ h records, P h → P { h with records := records }) (name : String) (origin : Origin)
    (source : String) (h₀ : Orderly none h) (hpush : P h → P (h.withControl name origin))
    (hstints : ∀ st ∈ instantiateStints g name origin source h,
      Orderly none st.before → P st.before → P st.after)
    (hstart : P h) : P (afterSource g name origin source h) := by
  obtain ⟨hglobals, hsource⟩ := List.forall_mem_cons.mp hstints
  have hpushed : Orderly none (h.withControl name origin) :=
    (Modest.pushControl { name, folder := origin.folder? } none h h₀).1
  have hcreated : P (createEnvironment g name origin h).2 :=
    hlog _ _ (hglobals hpushed (hpush hstart))
  have horder := ((createEnvironment_spec hg name origin).1 none h h₀).1
  exact runSource_keeps hg name _ source horder hsource hcreated

end

end Host
end ScriptHost
