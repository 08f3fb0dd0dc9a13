import ScriptHost.Proofs.Host.Journey

/-!
# What lasts

A fact about the tasks of a host lasts if guest code cannot end it, and if nothing ends it that gives out no number
and tracks no new task (`Lasting`). Everything else that the host does is of the latter kind, so that such a fact holds
after each operation (`Lasting.exec`) and whenever guest code is at work meanwhile.

* `Lasting.exec`, `Lasting.execAll`: a fact that lasts holds throughout every operation, and throughout a run.
-/

namespace ScriptHost
namespace Host

open Scheduler

variable {γ α : Type}

/-- What guest code keeps, and whatever gives out no number and tracks no new task. -/
structure Lasting (P : Host γ α → Prop) : Prop where
  acts : ∀ flying h acts, Orderly flying h → P h → P (Act.performAll acts h)
  shrink : ∀ h h' : Host γ α, h'.runner.issued = h.runner.issued →
    h'.scheduler.handles ⊆ h.scheduler.handles → P h → P h'

/-- Something holds at the end, and whenever the guest is put to work on the way there; it finds the host in order. -/
structure Throughout (P : Host γ α → Prop) (stints : List (Stint γ α)) (h : Host γ α) : Prop where
  now : P h
  before : ∀ st ∈ stints, P st.before ∧ ∃ flying, Orderly flying st.before

variable {g : Guest γ α} {h h' : Host γ α} {P : Host γ α → Prop} {stints stints' : List (Stint γ α)}

theorem Throughout.trans (hfirst : Throughout P stints h) (hrest : Throughout P stints' h') :
    Throughout P (stints ++ stints') h' where
  now := hrest.now
  before st hst := (List.mem_append.mp hst).elim (hfirst.before st) (hrest.before st)

theorem Throughout.of_nil (hnow : P h) : Throughout P [] h := ⟨hnow, fun _ hst => nomatch hst⟩

namespace Lasting

/-- What does not change the tasks does not matter. -/
theorem aside (hP : Lasting P) (hp : P h) (hrunner : h'.runner = h.runner)
    (hscheduler : h'.scheduler = h.scheduler) : P h' :=
  hP.shrink h h' (by rw [hrunner]) (by rw [hscheduler]; exact List.Subset.refl _) hp

theorem andAside (hP : Lasting P) (hall : Throughout P stints h) (hrunner : h'.runner = h.runner)
    (hscheduler : h'.scheduler = h.scheduler) : Throughout P stints h' :=
  ⟨hP.aside hall.now hrunner hscheduler, hall.before⟩

/-- A stint of the guest. -/
theorem stint (hP : Lasting P) {flying : Option (ℕ × Submission α)} (h₀ : Orderly flying h)
    (hacts : ∃ acts, h' = Act.performAll acts h) (hp : P h) : Throughout P [⟨h, h'⟩] h' := by
  obtain ⟨acts, rfl⟩ := hacts
  exact ⟨hP.acts flying h acts h₀ hp, fun st hst => List.mem_singleton.mp hst ▸ ⟨hp, flying, h₀⟩⟩

/-! ## Hooks and bodies -/

theorem runHooks (hP : Lasting P) (hg : g.KeepsToApi) (name kind : String) (hooks : List α)
    (h₀ : Orderly none h) (hp : P h) :
    Throughout P (hookStints g name kind hooks h) (Host.runHooks g name kind hooks h).2 := by
  induction hooks generalizing h with
  | nil => exact .of_nil hp
  | cons hook hooks ih =>
    have hnext := (Modest.runHooks hg name kind [hook] none h h₀).1
    have hone : Throughout P [⟨h, (g.run hook h).2⟩] (Host.runHooks g name kind [hook] h).2 := by
      obtain ⟨records, heq⟩ := runHooks_one g name kind hook h
      rw [heq]
      exact hP.andAside (hP.stint h₀ (hg.call hook [] h) hp) rfl rfl
    rw [runHooks_cons]
    exact hone.trans (ih hnext hone.now)

theorem runSource (hP : Lasting P) (hg : g.KeepsToApi) (name : String) (globals : α) (source : String)
    (h₀ : Orderly none h) (hp : P h) :
    Throughout P (sourceStints g name globals source h) (Host.runSource g name globals source h).2 := by
  have hcompile := hP.stint h₀ (hg.compile name globals source h) hp
  have horder := (Modest.performAll (hg.compile name globals source) none h h₀).1
  rw [sourceStints, Host.runSource, bind_run]
  cases (g.compile name globals source h).1 with
  | error e => exact hcompile
  | ok body => exact hcompile.trans (hP.stint horder (hg.call body [] _) hcompile.now)

theorem afterSource (hP : Lasting P) (hg : g.KeepsToApi) (name : String) (origin : Origin) (source : String)
    (h₀ : Orderly none h) (hp : P h) :
    Throughout P (instantiateStints g name origin source h) (Host.afterSource g name origin source h) := by
  have hpushed : Orderly none (h.withControl name origin) :=
    (Modest.pushControl { name, folder := origin.folder? } none h h₀).1
  have hglobals : Throughout P [globalsStint g name origin h] (globalsStint g name origin h).after :=
    hP.stint hpushed (hg.createGlobals name origin.folder? h.controls.size _) (hP.aside hp rfl rfl)
  have hcreated : Throughout P [globalsStint g name origin h] (createEnvironment g name origin h).2 :=
    hP.andAside hglobals rfl rfl
  have horder := ((createEnvironment_spec hg name origin).1 none h h₀).1
  exact hcreated.trans (hP.runSource hg name _ source horder hcreated.now)

/-! ## Unloading -/

/-- The tasks of a script are cancelled, whatever else is done. -/
theorem dropAll (hP : Lasting P) (hp : P h) (name : String) {runner : TickRunner (Submission α)}
    (hissued : runner.issued = h.runner.issued) (hrunner : h'.runner = runner)
    (hscheduler : h'.scheduler = h.scheduler.dropAll name) : P h' := by
  refine hP.shrink h h' (by rw [hrunner, hissued]) ?_ hp
  rw [hscheduler]
  exact fun k hk => (List.mem_filter.mp hk).1

theorem unload (hP : Lasting P) (hg : g.KeepsToApi) (name : String) (h₀ : Orderly none h) (hp : P h) :
    Throughout P (unloadStints g name h) (Host.unload g name h).2 := by
  cases hloaded : h.isLoaded name with
  | false =>
    rw [unload_eq_of_not_loaded hloaded, unloadStints_of_not_loaded hloaded]
    exact .of_nil hp
  | true =>
    obtain ⟨env, records, henv, heq⟩ := h₀.unload_eq hg hloaded
    have hbegun : P (setPhase name (some .unloading) h).2 := hP.aside hp rfl rfl
    have hhooks := hP.runHooks hg name "unload" (h.unloadHooks env)
      (Tidy.setPhase name (some .unloading) h h₀) hbegun
    rw [heq, unloadStints_of_loaded henv hloaded]
    exact ⟨hP.dropAll hhooks.now name (issued_cancelEach _ _) rfl rfl, hhooks.before⟩

/-! ## Loading -/

theorem publish (hP : Lasting P) (name : String) (hp : P h) : P (Host.publish name h).2 := by
  obtain ⟨commands, records, heq, -⟩ := publish_eq name h
  rw [heq]
  exact hP.aside hp rfl rfl

theorem enter (hP : Lasting P) (hg : g.KeepsToApi) {name : String} {env : Environment α}
    (h₀ : Orderly none (h.entered name env)) (hp : P h) :
    Throughout P (enterStints g name env h) (Host.enter g name env h).2 := by
  have hentered : P (h.entered name env) := hP.aside hp rfl rfl
  have hpublished := hP.publish name hentered
  have hhooks := hP.runHooks hg name "load" ((Host.publish name (h.entered name env)).2.loadHooks env)
    (Tidy.publish name _ h₀) hpublished
  obtain ⟨records, heq⟩ := enter_eq g name env h
  rw [heq]
  exact ⟨hP.aside (hP.publish name hhooks.now) rfl rfl, hhooks.before⟩

theorem bringUp (hP : Lasting P) (hg : g.KeepsToApi) (name : String) (origin : Origin) (source : String)
    (h₀ : Orderly none h) (hp : P h) :
    Throughout P (bringUpStints g name origin source h) (Host.bringUp g name origin source h).2 := by
  have hbegun := Tidy.setPhase name (some .loading) h h₀
  have hsource := hP.afterSource hg name origin source hbegun (hP.aside hp rfl rfl)
  have horder := (afterSource_orderly hg name origin source hbegun).1
  unfold bringUpStints
  dsimp only
  rcases instantiate_cases hg name origin source hbegun with hok | ⟨e, records, herror⟩
  · rw [bringUp_of_ok hok, hok]
    dsimp only
    obtain ⟨henv, hcontrol⟩ := (instantiate_spec hg name origin source).2 none _ _ hbegun
      (congrArg Prod.fst hok)
    rw [hok] at hcontrol
    have horder' := (Tidy.setPhase name none _ horder).entered henv (hcontrol.setPhase name none)
    exact hsource.trans (hP.enter hg horder' (hP.aside hsource.now rfl rfl))
  · obtain ⟨records', heq⟩ := bringUp_of_error herror
    rw [heq, herror]
    dsimp only
    exact hsource.trans (.of_nil (hP.dropAll hsource.now name (issued_cancelEach _ _) rfl rfl))

theorem makeRoom (hP : Lasting P) (hg : g.KeepsToApi) (name : String) (h₀ : Orderly none h) (hp : P h) :
    Throughout P (makeRoomStints g name h) (Host.makeRoom g name h).2 := by
  unfold makeRoomStints
  cases hloaded : h.isLoaded name with
  | false =>
    rw [makeRoom_of_not_loaded hloaded]
    exact .of_nil hp
  | true =>
    rw [if_pos rfl]
    cases hpolicy : h.policy with
    | reject =>
      rw [makeRoom_of_reject hloaded hpolicy]
      exact .of_nil hp
    | reload =>
      rw [makeRoom_of_reload hloaded hpolicy]
      exact hP.unload hg name (Tidy.log _ h h₀) (hP.aside hp rfl rfl)

theorem loadFrom (hP : Lasting P) (hg : g.KeepsToApi) (name : String) (origin : Origin) (source : String)
    (h₀ : Orderly none h) (hp : P h) :
    Throughout P (loadFromStints g name origin source h) (Host.loadFrom g name origin source h).2 := by
  have hroom := hP.makeRoom hg name h₀ hp
  rw [loadFrom_eq, bind_run, loadFromStints]
  cases (Host.makeRoom g name h).1 with
  | error e => exact hroom.trans (.of_nil hroom.now)
  | ok _ => exact hroom.trans (hP.bringUp hg name origin source (Tidy.makeRoom hg name h h₀) hroom.now)

theorem load (hP : Lasting P) (hg : g.KeepsToApi) (source name : String) (h₀ : Orderly none h) (hp : P h) :
    Throughout P (loadStints g source name h) (Host.load g source name h).2 := by
  unfold Host.load loadStints
  cases isScriptName name with
  | false => exact .of_nil hp
  | true => exact hP.loadFrom hg name _ source h₀ hp

theorem loadBundle (hP : Lasting P) (hg : g.KeepsToApi) (name : String) (h₀ : Orderly none h) (hp : P h) :
    Throughout P (loadBundleStints g name h) (Host.loadBundle g name h).2 := by
  unfold Host.loadBundle loadBundleStints
  cases isScriptName name with
  | false => exact .of_nil hp
  | true =>
    simp only [if_true]
    rw [read_bind]
    cases h.bundles.read h.files name with
    | error e => exact .of_nil hp
    | ok entry => exact hP.loadFrom hg name _ entry.source h₀ hp

theorem reload (hP : Lasting P) (hg : g.KeepsToApi) (name : String) (h₀ : Orderly none h) (hp : P h) :
    Throughout P (reloadStints g name h) (Host.reload g name h).2 := by
  have hunload := hP.unload hg name h₀ hp
  have horder := Tidy.unload hg name h h₀
  rw [reload_eq, read_bind, reloadStints]
  cases h.environment? name with
  | none => exact .of_nil hp
  | some env =>
    dsimp only
    rw [bind_run]
    cases (Host.unload g name h).1 with
    | error e => exact hunload.trans (.of_nil hunload.now)
    | ok _ =>
      dsimp only
      cases env.origin with
      | bundle folder => exact hunload.trans (hP.loadBundle hg name horder hunload.now)
      | inline source => exact hunload.trans (hP.loadFrom hg name _ source horder hunload.now)

/-! ## Several scripts -/

theorem forScripts {act : String → HostM γ α (Except HostError Unit)}
    {stints : String → Host γ α → List (Stint γ α)} (htidy : ∀ name, Tidy (act name))
    (hact : ∀ name h, Orderly none h → P h → Throughout P (stints name h) (act name h).2)
    (names : List String) (h₀ : Orderly none h) (hp : P h) :
    Throughout P (scriptStints act stints names h) (Host.forScripts act names h).2 := by
  induction names generalizing h with
  | nil => exact .of_nil hp
  | cons name names ih =>
    have hfirst := hact name h h₀ hp
    rw [Host.forScripts, bind_run, bind_run]
    exact hfirst.trans (ih (htidy name h h₀) hfirst.now)

/-! ## Ticks -/

theorem fire (hP : Lasting P) (hg : g.KeepsToApi) {now id : ℕ} {task : Submission α}
    (h₀ : Orderly (some (id, task)) h) (hhandle : handleOf id task ∈ h.scheduler.handles) (hp : P h) :
    Throughout P (fireStints g task h)
      ((Scheduler.fire (α := α) g.run task h).2.settle now id task) := by
  obtain ⟨callable, hcarried⟩ := h₀.tasks.carried hhandle
  have hrun := (Modest.runCallable hg task.script callable _ h h₀).1
  have hstint : Throughout P [⟨h, (g.run callable h).2⟩] (g.run callable h).2 :=
    hP.stint h₀ (hg.call callable [] h) hp
  have hran : Throughout P [⟨h, (g.run callable h).2⟩]
      (Scheduler.runCallable g.run task.script callable h).2 := by
    rw [Scheduler.runCallable, bind_run]
    cases (g.run callable h).1 with
    | ok _ => exact hstint
    | error e => exact hP.andAside hstint rfl rfl
  have hstints : fireStints g task h = [⟨h, (g.run callable h).2⟩] := by
    rw [fireStints, hcarried]
  rw [hstints, fire_state hcarried rfl hrun.tasks]
  refine ⟨hP.shrink _ _ ?_ ?_ hran.now, hran.before⟩
  · split <;> rfl
  · split
    · exact List.eraseP_subset
    · exact List.Subset.refl _

theorem fireAll (hP : Lasting P) (hg : g.KeepsToApi) {now : ℕ} (fired : ℕ) (ids : List ℕ)
    (h₀ : Orderly none h) (hp : P h) : Throughout P (fireAllStints g now ids h)
      (TickRunner.fireAll (Scheduler.fire (α := α) g.run) now fired ids h).2 := by
  induction ids generalizing h fired with
  | nil => exact .of_nil hp
  | cons id ids ih =>
    rw [fireAllStints]
    cases htask : h.runner.task? id with
    | none =>
      rw [fireAll_skip htask]
      exact ih _ h₀ hp
    | some task =>
      rw [fireAll_fire htask]
      obtain ⟨hhandle, htaken⟩ := take_orderly h₀ htask
      have hfired : Throughout P (fireStints g task { h with runner := h.runner.take id })
          ((Scheduler.fire (α := α) g.run task { h with runner := h.runner.take id }).2.settle now id task) :=
        hP.fire hg htaken hhandle (hP.shrink h _ rfl (List.Subset.refl _) hp)
      exact hfired.trans (ih _ (fire_orderly hg htaken hhandle).1 hfired.now)

theorem tick (hP : Lasting P) (hg : g.KeepsToApi) (h₀ : Orderly none h) (hp : P h) :
    Throughout P (tickStints g h) (Host.tick g h).2 := by
  have hfired : Throughout P (tickStints g h) _ :=
    hP.fireAll hg 0 h.atDawn.runner.dueIds (atDawn_orderly h₀) (hP.shrink h _ rfl (List.Subset.refl _) hp)
  obtain ⟨records, heq⟩ := tick_eq g h
  rw [heq]
  exact hP.andAside hfired rfl rfl

/-! ## Commands and variables -/

theorem dispatch (hP : Lasting P) (hg : g.KeepsToApi) (name : String) (arguments : List String)
    (h₀ : Orderly none h) (hp : P h) :
    Throughout P (dispatchStints g name arguments h) (Host.dispatch g name arguments h).2 := by
  unfold Host.dispatch dispatchStints
  rw [read_bind]
  cases h.findCommand name with
  | none => exact .of_nil hp
  | some found =>
    have hlogged := Tidy.log ⟨.debug, "luna::registry::manager",
      s!"Dispatching command '{name}' to script '{found.1}'"⟩ h h₀
    have hcall := hP.stint hlogged (hg.call found.2.handler (arguments.map g.ofText) _)
      (hP.aside hp rfl rfl)
    dsimp only
    rw [bind_run, bind_run]
    cases (g.call found.2.handler (arguments.map g.ofText) _).1 with
    | ok values => exact hcall
    | error e => exact hcall

theorem inspect (hP : Lasting P) (hg : g.KeepsToApi) (script path : String) (h₀ : Orderly none h)
    (hp : P h) : Throughout P (inspectStints g script path h) (Host.inspect g script path h).2 := by
  unfold Host.inspect inspectStints
  rw [read_bind]
  cases h.environment? script with
  | none => exact .of_nil hp
  | some env => exact hP.stint h₀ (hg.readVariable env.globals path h) hp

/-! ## Operations -/

/-- A fact that lasts holds throughout every operation. -/
theorem exec (hP : Lasting P) (hg : g.KeepsToApi) (op : Operation α) (h₀ : Orderly none h) (hp : P h) :
    Throughout P (op.stints g h) (op.exec g h) := by
  cases op with
  | load source name => exact hP.load hg source name h₀ hp
  | loadBundle name => exact hP.loadBundle hg name h₀ hp
  | unload name => exact hP.unload hg name h₀ hp
  | reload name => exact hP.reload hg name h₀ hp
  | loadAll =>
    rw [Operation.stints, Operation.exec, Host.loadAll, read_bind]
    cases h.bundles.list h.files with
    | error e => exact .of_nil hp
    | ok names =>
      exact forScripts (Tidy.loadBundle hg) (fun name h h₀ hp => hP.loadBundle hg name h₀ hp) names h₀ hp
  | unloadAll =>
    exact forScripts (Tidy.unload hg) (fun name h h₀ hp => hP.unload hg name h₀ hp) _ h₀ hp
  | dispatch name arguments => exact hP.dispatch hg name arguments h₀ hp
  | inspect script path => exact hP.inspect hg script path h₀ hp
  | tick => exact hP.tick hg h₀ hp
  -- operations on objects, tasks and commands run no guest code
  | share owner name value =>
    obtain ⟨objects, records, -, heq⟩ := share_eq (h := h) owner name value
    show Throughout P [] (Host.share owner name value h).2
    rw [heq]
    exact .of_nil (hP.aside hp rfl rfl)
  | unshare owner name =>
    obtain ⟨objects, -, heq⟩ := unshare_eq (h := h) owner name
    show Throughout P [] (Host.unshare owner name h).2
    rw [heq]
    exact .of_nil (hP.aside hp rfl rfl)
  | releaseObjects script => exact .of_nil (hP.aside hp rfl rfl)
  | schedule script callable lane mode =>
    exact .of_nil (hP.acts none h [.schedule script callable lane mode] h₀ hp)
  | cancel script id => exact .of_nil (hP.acts none h [.cancel script id] h₀ hp)
  | cancelAll script =>
    obtain ⟨records, heq⟩ := cancelAllTasks_eq h₀.tasks.balances script
    refine .of_nil (hP.dropAll hp script (issued_cancelEach _ _)
      (congrArg (fun x => x.2.runner) heq) (congrArg (fun x => x.2.scheduler) heq))
  | register command =>
    refine .of_nil ?_
    rw [Operation.exec]
    cases h.commands.register command with
    | ok commands => exact hP.aside hp rfl rfl
    | error e => exact hp
  | unregister name => exact .of_nil (hP.aside hp rfl rfl)
  | sync =>
    obtain ⟨records, heq⟩ := syncCommands_eq h
    show Throughout P [] (Host.syncCommands h).2
    rw [heq]
    exact .of_nil (hP.aside hp rfl rfl)
  | call f arguments => exact hP.stint h₀ (hg.call f arguments h) hp
  | drift files now => exact .of_nil (hP.aside hp rfl rfl)

/-- And throughout a run. -/
theorem execAll (hP : Lasting P) (hg : g.KeepsToApi) (ops : List (Operation α)) (h₀ : Orderly none h)
    (hp : P h) : Throughout P (runStints g ops h) (Host.execAll g ops h) := by
  induction ops generalizing h with
  | nil => exact .of_nil hp
  | cons op ops ih =>
    have hop := hP.exec hg op h₀ hp
    exact hop.trans (ih (op.exec_orderly hg h₀) hop.now)

end Lasting
end Host
end ScriptHost
