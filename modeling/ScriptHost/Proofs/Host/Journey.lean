import ScriptHost.Proofs.Host.Stints

/-!
# What an operation is made of

An operation of the host is a course of a few kinds of steps. While the guest is at work, and while the host
sees to tasks, objects, phases and what is logged, the books stay as they are (`Work`). Between such stretches
scripts leave the books, enter them and publish their commands (`Journey`).

* `Operation.exec_journey`: every operation is such a course, unless the owner of the host changes the table
  of commands himself. What is proved of each kind of step holds of all operations.
-/

namespace ScriptHost
namespace Host

open Scheduler

variable {γ α : Type}

/-! ## Steps -/

/-- Commands, environments and control objects are the same. -/
structure SameBooks (h h' : Host γ α) : Prop where
  commands : ∀ n, h'.commands.get? n = h.commands.get? n
  environments : h'.environments = h.environments
  controls : h'.controls = h.controls

/-- A stretch in which the guest works in its stints, and the host on what is not in its books. -/
inductive Work : List (Stint γ α) → Host γ α → Host γ α → Prop
  | aside {h h' : Host γ α} (hsame : SameBooks h h') : Work [] h h'
  | stint {flying : Option (ℕ × Submission α)} {h h' : Host γ α} (h₀ : Orderly flying h)
      (hacts : ∃ acts, h' = Act.performAll acts h) : Work [⟨h, h'⟩] h h'
  | trans {stints stints' : List (Stint γ α)} {h h' h'' : Host γ α} (hfirst : Work stints h h')
      (hrest : Work stints' h' h'') : Work (stints ++ stints') h h''

/-- A course of the host's steps, with the stints of the guest on the way. -/
inductive Journey : List (Stint γ α) → Host γ α → Host γ α → Prop
  | work {stints : List (Stint γ α)} {h h' : Host γ α} (hwork : Work stints h h') :
      Journey stints h h'
  /-- A script is taken away. -/
  | leave {h : Host γ α} {name : String} {env : Environment α} (hkeyed : h.commands.Keyed)
      (henv : h.environment? name = some env) : Journey [] h (h.without name env.control)
  /-- A script's commands are published. -/
  | publish (name : String) (h : Host γ α) : Journey [] h (Host.publish name h).2
  /-- A script has come to its end in surroundings of its own, and enters the books. -/
  | enter {stints : List (Stint γ α)} {h h' : Host γ α} {name : String} {origin : Origin}
      {env : Environment α} (hname : isScriptName name = true) (hout : h.environment? name = none)
      (hnumber : env.control = h.controls.size)
      (hwork : Work stints (h.withControl name origin) h') : Journey stints h (h'.entered name env)
  /-- A script has failed in surroundings of its own, which are discarded. -/
  | fail {stints : List (Stint γ α)} {h h' : Host γ α} {name : String} {origin : Origin}
      (hwork : Work stints (h.withControl name origin) h') :
      Journey stints h (h'.discarded name h.controls.size)
  | trans {stints stints' : List (Stint γ α)} {h h' h'' : Host γ α} (hfirst : Journey stints h h')
      (hrest : Journey stints' h' h'') : Journey (stints ++ stints') h h''

variable {g : Guest γ α} {h h' h'' : Host γ α} {flying : Option (ℕ × Submission α)}
  {stints : List (Stint γ α)} {name : String}

/-- The other parts of a host are not its books. -/
theorem sameBooks_with (guest : γ) (runner : TickRunner (Submission α)) (scheduler : Scheduler α)
    (objects : SharedObjects α) (records : Array Record) :
    SameBooks h { h with guest, runner, scheduler, objects, records } :=
  ⟨fun _ => rfl, rfl, rfl⟩

theorem sameBooks_logged (records : Array Record) : SameBooks h { h with records := records } :=
  sameBooks_with _ _ _ _ _

theorem sameBooks_setPhase (name : String) (phase : Option Phase) :
    SameBooks h (setPhase name phase h).2 := ⟨fun _ => rfl, rfl, rfl⟩

theorem Work.same : Work [] h h := .aside ⟨fun _ => rfl, rfl, rfl⟩

/-- What is logged is not in the books. -/
theorem Work.logged (records : Array Record) : Work [] h { h with records := records } :=
  .aside (sameBooks_logged _)

/-- The host sees to something when the guest has done its work. -/
theorem Work.andAside (hwork : Work stints h h') (hsame : SameBooks h' h'') : Work stints h h'' := by
  have hall := hwork.trans (.aside hsame)
  rw [List.append_nil] at hall
  exact hall

theorem Journey.same : Journey [] h h := .work .same

theorem Journey.andAside (hjourney : Journey stints h h') (hsame : SameBooks h' h'') :
    Journey stints h h'' := by
  have hall := hjourney.trans (.work (.aside hsame))
  rw [List.append_nil] at hall
  exact hall

/-! ## Hooks and bodies -/

theorem run_stint (hg : g.KeepsToApi) (f : α) (h₀ : Orderly flying h) :
    Work [⟨h, (g.run f h).2⟩] h (g.run f h).2 :=
  .stint h₀ (hg.call f [] h)

theorem runHooks_work (hg : g.KeepsToApi) (name kind : String) (hooks : List α)
    (h₀ : Orderly none h) :
    Work (hookStints g name kind hooks h) h (runHooks g name kind hooks h).2 := by
  induction hooks generalizing h with
  | nil => exact .same
  | cons hook hooks ih =>
    have hnext := (Modest.runHooks hg name kind [hook] none h h₀).1
    have hone : Work [⟨h, (g.run hook h).2⟩] h (runHooks g name kind [hook] h).2 := by
      obtain ⟨records, heq⟩ := runHooks_one g name kind hook h
      rw [heq]
      exact (run_stint hg hook h₀).andAside (sameBooks_with _ _ _ _ _)
    rw [runHooks_cons]
    exact hone.trans (ih hnext)

theorem runSource_work (hg : g.KeepsToApi) (name : String) (globals : α) (source : String)
    (h₀ : Orderly none h) :
    Work (sourceStints g name globals source h) h (runSource g name globals source h).2 := by
  have hcompile : Work [⟨h, (g.compile name globals source h).2⟩] h _ :=
    .stint h₀ (hg.compile name globals source h)
  have horder := (Modest.performAll (hg.compile name globals source) none h h₀).1
  rw [sourceStints, runSource, bind_run]
  cases (g.compile name globals source h).1 with
  | error e => exact hcompile
  | ok body => exact hcompile.trans (run_stint hg body horder)

/-- The body of a script runs once its control object has been made. -/
theorem afterSource_work (hg : g.KeepsToApi) (name : String) (origin : Origin) (source : String)
    (h₀ : Orderly none h) :
    Work (instantiateStints g name origin source h) (h.withControl name origin)
      (afterSource g name origin source h) := by
  have hpushed : Orderly none (h.withControl name origin) :=
    (Modest.pushControl { name, folder := origin.folder? } none h h₀).1
  have hglobals : Work [globalsStint g name origin h] (h.withControl name origin) _ :=
    .stint hpushed (hg.createGlobals name origin.folder? h.controls.size _)
  have hcreated : Work [globalsStint g name origin h] (h.withControl name origin)
      (createEnvironment g name origin h).2 := hglobals.andAside (sameBooks_with _ _ _ _ _)
  have horder := ((createEnvironment_spec hg name origin).1 none h h₀).1
  exact hcreated.trans (runSource_work hg name _ source horder)

/-! ## Unloading -/

theorem unload_journey (hg : g.KeepsToApi) (name : String) (h₀ : Orderly none h) :
    Journey (unloadStints g name h) h (unload g name h).2 := by
  cases hloaded : h.isLoaded name with
  | false =>
    rw [unload_eq_of_not_loaded hloaded, unloadStints_of_not_loaded hloaded]
    exact .same
  | true =>
    obtain ⟨env, records, henv, heq⟩ := h₀.unload_eq hg hloaded
    obtain ⟨horder, hbooks⟩ := afterHooks_orderly hg name env h₀
    have hbegun : Work [] h (setPhase name (some .unloading) h).2 := .aside (sameBooks_setPhase _ _)
    have hhooks := runHooks_work hg name "unload" (h.unloadHooks env)
      (Tidy.setPhase name (some .unloading) h h₀)
    -- the hooks keep the books, so the instance is there when it leaves
    have hstays : (afterHooks g name env h).environment? name = some env := by
      rw [environment?, hbooks.environments]
      exact henv
    have hleave := Journey.leave horder.commands hstays
    rw [heq, unloadStints_of_loaded henv hloaded]
    have hall := (Journey.work (hbegun.trans hhooks)).trans
      (hleave.andAside (sameBooks_logged records))
    rw [List.nil_append, List.append_nil] at hall
    exact hall

/-- A script that has been unloaded has no environment. -/
theorem environment?_unload (hg : g.KeepsToApi) (name : String) (h₀ : Orderly none h) :
    (unload g name h).2.environment? name = none := by
  cases hloaded : h.isLoaded name with
  | false =>
    rw [unload_eq_of_not_loaded hloaded]
    rw [h₀.isLoaded_eq] at hloaded
    exact Option.not_isSome_iff_eq_none.mp (by rw [hloaded]; exact Bool.false_ne_true)
  | true =>
    obtain ⟨env, records, -, heq⟩ := h₀.unload_eq hg hloaded
    rw [heq]
    show ((afterHooks g name env h).environments.erase name).get? name = none
    rw [NameMap.get?_erase, if_pos rfl]

/-- The others are loaded as before. -/
theorem isLoaded_unload (hg : g.KeepsToApi) (name : String) (h₀ : Orderly none h) (n : String) :
    (unload g name h).2.isLoaded n = if name = n then false else h.isLoaded n := by
  cases hloaded : h.isLoaded name with
  | false =>
    rw [unload_eq_of_not_loaded hloaded]
    split
    next hn => exact hn ▸ hloaded
    next => rfl
  | true =>
    obtain ⟨env, records, -, heq⟩ := h₀.unload_eq hg hloaded
    obtain ⟨-, hbooks⟩ := afterHooks_orderly hg name env h₀
    rw [heq]
    show (((afterHooks g name env h).loaded.erase name).get? n).getD false = _
    rw [hbooks.loaded, NameMap.get?_erase]
    split <;> rfl

/-! ## Loading -/

/-- A script that has entered publishes its commands, before its load hooks run and after. -/
theorem enter_journey (hg : g.KeepsToApi) {env : Environment α}
    (h₀ : Orderly none (h.entered name env)) :
    Journey (enterStints g name env h) (h.entered name env) (enter g name env h).2 := by
  have horder := Tidy.publish name _ h₀
  have hhooks := runHooks_work hg name "load"
    ((publish name (h.entered name env)).2.loadHooks env) horder
  obtain ⟨records, heq⟩ := enter_eq g name env h
  rw [heq]
  have hagain := Journey.publish name (runHooks g name "load"
    ((publish name (h.entered name env)).2.loadHooks env) (publish name (h.entered name env)).2).2
  have hall := (Journey.publish name (h.entered name env)).trans
    ((Journey.work hhooks).trans (hagain.andAside (sameBooks_logged records)))
  rw [List.nil_append, List.append_nil] at hall
  exact hall

theorem bringUp_journey (hg : g.KeepsToApi) (origin : Origin) (source : String)
    (hname : isScriptName name = true) (hout : h.environment? name = none) (h₀ : Orderly none h) :
    Journey (bringUpStints g name origin source h) h (bringUp g name origin source h).2 := by
  have hbegun := Tidy.setPhase name (some .loading) h h₀
  have hphase : Journey [] h (setPhase name (some .loading) h).2 :=
    .work (.aside (sameBooks_setPhase _ _))
  have hsource := afterSource_work hg name origin source hbegun
  have horder := (afterSource_orderly hg name origin source hbegun).1
  unfold bringUpStints
  dsimp only
  rcases instantiate_cases hg name origin source hbegun with hok | ⟨e, records, herror⟩
  · rw [bringUp_of_ok hok, hok]
    dsimp only
    obtain ⟨henv, hcontrol⟩ := (instantiate_spec hg name origin source).2 none _ _ hbegun
      (congrArg Prod.fst hok)
    rw [hok] at hcontrol
    have hentered : Journey _ (setPhase name (some .loading) h).2
        ((setPhase name none (afterSource g name origin source
          (setPhase name (some .loading) h).2)).2.entered name
          (createEnvironment g name origin (setPhase name (some .loading) h).2).1) :=
      .enter hname hout rfl (hsource.andAside (sameBooks_setPhase name none))
    have horder' := (Tidy.setPhase name none _ horder).entered henv (hcontrol.setPhase name none)
    -- the body has ended, so the script enters, and then its load hooks are called
    exact (hphase.trans hentered).trans (enter_journey hg horder')
  · obtain ⟨records', heq⟩ := bringUp_of_error herror
    rw [heq, herror]
    dsimp only
    -- the body has failed, so the control object is discarded
    have hfailed := (Journey.fail hsource).andAside (sameBooks_logged records)
    have hsettled := (hfailed.andAside (sameBooks_setPhase name none)).andAside
      (sameBooks_logged records')
    rw [List.append_nil]
    exact hphase.trans hsettled

/-- Where there is room for a load the script has no environment. -/
theorem makeRoom_journey (hg : g.KeepsToApi) (name : String) (h₀ : Orderly none h) :
    Journey (makeRoomStints g name h) h (makeRoom g name h).2 ∧
      ((makeRoom g name h).1 = .ok () → (makeRoom g name h).2.environment? name = none) := by
  unfold makeRoomStints
  cases hloaded : h.isLoaded name with
  | false =>
    rw [makeRoom_of_not_loaded hloaded]
    refine ⟨.same, fun _ => ?_⟩
    rw [h₀.isLoaded_eq] at hloaded
    exact Option.not_isSome_iff_eq_none.mp (by rw [hloaded]; exact Bool.false_ne_true)
  | true =>
    rw [if_pos rfl]
    cases hpolicy : h.policy with
    | reject =>
      rw [makeRoom_of_reject hloaded hpolicy]
      exact ⟨.same, fun hok => nomatch hok⟩
    | reload =>
      have hlogged := Tidy.log (lifeRecord .info s!"Script '{name}' is already loaded, replacing it")
        h h₀
      rw [makeRoom_of_reload hloaded hpolicy]
      exact ⟨(Journey.work (.logged _)).trans (unload_journey hg name hlogged),
        fun _ => environment?_unload hg name hlogged⟩

theorem loadFrom_journey (hg : g.KeepsToApi) (origin : Origin) (source : String)
    (hname : isScriptName name = true) (h₀ : Orderly none h) :
    Journey (loadFromStints g name origin source h) h (loadFrom g name origin source h).2 := by
  obtain ⟨hroom, hout⟩ := makeRoom_journey hg name h₀
  rw [loadFrom_eq, bind_run, loadFromStints]
  cases hanswer : (makeRoom g name h).1 with
  | error e => exact hroom.trans .same
  | ok _ =>
    exact hroom.trans
      (bringUp_journey hg origin source hname (hout hanswer) (Tidy.makeRoom hg name h h₀))

theorem load_journey (hg : g.KeepsToApi) (source name : String) (h₀ : Orderly none h) :
    Journey (loadStints g source name h) h (load g source name h).2 := by
  unfold load loadStints
  cases hname : isScriptName name with
  | false => exact .same
  | true => exact loadFrom_journey hg _ source hname h₀

theorem loadBundle_journey (hg : g.KeepsToApi) (name : String) (h₀ : Orderly none h) :
    Journey (loadBundleStints g name h) h (loadBundle g name h).2 := by
  unfold loadBundle loadBundleStints
  cases hname : isScriptName name with
  | false => exact .same
  | true =>
    simp only [if_true]
    rw [read_bind]
    cases h.bundles.read h.files name with
    | error e => exact .same
    | ok entry => exact loadFrom_journey hg _ entry.source hname h₀

/-- The names of loaded scripts are script names. -/
def WellNamed (h : Host γ α) : Prop :=
  ∀ name env, h.environment? name = some env → isScriptName name = true

/-- A script that was handed over as a source is loaded again under the name it had. -/
theorem reload_journey (hg : g.KeepsToApi) (name : String) (hnamed : WellNamed h)
    (h₀ : Orderly none h) : Journey (reloadStints g name h) h (reload g name h).2 := by
  have hunload := unload_journey hg name h₀
  have horder := Tidy.unload hg name h h₀
  rw [reload_eq, read_bind, reloadStints]
  cases henv : h.environment? name with
  | none => exact .same
  | some env =>
    dsimp only
    rw [bind_run]
    cases (unload g name h).1 with
    | error e => exact hunload.trans .same
    | ok _ =>
      dsimp only
      cases env.origin with
      | bundle folder => exact hunload.trans (loadBundle_journey hg name horder)
      | inline source =>
        exact hunload.trans (loadFrom_journey hg _ source (hnamed name env henv) horder)

/-! ## Several scripts -/

theorem forScripts_journey {act : String → HostM γ α (Except HostError Unit)}
    {stints : String → Host γ α → List (Stint γ α)} (htidy : ∀ name, Tidy (act name))
    (hact : ∀ name h, Orderly none h → Journey (stints name h) h (act name h).2)
    (names : List String) (h₀ : Orderly none h) :
    Journey (scriptStints act stints names h) h (forScripts act names h).2 := by
  induction names generalizing h with
  | nil => exact .same
  | cons name names ih =>
    have hrest := ih (htidy name h h₀)
    rw [forScripts, bind_run, bind_run]
    exact (hact name h h₀).trans hrest

/-! ## Ticks -/

theorem fire_work (hg : g.KeepsToApi) {now id : ℕ} {task : Submission α}
    (h₀ : Orderly (some (id, task)) h) (hhandle : handleOf id task ∈ h.scheduler.handles) :
    Work (fireStints g task h) h
      ((Scheduler.fire (α := α) g.run task h).2.settle now id task) := by
  obtain ⟨callable, hcarried⟩ := h₀.tasks.carried hhandle
  have hrun := (Modest.runCallable hg task.script callable _ h h₀).1
  have hran : Work [⟨h, (g.run callable h).2⟩] h
      (Scheduler.runCallable g.run task.script callable h).2 := by
    rw [Scheduler.runCallable, bind_run]
    cases (g.run callable h).1 with
    | ok _ => exact run_stint hg callable h₀
    | error e => exact (run_stint hg callable h₀).andAside (sameBooks_with _ _ _ _ _)
  have hstints : fireStints g task h = [⟨h, (g.run callable h).2⟩] := by
    rw [fireStints, hcarried]
  rw [hstints, fire_state hcarried rfl hrun.tasks]
  split <;> exact hran.andAside ⟨fun _ => rfl, rfl, rfl⟩

theorem fireAll_work (hg : g.KeepsToApi) {now : ℕ} (fired : ℕ) (ids : List ℕ) (h₀ : Orderly none h) :
    Work (fireAllStints g now ids h) h
      (TickRunner.fireAll (Scheduler.fire (α := α) g.run) now fired ids h).2 := by
  induction ids generalizing h fired with
  | nil => exact .same
  | cons id ids ih =>
    rw [fireAllStints]
    cases htask : h.runner.task? id with
    | none =>
      rw [fireAll_skip htask]
      exact ih _ h₀
    | some task =>
      rw [fireAll_fire htask]
      obtain ⟨hhandle, htaken⟩ := take_orderly h₀ htask
      have hnext : Orderly none ((Scheduler.fire (α := α) g.run task
          { h with runner := h.runner.take id }).2.settle now id task) :=
        (fire_orderly hg htaken hhandle).1
      have htook : Work [] h { h with runner := h.runner.take id } :=
        .aside (sameBooks_with _ _ _ _ _)
      exact (htook.trans (fire_work hg htaken hhandle)).trans (ih _ hnext)

theorem tick_work (hg : g.KeepsToApi) (h₀ : Orderly none h) :
    Work (tickStints g h) h (tick g h).2 := by
  have hdawn : Work [] h h.atDawn := .aside (sameBooks_with _ _ _ _ _)
  have hfired : Work (tickStints g h) h.atDawn _ :=
    fireAll_work hg 0 h.atDawn.runner.dueIds (atDawn_orderly h₀)
  obtain ⟨records, heq⟩ := tick_eq g h
  rw [heq]
  exact (hdawn.trans hfired).andAside (sameBooks_logged records)

/-! ## Commands and variables -/

theorem dispatch_work (hg : g.KeepsToApi) (name : String) (arguments : List String)
    (h₀ : Orderly none h) :
    Work (dispatchStints g name arguments h) h (dispatch g name arguments h).2 := by
  unfold dispatch dispatchStints
  rw [read_bind]
  cases h.findCommand name with
  | none => exact .same
  | some found =>
    have hlogged := Tidy.log ⟨.debug, "luna::registry::manager",
      s!"Dispatching command '{name}' to script '{found.1}'"⟩ h h₀
    have hcall := Work.stint hlogged (hg.call found.2.handler (arguments.map g.ofText) _)
    dsimp only
    rw [bind_run, bind_run]
    have hall := (Work.logged _).trans hcall
    cases (g.call found.2.handler (arguments.map g.ofText) _).1 with
    | ok values => exact hall
    | error e => exact hall

theorem inspect_work (hg : g.KeepsToApi) (script path : String) (h₀ : Orderly none h) :
    Work (inspectStints g script path h) h (inspect g script path h).2 := by
  unfold inspect inspectStints
  rw [read_bind]
  cases h.environment? script with
  | none => exact .same
  | some env => exact .stint h₀ (hg.readVariable env.globals path h)

/-! ## Operations -/

/-- With this the owner of the host leaves the table of commands to the scripts. -/
def Operation.SparesCommands : Operation α → Prop
  | .register _ => False
  | .unregister _ => False
  | _ => True

/-- With this no script comes or goes. -/
def Operation.KeepsScripts : Operation α → Prop
  | .load .. => False
  | .loadBundle _ => False
  | .unload _ => False
  | .reload _ => False
  | .loadAll => False
  | .unloadAll => False
  | _ => True

/-- Where no script comes or goes there is only work to do. -/
theorem Operation.exec_work (hg : g.KeepsToApi) (op : Operation α) (hkeeps : op.KeepsScripts)
    (hspares : op.SparesCommands) (h₀ : Orderly none h) : Work (op.stints g h) h (op.exec g h) := by
  cases op with
  | load _ _ | loadBundle _ | unload _ | reload _ | loadAll | unloadAll => exact absurd hkeeps id
  | dispatch name arguments => exact dispatch_work hg name arguments h₀
  | inspect script path => exact inspect_work hg script path h₀
  | tick => exact tick_work hg h₀
  | share owner name value =>
    obtain ⟨objects, records, -, heq⟩ := share_eq (h := h) owner name value
    show Work [] h (Host.share owner name value h).2
    rw [heq]
    exact .aside (sameBooks_with _ _ _ _ _)
  | unshare owner name =>
    obtain ⟨objects, -, heq⟩ := unshare_eq (h := h) owner name
    show Work [] h (Host.unshare owner name h).2
    rw [heq]
    exact .aside (sameBooks_with _ _ _ _ _)
  | releaseObjects script => exact .aside (sameBooks_with _ _ _ _ _)
  | schedule script callable lane mode =>
    obtain ⟨record, heq⟩ := schedule_eq h₀.tasks.balances script callable lane mode
    show Work [] h (Host.schedule script callable lane mode h).2
    rw [heq]
    exact .aside (sameBooks_with _ _ _ _ _)
  | cancel script id =>
    show Work [] h (Host.cancelTask script id h).2
    rw [cancelTask_eq h₀.tasks.balances]
    split
    · exact .same
    · exact .aside (sameBooks_with _ _ _ _ _)
  | cancelAll script =>
    obtain ⟨records, heq⟩ := cancelAllTasks_eq h₀.tasks.balances script
    show Work [] h (Host.cancelAllTasks script h).2
    rw [heq]
    exact .aside (sameBooks_with _ _ _ _ _)
  | register command => exact absurd hspares id
  | unregister name => exact absurd hspares id
  | sync =>
    obtain ⟨records, heq⟩ := syncCommands_eq h
    show Work [] h (Host.syncCommands h).2
    rw [heq]
    exact .aside ⟨CommandTable.get?_sync h.commands, rfl, rfl⟩
  | call f arguments => exact .stint h₀ (hg.call f arguments h)
  | drift files now => exact .aside ⟨fun _ => rfl, rfl, rfl⟩

/-- Every operation is a course of the host's steps. -/
theorem Operation.exec_journey (hg : g.KeepsToApi) (op : Operation α) (hspares : op.SparesCommands)
    (hnamed : WellNamed h) (h₀ : Orderly none h) : Journey (op.stints g h) h (op.exec g h) := by
  cases op with
  | load source name => exact load_journey hg source name h₀
  | loadBundle name => exact loadBundle_journey hg name h₀
  | unload name => exact unload_journey hg name h₀
  | reload name => exact reload_journey hg name hnamed h₀
  | loadAll =>
    rw [Operation.stints, Operation.exec, Host.loadAll, read_bind]
    cases h.bundles.list h.files with
    | error e => exact .same
    | ok names =>
      exact forScripts_journey (Tidy.loadBundle hg) (fun name h h₀ => loadBundle_journey hg name h₀)
        names h₀
  | unloadAll =>
    exact forScripts_journey (Tidy.unload hg) (fun name h h₀ => unload_journey hg name h₀) _ h₀
  | _ => exact .work (Operation.exec_work hg _ trivial hspares h₀)

/-! ## Names -/

/-- While the guest and the host are at work, no script comes or goes. -/
theorem Work.environments (hwork : Work stints h h') : h'.environments = h.environments := by
  induction hwork with
  | aside hsame => exact hsame.environments
  | stint h₀ hacts =>
    obtain ⟨acts, rfl⟩ := hacts
    exact (Act.performAll_orderly acts h₀).2.environments
  | trans _ _ ihfirst ihrest => exact ihrest.trans ihfirst

theorem Journey.wellNamed (hjourney : Journey stints h h') (hnamed : WellNamed h) : WellNamed h' := by
  have hkept : ∀ {h h' : Host γ α}, h'.environments = h.environments → WellNamed h → WellNamed h' :=
    fun hsame hnamed n env henv => hnamed n env (by rw [environment?, ← hsame]; exact henv)
  -- only where a script enters there is a new environment, and its name is a script's
  induction hjourney with
  | work hwork => exact hkept hwork.environments hnamed
  | @leave h name env _ _ =>
    intro n env' henv
    have hleft : (h.environments.erase name).get? n = some env' := henv
    rw [NameMap.get?_erase] at hleft
    split at hleft
    · cases hleft
    · exact hnamed n env' hleft
  | publish name h =>
    obtain ⟨commands, records, heq, -⟩ := publish_eq name h
    exact hkept (by rw [heq]) hnamed
  | @enter stints h h' name origin env hname _ _ hwork =>
    intro n env' henv
    have hentered : (h'.environments.insert name env).get? n = some env' := henv
    rw [NameMap.get?_insert] at hentered
    split at hentered
    · rename_i hn
      exact hn ▸ hname
    · exact hkept hwork.environments hnamed n env' hentered
  | fail hwork => exact hkept hwork.environments hnamed
  | trans _ _ ihfirst ihrest => exact ihrest (ihfirst hnamed)

/-- Whatever is done with a host, the scripts that it has loaded have script names. -/
theorem Reachable.wellNamed (hg : g.KeepsToApi) (hreach : Reachable g h) : WellNamed h := by
  induction hreach with
  | new guest policy bundles files now records =>
    intro n env henv
    rw [environment?, NameMap.get?_empty] at henv
    cases henv
  | @step h hreach op ih =>
    by_cases hspares : op.SparesCommands
    · exact (op.exec_journey hg hspares ih (hreach.orderly hg)).wellNamed ih
    · cases op <;> first | exact absurd trivial hspares | skip
      case register command =>
        rw [Operation.exec]
        cases h.commands.register command <;> exact ih
      case unregister name => exact ih

end Host
end ScriptHost
