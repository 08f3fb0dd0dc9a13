import ScriptHost.Proofs.Host.HookOrder

/-!
# Hooks in runs of a host

Each operation of the host keeps to what has happened (`Told`), and with it every run.

* `hooks_run_once_in_order`: in a run from a new host the hooks of every instance are called when they are due, once,
  and in order, and an operation succeeds whatever becomes of them.
-/

namespace ScriptHost
namespace Host

variable {γ α : Type} {g : Guest γ α} {h h' host : Host γ α} {past : List (Happening γ α)}
  {name : String} {env : Environment α}

/-! ## Unloading -/

/-- What hooks register, when they have been called. -/
theorem hooksDone_enrols (hg : g.KeepsToApi) (kind : HookKind) (name : String) (hooks : List α)
    (h₀ : Orderly none h) :
    Enrols (hookStints g name kind.text hooks h) h (hooksDone g kind name hooks h) := by
  have hwork := runHooks_work hg name kind.text hooks h₀
  rw [runHooks_eq] at hwork
  exact hwork.enrols

theorem afterHooks_eq (g : Guest γ α) (name : String) (env : Environment α) (h : Host γ α) :
    afterHooks g name env h =
      hooksDone g .unload name (h.unloadHooks env) (setPhase name (some .unloading) h).2 :=
  congrArg Prod.snd (runHooks_eq g .unload name (h.unloadHooks env) _)

/-- What is logged when the hooks of a script have run stays in the log while the script is torn down. -/
theorem logKept_unload (henv : h.environment? name = some env) (hloaded : h.isLoaded name = true) :
    LogKept (afterHooks g name env h) (unload g name h).2 := by
  have hrest : Logs (do tearDown name env (← cancelAllTasks name) :
      HostM γ α (Except HostError Unit)) :=
    .bind (.cancelAllTasks name) fun summary => .tearDown name env summary
  have hsteps : depart g name env (h.unloadHooks env) h =
      (do tearDown name env (← cancelAllTasks name) : HostM γ α (Except HostError Unit))
        (afterHooks g name env h) := by
    rw [depart, bind_run, bind_run]
    rfl
  rw [unload_eq_depart henv hloaded, hsteps]
  exact hrest (afterHooks g name env h)

namespace Told

theorem unload (hg : g.KeepsToApi) (htold : Told g past h) (h₀ : Orderly none h) (name : String) :
    Told g (past ++ unloadTrail g name h) (Host.unload g name h).2 := by
  cases hloaded : h.isLoaded name with
  | false =>
    rw [unloadTrail_of_not_loaded hloaded, List.append_nil, unload_eq_of_not_loaded hloaded]
    exact htold
  | true =>
    obtain ⟨env, records, henv, heq⟩ := h₀.unload_eq hg hloaded
    have hended := logKept_unload (g := g) henv hloaded
    have henrols := hooksDone_enrols hg .unload name (h.unloadHooks env)
      (Tidy.setPhase name (some .unloading) h h₀)
    have hgone : (Host.unload g name h).2.environments = (afterHooks g name env h).environments.erase name ∧
        (Host.unload g name h).2.controls =
          (afterHooks g name env h).controls.modify env.control Control.clear := by
      rw [heq]
      exact ⟨rfl, rfl⟩
    rw [afterHooks_eq] at hended heq hgone
    -- the hooks are called while the instance is there and the script is unloading
    have hmoment : Moment g name env.control (h.unloadHooks env) (setPhase name (some .unloading) h).2 past .unload :=
      .unload ⟨henv, rfl, records, heq⟩ rfl (htold.due henv).1
    rw [unloadTrail_of_loaded henv hloaded]
    exact htold.depart hg henv hmoment rfl rfl (.of_same rfl) henrols hgone.1 hgone.2 hended

theorem makeRoom (hg : g.KeepsToApi) (htold : Told g past h) (h₀ : Orderly none h) (name : String) :
    Told g (past ++ makeRoomTrail g name h) (Host.makeRoom g name h).2 := by
  unfold makeRoomTrail
  cases hloaded : h.isLoaded name with
  | false =>
    rw [makeRoom_of_not_loaded hloaded, if_neg Bool.false_ne_true, List.append_nil]
    exact htold
  | true =>
    rw [if_pos rfl]
    cases hpolicy : h.policy with
    | reject =>
      rw [makeRoom_of_reject hloaded hpolicy, List.append_nil]
      exact htold
    | reload =>
      let r := lifeRecord .info s!"Script '{name}' is already loaded, replacing it"
      have hlogged : Told g past ((log r : HostM γ α Unit) h).2 :=
        htold.of_same rfl rfl (Logs.log r h)
      rw [makeRoom_of_reload hloaded hpolicy]
      exact hlogged.unload hg (Tidy.log r h h₀) name

end Told

/-! ## Loading -/

/-- The host when a script whose body has come to its end, at `h`, is entered and has published its commands. -/
def published (name : String) (env : Environment α) (h : Host γ α) : Host γ α :=
  (publish name ((setPhase name none h).2.entered name env)).2

theorem published_books (name : String) (env : Environment α) (h : Host γ α) :
    (published name env h).environments = h.environments.insert name env ∧
      (published name env h).controls = h.controls := by
  obtain ⟨commands, records, heq, -⟩ := publish_eq name ((setPhase name none h).2.entered name env)
  rw [published, heq]
  exact ⟨rfl, rfl⟩

/-- A script whose body has come to its end arrives, and its load hooks are called. -/
theorem arrival {origin : Origin} {source : String} {hooks : List α}
    (hok : instantiate g name origin source (setPhase name (some .loading) h).2 = (.ok env, h'))
    (hbooks : KeepsBooks (setPhase name (some .loading) h).2 h') (hnumber : env.control = h.controls.size)
    (hhooks : (published name env h').loadHooks env = hooks) :
    Arrival g name origin source env hooks h (published name env h') := by
  have henv : ((setPhase name none h').2.entered name env).environment? name = some env :=
    (NameMap.get?_insert ..).trans (if_pos rfl)
  -- to publish the commands touches only these and the log
  obtain ⟨commands, records, heq, hpublishes⟩ := publish_publishes henv
  have hhost : published name env h' = { (setPhase name none h').2.entered name env with
      commands := commands, records := records } := heq
  have hloaded : (published name env h').isLoaded name = true := by
    have hget : (h'.loaded.insert name true).get? name = some true :=
      (NameMap.get?_insert ..).trans (if_pos rfl)
    rw [hhost]
    show ((h'.loaded.insert name true).get? name).getD false = true
    rw [hget]
    rfl
  constructor
  case body => exact congrArg Prod.fst hok
  case number => exact hnumber
  case environment =>
    rw [hhost]
    exact henv
  case loaded => exact hloaded
  case phase =>
    have hsettled : (published name env h').phases.get? name = none := by
      rw [hhost]
      exact (NameMap.get?_erase ..).trans (if_pos rfl)
    rw [phase, hsettled, hloaded]
    rfl
  case published =>
    intro d hd
    rw [hhost] at hd ⊢
    refine (hpublishes.served d hd).trans ?_
    show some ((h'.commands.owner? d.name).getD name) = _
    rw [hbooks.commands]
    rfl
  case result =>
    obtain ⟨records', hentered⟩ := enter_eq g name env (setPhase name none h').2
    obtain ⟨commands', records'', hagain, -⟩ := publish_eq name
      (hooksDone g .load name hooks (published name env h'))
    have hran : (runHooks g name "load" ((published name env h').loadHooks env)
        (published name env h')).2 = hooksDone g .load name hooks (published name env h') := by
      rw [hhooks]
      exact congrArg Prod.snd (runHooks_eq g .load name hooks (published name env h'))
    have hend : (enter g name env (setPhase name none h').2).2 = { (publish name
        (hooksDone g .load name hooks (published name env h'))).2 with records := records' } := by
      rw [hentered, ← hran, published]
    refine ⟨commands', records', ?_⟩
    rw [bringUp_of_ok hok, hend, hagain]

/-- What the load hooks register, when the script has entered. -/
theorem Arrival.enrols (hg : g.KeepsToApi) {origin : Origin} {source : String} {hooks : List α}
    (harrival : Arrival g name origin source env hooks h host) (h₀ : Orderly none host) :
    Enrols (hookStints g name "load" hooks host) host (Host.bringUp g name origin source h).2 := by
  obtain ⟨commands, records, hresult⟩ := harrival.result
  rw [hresult]
  exact (hooksDone_enrols hg .load name hooks h₀).andSame rfl rfl

/-- What is logged when the load hooks of a script have run stays in the log while the script enters. -/
theorem logKept_enter (g : Guest γ α) (name : String) (env : Environment α) (h : Host γ α) :
    LogKept (hooksDone g .load name ((published name env h).loadHooks env) (published name env h))
      (enter g name env (setPhase name none h).2).2 := by
  have hrest : Logs (do publish name; log (lifeRecord .info s!"Loaded script '{name}'") :
      HostM γ α Unit) := .bind (.publish name) fun _ => .log _
  have hsteps : (enter g name env (setPhase name none h).2).2 =
      ((do publish name; log (lifeRecord .info s!"Loaded script '{name}'") : HostM γ α Unit)
        (runHooks g name "load" ((published name env h).loadHooks env) (published name env h)).2).2 := by
    unfold enter
    rw [bind_run, bind_run, read_bind, bind_run]
    rfl
  have hran := runHooks_eq g .load name ((published name env h).loadHooks env) (published name env h)
  rw [hsteps, show "load" = HookKind.load.text from rfl, hran]
  exact hrest _

/-- What a body leaves of scripts and control objects: the scripts are the same, and a new control object has the
hooks that were registered with it. -/
theorem afterSource_enrols (hg : g.KeepsToApi) (h₀ : Orderly none h) (name : String) (origin : Origin)
    (source : String) :
    let ran := afterSource g name origin source (setPhase name (some .loading) h).2
    ran.environments = h.environments ∧ ran.controls.size = h.controls.size + 1 ∧
      Gains (bodyOf g name origin source h).stints h ran := by
  have hbegun : Orderly none (setPhase name (some .loading) h).2 :=
    Tidy.setPhase name (some .loading) h h₀
  have henrols := (afterSource_work hg name origin source hbegun).enrols
  refine ⟨henrols.environments, ?_, fun kind n => ?_⟩
  · rw [henrols.size]
    exact Array.size_push _
  · obtain ⟨hooks, henlisted, hgot⟩ := henrols.hooks kind n
    exact ⟨hooks, henlisted, by rw [hgot, hooksOf_withControl]; rfl⟩

namespace Told

/-- A body runs, in surroundings of its own. -/
theorem body (hg : g.KeepsToApi) (htold : Told g past h) (h₀ : Orderly none h) (origin : Origin)
    (source : String)
    (henvironments : h'.environments =
      (afterSource g name origin source (setPhase name (some .loading) h).2).environments)
    (hcontrols : h'.controls =
      (afterSource g name origin source (setPhase name (some .loading) h).2).controls)
    (hkept : LogKept h h') : Told g (past ++ [bodyOf g name origin source h]) h' := by
  obtain ⟨hsame, hsize, hgains⟩ := afterSource_enrols hg h₀ name origin source
  rw [← hcontrols] at hsize
  refine htold.snoc (bodyOf g name origin source h) (henvironments.trans hsame) ?_ (fun kind n => ?_)
    (fun _ _ => id) (fun n hn => ?_) hkept
  · omega
  · obtain ⟨hooks, henlisted, hgot⟩ := hgains kind n
    exact ⟨hooks, henlisted, by rw [hooksOf_congr hcontrols, hgot]⟩
  · obtain rfl := Option.some.inj hn
    omega

/-- A body that has come to its end has had a control object that is new. -/
theorem body_new (htold : Told g past h) {origin : Origin} {source : String}
    (hok : (Host.instantiate g name origin source (setPhase name (some .loading) h).2).1 = .ok env) :
    (∀ e ∈ past ++ [bodyOf g name origin source h], ∀ kind, ¬ e.Concerns kind h.controls.size) ∧
      ∀ n calls stints, .body n h.controls.size false calls stints ∉
        past ++ [bodyOf g name origin source h] := by
  have hsucceeds : bodyOf g name origin source h = .body name h.controls.size true
      (Host.called (Host.instantiate g.noting name origin source) (setPhase name (some .loading) h).2)
      (instantiateStints g name origin source (setPhase name (some .loading) h).2) := by
    rw [bodyOf, hok]
    rfl
  constructor
  · intro e he kind hconcerns
    rcases List.mem_append.mp he with he | he
    · exact htold.number?_ne (Nat.le_refl _) he (e.number?_of_concerns hconcerns)
    · rw [List.mem_singleton.mp he] at hconcerns
      exact hconcerns
  · intro n calls stints hmem
    rcases List.mem_append.mp hmem with hmem | hmem
    · exact htold.number?_ne (Nat.le_refl _) hmem rfl
    · rw [hsucceeds, List.mem_singleton, Happening.body.injEq] at hmem
      exact Bool.false_ne_true hmem.2.2.1

/-- A body has come to its end. The script enters, and what was registered is called. -/
theorem enter (hg : g.KeepsToApi) (htold : Told g past h) (h₀ : Orderly none h) {origin : Origin}
    {source : String} (hout : h.environment? name = none)
    (hok : instantiate g name origin source (setPhase name (some .loading) h).2 = (.ok env, h'))
    (hran : h' = afterSource g name origin source (setPhase name (some .loading) h).2)
    (hnumber : env.control = h.controls.size) :
    Told g (past ++ bringUpTrail g name origin source h) (Host.bringUp g name origin source h).2 := by
  have hbegun : Orderly none (setPhase name (some .loading) h).2 :=
    Tidy.setPhase name (some .loading) h h₀
  obtain ⟨horder, hbooks⟩ := afterSource_orderly hg name origin source hbegun
  obtain ⟨hsame, hsize, hgains⟩ := afterSource_enrols hg h₀ name origin source
  rw [← hran] at horder hbooks hsame hsize hgains
  let trail := past ++ [bodyOf g name origin source h]
  let host := published name env h'
  -- the body has run, and the new control object has what it registered
  have hkept : LogKept h h' := by
    have hkept := Logs.instantiate hg name origin source (setPhase name (some .loading) h).2
    rw [hok] at hkept
    exact hkept
  have hthen : Told g trail h' := by
    apply htold.body hg h₀ origin source _ _ hkept
    · rw [hran]
    · rw [hran]
  obtain ⟨hnew, hsucceeds⟩ := htold.body_new (congrArg Prod.fst hok)
  rw [← hnumber] at hnew hsucceeds
  have hge : h.controls.size ≤ env.control := Nat.le_of_eq hnumber.symm
  have hbody : Gains (stintsOf [bodyOf g name origin source h]) h h' := by
    rw [stintsOf_singleton]
    exact hgains
  have hlisted : ∀ kind, Enlisted kind env.control (stintsOf trail) (h'.hooksOf kind env.control) := by
    intro kind
    have hnone : Enlisted kind env.control (stintsOf past) (h.hooksOf kind env.control) := by
      rw [hooksOf_of_ge hge]
      exact htold.fresh kind _ hge
    exact hbody.listed hnone
  -- the script enters the books
  obtain ⟨hinserted, hcontrols⟩ := published_books name env h'
  have hload : host.loadHooks env = h'.hooksOf .load env.control := hooksOf_congr hcontrols .load env.control
  have harrival : Arrival g name origin source env (h'.hooksOf .load env.control) h host :=
    arrival hok hbooks hnumber hload
  have hmoment : Moment g name env.control (h'.hooksOf .load env.control) host trail .load :=
    .load harrival rfl rfl (htold.fresh .load env.control hge)
  have hentered : Orderly none host := by
    obtain ⟨hname, hcontrol⟩ := (instantiate_spec hg name origin source).2 none _ _ hbegun
      (congrArg Prod.fst hok)
    rw [hok] at hcontrol
    exact Tidy.publish name _
      ((Tidy.setPhase name none _ horder).entered hname (hcontrol.setPhase name none))
  -- the load hooks run
  have htrail : bringUpTrail g name origin source h = [bodyOf g name origin source h] ++
      dueTrail g .load name env.control (h'.hooksOf .load env.control) host := by
    rw [← hload, bringUpTrail, hok]
    rfl
  have hended : LogKept (hooksDone g .load name (h'.hooksOf .load env.control) host)
      (Host.bringUp g name origin source h).2 := by
    rw [bringUp_of_ok hok, ← hload]
    exact logKept_enter g name env h'
  have hpublished : LogKept h' host := Logs.publish name _
  have hstillOut : h'.environment? name = none := by
    rw [environment?, hsame]
    exact hout
  have hlt : env.control < h'.controls.size := by omega
  rw [htrail, ← List.append_assoc]
  exact hthen.arrive hg hstillOut hlt hnew hsucceeds hlisted hmoment hinserted hcontrols hpublished
    (harrival.enrols hg hentered) hended

theorem bringUp (hg : g.KeepsToApi) (htold : Told g past h) (h₀ : Orderly none h) (origin : Origin)
    (source : String) (hout : h.environment? name = none) :
    Told g (past ++ bringUpTrail g name origin source h) (Host.bringUp g name origin source h).2 := by
  have hbegun : Orderly none (setPhase name (some .loading) h).2 :=
    Tidy.setPhase name (some .loading) h h₀
  obtain ⟨hsame, hsize, -⟩ := afterSource_enrols hg h₀ name origin source
  rcases instantiate_cases hg name origin source hbegun with hok | ⟨e, records, hfailed⟩
  · exact htold.enter hg h₀ hout hok rfl rfl
  · -- what the body has registered is dropped
    obtain ⟨records', heq⟩ := bringUp_of_error hfailed
    have hkept := Logs.bringUp hg name origin source h
    have htrail : bringUpTrail g name origin source h = [bodyOf g name origin source h] := by
      rw [bringUpTrail, hfailed]
    let ran := afterSource g name origin source (setPhase name (some .loading) h).2
    let done := (Host.bringUp g name origin source h).2
    have hthen : Told g (past ++ [bodyOf g name origin source h])
        { done with environments := ran.environments, controls := ran.controls } :=
      htold.body hg h₀ origin source rfl rfl hkept
    rw [htrail]
    refine hthen.clear h.controls.size (fun n env henv => ?_) ?_ ?_ (.of_same rfl)
    · have hthere : h.environment? n = some env := by
        rw [environment?, ← hsame]
        exact henv
      have hlt := htold.control_lt hthere
      omega
    · rw [heq]
      rfl
    · rw [heq]
      rfl

theorem loadFrom (hg : g.KeepsToApi) (htold : Told g past h) (h₀ : Orderly none h) (name : String)
    (origin : Origin) (source : String) :
    Told g (past ++ loadFromTrail g name origin source h) (Host.loadFrom g name origin source h).2 := by
  have hroom := htold.makeRoom hg h₀ name
  have hout := (makeRoom_journey hg name h₀).2
  rw [loadFrom_eq, bind_run, loadFromTrail, ← List.append_assoc]
  cases hanswer : (Host.makeRoom g name h).1 with
  | error e =>
    rw [List.append_nil]
    exact hroom
  | ok _ => exact hroom.bringUp hg (Tidy.makeRoom hg name h h₀) origin source (hout hanswer)

theorem load (hg : g.KeepsToApi) (htold : Told g past h) (h₀ : Orderly none h) (source name : String) :
    Told g (past ++ loadTrail g source name h) (Host.load g source name h).2 := by
  unfold Host.load loadTrail
  cases isScriptName name with
  | false =>
    rw [if_neg Bool.false_ne_true, List.append_nil]
    exact htold
  | true => exact htold.loadFrom hg h₀ name (.inline source) source

theorem loadBundle (hg : g.KeepsToApi) (htold : Told g past h) (h₀ : Orderly none h) (name : String) :
    Told g (past ++ loadBundleTrail g name h) (Host.loadBundle g name h).2 := by
  unfold Host.loadBundle loadBundleTrail
  cases isScriptName name with
  | false =>
    rw [if_neg Bool.false_ne_true, List.append_nil]
    exact htold
  | true =>
    simp only [if_true]
    rw [read_bind]
    cases h.bundles.read h.files name with
    | error e =>
      rw [List.append_nil]
      exact htold
    | ok entry => exact htold.loadFrom hg h₀ name (.bundle entry.folder) entry.source

theorem reload (hg : g.KeepsToApi) (htold : Told g past h) (h₀ : Orderly none h) (name : String) :
    Told g (past ++ reloadTrail g name h) (Host.reload g name h).2 := by
  have hunload := htold.unload hg h₀ name
  have horder := Tidy.unload hg name h h₀
  rw [reload_eq, read_bind, reloadTrail]
  cases h.environment? name with
  | none =>
    rw [List.append_nil]
    exact htold
  | some env =>
    dsimp only
    rw [bind_run, ← List.append_assoc]
    cases (Host.unload g name h).1 with
    | error e =>
      rw [List.append_nil]
      exact hunload
    | ok _ =>
      cases env.origin with
      | bundle folder => exact hunload.loadBundle hg horder name
      | inline source => exact hunload.loadFrom hg horder name (.inline source) source

theorem forScripts {act : String → HostM γ α (Except HostError Unit)}
    {trail : String → Host γ α → List (Happening γ α)} (htidy : ∀ name, Tidy (act name))
    (hact : ∀ past name h, Told g past h → Orderly none h → Told g (past ++ trail name h) (act name h).2)
    (names : List String) (htold : Told g past h) (h₀ : Orderly none h) :
    Told g (past ++ scriptTrail act trail names h) (Host.forScripts act names h).2 := by
  induction names generalizing past h with
  | nil =>
    rw [scriptTrail, List.append_nil]
    exact htold
  | cons name names ih =>
    rw [scriptTrail, ← List.append_assoc, Host.forScripts, bind_run, bind_run]
    exact ih (hact past name h htold h₀) (htidy name h h₀)

/-! ## Operations -/

theorem loadAll (hg : g.KeepsToApi) (htold : Told g past h) (h₀ : Orderly none h) :
    Told g (past ++ loadAllTrail g h) (Host.loadAll g h).2 := by
  unfold Host.loadAll loadAllTrail
  rw [read_bind]
  cases h.bundles.list h.files with
  | error e =>
    rw [List.append_nil]
    exact htold
  | ok names =>
    have hact : ∀ past name h, Told g past h → Orderly none h →
        Told g (past ++ loadBundleTrail g name h) (Host.loadBundle g name h).2 :=
      fun past name h htold h₀ => htold.loadBundle hg h₀ name
    exact forScripts (Tidy.loadBundle hg) hact names htold h₀

/-- Whatever is done with a host keeps to what has happened. -/
theorem exec (hg : g.KeepsToApi) (htold : Told g past h) (h₀ : Orderly none h) (op : Operation α) :
    Told g (past ++ op.trail g h) (op.exec g h) := by
  have hkept : LogKept h (op.exec g h) := Logs.exec hg op h
  have hwork : op.KeepsScripts → op.SparesCommands →
      Told g (past ++ [.work (op.exec g.noting (h.noting [])).guest.2 (op.stints g h)]) (op.exec g h) :=
    fun hkeeps hspares => htold.work (op.exec_work hg hkeeps hspares h₀).enrols hkept _
  cases op with
  | load source name => exact htold.load hg h₀ source name
  | loadBundle name => exact htold.loadBundle hg h₀ name
  | unload name => exact htold.unload hg h₀ name
  | reload name => exact htold.reload hg h₀ name
  | loadAll => exact htold.loadAll hg h₀
  | unloadAll =>
    have hact (past) (name) (h : Host γ α) (htold : Told g past h) (h₀ : Orderly none h) :
        Told g (past ++ unloadTrail g name h) (Host.unload g name h).2 := htold.unload hg h₀ name
    exact forScripts (Tidy.unload hg) hact h.loadedScripts htold h₀
  | register command =>
    -- the table of commands is not in the books that count here
    refine htold.work (.of_same ?_ ?_) hkept _
    all_goals
      rw [Operation.exec]
      cases h.commands.register command <;> rfl
  | unregister name =>
    have hsame : Enrols [] h ((Operation.unregister name).exec g h) := .of_same rfl rfl
    exact htold.work hsame hkept _
  | _ => exact hwork trivial trivial

theorem execAll (hg : g.KeepsToApi) (ops : List (Operation α)) (htold : Told g past h)
    (h₀ : Orderly none h) : Told g (past ++ runTrail g ops h) (Host.execAll g ops h) := by
  induction ops generalizing past h with
  | nil =>
    rw [runTrail, List.append_nil]
    exact htold
  | cons op ops ih =>
    rw [runTrail, ← List.append_assoc]
    exact ih (htold.exec hg h₀ op) (op.exec_orderly hg h₀)

theorem new (g : Guest γ α) (guest : γ) (policy : DoubleLoad) (bundles : BundleFolder) (files : FileTree)
    (now : Timestamp) (records : Array Record) :
    Told g [] ({ guest, policy, bundles, files, now, records } : Host γ α) where
  hooks := .nil
  numbers e he := nomatch he
  fresh kind n _ := .nil
  instances name n := by
    simp only [due_nil, false_and, iff_false]
    rintro ⟨env, henv, -⟩
    rw [environment?, NameMap.get?_empty] at henv
    cases henv
  listed name env henv := by
    rw [environment?, NameMap.get?_empty] at henv
    cases henv
  logged _ _ _ _ _ hmem := nomatch hmem

end Told

/-! ## What operations answer -/

variable {kind : HookKind} {n : String}

theorem begins_of_error {answer : Except HostError Unit} {e : HostError} (herror : answer = .error e) :
    Begins kind n ([] : List (Happening γ α)) ↔ answer.isOk = true ∧ name = n := by
  refine iff_of_false begins_nil fun hboth => ?_
  rw [herror] at hboth
  exact Bool.false_ne_true hboth.1

theorem unload_begins :
    Begins .unload n (unloadTrail g name h) ↔ (unload g name h).1.isOk = true ∧ name = n := by
  cases henv : h.environment? name with
  | none =>
    have hunload : unload g name h = (.error (.notLoaded name), h) := by
      rw [unload, read_bind, henv]
      rfl
    rw [unloadTrail, henv, hunload]
    exact begins_of_error rfl
  | some env =>
    cases hloaded : h.isLoaded name with
    | false =>
      rw [unloadTrail_of_not_loaded hloaded, unload_eq_of_not_loaded hloaded]
      exact begins_of_error rfl
    | true =>
      have hok : (unload g name h).1.isOk = true := by
        rw [unload_eq_depart henv hloaded, depart_ok]
        rfl
      rw [unloadTrail_of_loaded henv hloaded, hok]
      simp [eq_comm]

/-- Where a script is unloaded no load hooks are due. -/
theorem not_begins_unload : ¬ Begins .load n (unloadTrail g name h) := by
  rw [unloadTrail]
  cases h.environment? name with
  | none => exact begins_nil
  | some env => cases h.isLoaded name <;> simp

theorem not_begins_makeRoom : ¬ Begins .load n (makeRoomTrail g name h) := by
  rw [makeRoomTrail]
  split
  · split
    · exact begins_nil
    · exact not_begins_unload
  · exact begins_nil

theorem bringUp_begins {origin : Origin} {source : String} :
    Begins .load n (bringUpTrail g name origin source h) ↔
      (bringUp g name origin source h).1.isOk = true ∧ name = n := by
  have hbody : ¬ Begins .load n [bodyOf g name origin source h] := by
    rintro ⟨number, hdue⟩
    obtain ⟨e, he, hconcerns⟩ := hdue.exists_concerns
    rw [List.mem_singleton.mp he] at hconcerns
    exact hconcerns
  cases hinst : instantiate g name origin source (setPhase name (some .loading) h).2 with
  | mk answer h' =>
    cases answer with
    | error e =>
      obtain ⟨records, heq⟩ := bringUp_of_error hinst
      rw [bringUpTrail, hinst, heq]
      simp [hbody, Except.isOk, Except.toBool]
    | ok env =>
      have htrail : bringUpTrail g name origin source h = [bodyOf g name origin source h] ++
          enterTrail g name env (setPhase name none h').2 := by
        rw [bringUpTrail, hinst]
        rfl
      rw [htrail, begins_append, bringUp_of_ok hinst, enterTrail]
      simp [hbody, Except.isOk, Except.toBool, eq_comm]

theorem loadFrom_begins {origin : Origin} {source : String} :
    Begins .load n (loadFromTrail g name origin source h) ↔
      (loadFrom g name origin source h).1.isOk = true ∧ name = n := by
  rw [loadFromTrail, begins_append, loadFrom_eq, bind_run]
  cases (makeRoom g name h).1 with
  | error e => exact (or_iff_right not_begins_makeRoom).trans (begins_of_error rfl)
  | ok _ => exact (or_iff_right not_begins_makeRoom).trans bringUp_begins

theorem load_begins {source : String} :
    Begins .load n (loadTrail g source name h) ↔ (load g source name h).1.isOk = true ∧ name = n := by
  unfold load loadTrail
  cases isScriptName name with
  | false => exact begins_of_error rfl
  | true => exact loadFrom_begins

theorem loadBundle_begins :
    Begins .load n (loadBundleTrail g name h) ↔ (loadBundle g name h).1.isOk = true ∧ name = n := by
  unfold loadBundle loadBundleTrail
  cases isScriptName name with
  | false => exact begins_of_error rfl
  | true =>
    simp only [if_true, read_bind]
    cases h.bundles.read h.files name with
    | error e => exact begins_of_error rfl
    | ok entry => exact loadFrom_begins

theorem reload_begins :
    Begins .load n (reloadTrail g name h) ↔ (reload g name h).1.isOk = true ∧ name = n := by
  rw [reload_eq, read_bind, reloadTrail]
  cases h.environment? name with
  | none => exact begins_of_error rfl
  | some env =>
    dsimp only
    rw [bind_run, begins_append]
    refine (or_iff_right not_begins_unload).trans ?_
    cases (unload g name h).1 with
    | error e => exact begins_of_error rfl
    | ok _ =>
      cases env.origin with
      | bundle folder => exact loadBundle_begins
      | inline source => exact loadFrom_begins

/-- Of several scripts those are reported for which something has come about. -/
theorem forScripts_begins {act : String → HostM γ α (Except HostError Unit)}
    {trail : String → Host γ α → List (Happening γ α)}
    (hact : ∀ name h, Begins kind n (trail name h) ↔ (act name h).1.isOk = true ∧ name = n)
    (names : List String) (h : Host γ α) :
    Begins kind n (scriptTrail act trail names h) ↔ ⟨n, true, none⟩ ∈ (forScripts act names h).1 := by
  induction names generalizing h with
  | nil => exact iff_of_false begins_nil (List.not_mem_nil)
  | cons name names ih =>
    rw [scriptTrail, begins_append, hact, ih, forScripts, bind_run, bind_run]
    show _ ↔ _ ∈ Outcome.ofResult name (act name h).1 :: _
    rw [List.mem_cons, success_eq_ofResult, Bool.and_eq_true, beq_iff_eq]

/-- An operation reports a script as loaded if its load hooks have been due, and as unloaded if its unload hooks
have, whatever became of them. -/
def Operation.Reports (g : Guest γ α) (h : Host γ α) : Operation α → Prop
  | .load source name => ∀ n, Begins .load n (loadTrail g source name h) ↔
      (Host.load g source name h).1.isOk = true ∧ name = n
  | .loadBundle name => ∀ n, Begins .load n (loadBundleTrail g name h) ↔
      (Host.loadBundle g name h).1.isOk = true ∧ name = n
  | .reload name => ∀ n, Begins .load n (reloadTrail g name h) ↔
      (Host.reload g name h).1.isOk = true ∧ name = n
  | .unload name => ∀ n, Begins .unload n (unloadTrail g name h) ↔
      (Host.unload g name h).1.isOk = true ∧ name = n
  | .loadAll => ∀ n, Begins .load n (loadAllTrail g h) ↔
      ∃ outcomes, (Host.loadAll g h).1 = .ok outcomes ∧ ⟨n, true, none⟩ ∈ outcomes
  | .unloadAll => ∀ n, Begins .unload n (scriptTrail (Host.unload g) (unloadTrail g) h.loadedScripts h) ↔
      ⟨n, true, none⟩ ∈ (Host.unloadAll g h).1
  | _ => True

theorem Operation.reports (g : Guest γ α) (h : Host γ α) (op : Operation α) : op.Reports g h := by
  cases op with
  | load source name => exact fun n => load_begins
  | loadBundle name => exact fun n => loadBundle_begins
  | reload name => exact fun n => reload_begins
  | unload name => exact fun n => unload_begins
  | loadAll =>
    intro n
    unfold Host.loadAll loadAllTrail
    rw [read_bind]
    cases h.bundles.list h.files with
    | error e =>
      refine iff_of_false begins_nil ?_
      rintro ⟨outcomes, heq, -⟩
      cases heq
    | ok names =>
      refine (forScripts_begins (fun name h => loadBundle_begins) names h).trans ?_
      constructor
      · intro hmem
        exact ⟨_, rfl, hmem⟩
      · rintro ⟨outcomes, heq, hmem⟩
        exact Except.ok.inj heq ▸ hmem
  | unloadAll =>
    intro n
    exact forScripts_begins (fun name h => unload_begins) h.loadedScripts h
  | _ => trivial

/-! ## Runs -/

/-- **Hooks run once, in order.** Whatever is done with a new host, and whatever its scripts do meanwhile:

* the calls on the trail of the run are those that the host makes;
* the load hooks of an instance are due when its body has come to its end and it is loaded and published, its unload
  hooks when its unload begins, and those are called that have been registered by then, each once and in order, but
  no other hook, and none of an instance whose load has failed;
* an error of a hook is logged as one of the script;
* the instances that are loaded in the end are those whose load hooks have been due and whose unload hooks have not,
  in whichever way they were loaded and unloaded;
* an operation reports a script as loaded, or unloaded, whatever became of its hooks. -/
theorem hooks_run_once_in_order (hg : g.KeepsToApi) (ops : List (Operation α)) (guest : γ)
    (policy : DoubleLoad) (bundles : BundleFolder) (files : FileTree) (now : Timestamp)
    (records : Array Record) :
    let start : Host γ α := { guest, policy, bundles, files, now, records }
    let trail := runTrail g ops start
    execAll g.noting ops (start.noting []) = (execAll g ops start).noting (callsOf trail) ∧
      HooksRun g trail ∧ Logged g trail (execAll g ops start) ∧
      (∀ name number,
        (∃ env, (execAll g ops start).environment? name = some env ∧ env.control = number) ↔
          Due .load name number trail ∧ ∀ n, ¬ Due .unload n number trail) ∧
      ∀ h op, Operation.Reports g h op := by
  intro start trail
  have hnew : Told g [] start := .new g guest policy bundles files now records
  have horder : Orderly none start :=
    (Reachable.new (g := g) guest policy bundles files now records).orderly hg
  have htold : Told g trail (execAll g ops start) := hnew.execAll hg ops horder
  exact ⟨execAll_notes hg ops start [], htold.hooks, htold.logged, htold.instances, Operation.reports g⟩

/-! ## A script with hooks that raise and register more -/

/-- The values of a small guest: globals, the body of one script, and its hooks. -/
inductive Chime where
  | globals (number : ℕ)
  | body (number : ℕ)
  | load (strokes number : ℕ)
  | unload (strokes number : ℕ)
deriving DecidableEq

namespace Chime

/-- The script, in the guest language. -/
def source : String := "
local function two() end
local function three() end
local function four() end
script:on_load(function()
    script:on_load(three)
    script:on_unload(three)
    error(\"one\")
end)
script:on_unload(function()
    script:on_unload(four)
    error(\"one\")
end)
script:on_load(two)
script:on_unload(two)
"

/-- What each of its functions does. -/
def acts : Chime → List (Act Unit Chime)
  | .body number => [
      .onLoad number (.load 1 number),
      .onUnload number (.unload 1 number),
      .onLoad number (.load 2 number),
      .onUnload number (.unload 2 number)]
  | .load 1 number => [.onLoad number (.load 3 number), .onUnload number (.unload 3 number)]
  | .unload 1 number => [.onUnload number (.unload 4 number)]
  | _ => []

/-- How a call ends. -/
def outcome : Chime → Except GuestError (List Chime)
  | .load 1 _ => .error (.runtime "one")
  | .unload 1 _ => .error (.runtime "one")
  | _ => .ok []

/-- A guest that knows the one script. -/
def guest : Guest Unit Chime where
  createGlobals _ _ number := pure (.globals number)
  compile _ globals text := pure <|
    match globals with
    | .globals number => if text == source then .ok (.body number) else .error (.parsing "unknown")
    | _ => .error (.parsing "unknown")
  call f _ := fun h => (f.outcome, Act.performAll f.acts h)
  ofText _ := .globals 0
  display _ := ""
  readVariable _ _ := pure none

theorem guest_keepsToApi : guest.KeepsToApi where
  createGlobals _ _ _ _ := ⟨[], rfl⟩
  compile _ _ _ _ := ⟨[], rfl⟩
  call f _ _ := ⟨f.acts, rfl⟩
  readVariable _ _ _ := ⟨[], rfl⟩

end Chime

/-- The hooks that a load hook registers for unloading are called; those that hooks register for their own kind are
not. -/
theorem hooks_run_once_in_order_chime :
    let ops : List (Operation Chime) := [.load Chime.source "chime", .unload "chime"]
    let start : Host Unit Chime := { guest := () }
    HooksRun Chime.guest (runTrail Chime.guest ops start) ∧
      (execAll Chime.guest.noting ops (start.noting [])).guest.2.map Call.function =
        [.body 0, .load 1 0, .load 2 0, .unload 1 0, .unload 2 0, .unload 3 0] := by
  intro ops start
  obtain ⟨-, hruns, -⟩ := hooks_run_once_in_order Chime.guest_keepsToApi ops () .reject
    ⟨"scripts", "main.lua"⟩ {} ⟨0, 0⟩ #[]
  exact ⟨hruns, by decide +kernel⟩

end Host
end ScriptHost
