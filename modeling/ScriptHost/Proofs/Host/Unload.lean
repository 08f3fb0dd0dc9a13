import ScriptHost.Proofs.Host.Reach
import ScriptHost.Proofs.Scheduler.Others

/-!
# Unloading releases what a script acquired

A script's unload hooks may do with the script's own objects whatever they like, and so acquire more while it is
being torn down. What they leave to the others is as before (`OthersUntouched`). The steps that follow come to
one change of the host (`unload_eq`), which takes away exactly what is the script's.
-/

namespace ScriptHost
namespace Host

open Scheduler

variable {γ α : Type} {g : Guest γ α} {h h' : Host γ α} {script : String} {number : ℕ}

/-! ## Acts of a script on its own objects -/

/-- What belongs to others, apart from the books, is the same. -/
structure OthersUntouched (script : String) (number : ℕ) (h h' : Host γ α) : Prop where
  tasks : SameTasks script h.runner h'.runner h.scheduler h'.scheduler
  objects : ∀ n, h'.objects.foreign? script n = h.objects.foreign? script n
  controls : ∀ n, n ≠ number → h'.control? n = h.control? n

theorem OthersUntouched.refl : OthersUntouched script number h h :=
  ⟨SameTasks.refl, fun _ => rfl, fun _ _ => rfl⟩

theorem OthersUntouched.trans {h'' : Host γ α} (h₁ : OthersUntouched script number h h')
    (h₂ : OthersUntouched script number h' h'') : OthersUntouched script number h h'' where
  tasks := h₁.tasks.trans h₂.tasks
  objects n := (h₂.objects n).trans (h₁.objects n)
  controls n hn := (h₂.controls n hn).trans (h₁.controls n hn)

/-- A control object acts in the name of a script. -/
def ControlOf (script : String) (number : ℕ) (h : Host γ α) : Prop :=
  ∃ c, h.control? number = some c ∧ c.name = script

theorem ControlOf.keep (hc : ControlOf script number h) (hbooks : KeepsBooks h h') :
    ControlOf script number h' := by
  obtain ⟨c, hcontrol, hname⟩ := hc
  obtain ⟨c', hcontrol', hname'⟩ := hbooks.control number c hcontrol
  exact ⟨c', hcontrol', hname'.trans hname⟩

theorem controlOf_iff :
    ControlOf script number h ↔ (h.control? number).map Control.name = some script := by
  rw [Option.map_eq_some_iff]
  rfl

theorem ControlOf.controlName (hc : ControlOf script number h) : h.controlName number = script := by
  obtain ⟨c, hcontrol, hname⟩ := hc
  rw [Host.controlName, hcontrol]
  exact hname

/-- A control object of a script is not one of another's. -/
theorem ControlOf.ne (hc : ControlOf script number h) {m : ℕ} {c : Control α}
    (hm : h.control? m = some c) (hother : c.name ≠ script) : m ≠ number := by
  rintro rfl
  obtain ⟨c', hc', hname⟩ := hc
  obtain rfl := Option.some.inj (hm.symm.trans hc')
  exact hother hname

theorem untouched_changeControl (f : Control α → Control α) :
    OthersUntouched script number h { h with controls := h.controls.modify number f } := by
  refine ⟨SameTasks.refl, fun _ => rfl, fun n hn => ?_⟩
  rw [control?_modify, if_neg (Ne.symm hn)]

/-- What a script does with its own objects leaves the others' alone. -/
theorem Act.perform_untouched (act : Act γ α) (hown : act.IsOwn script number)
    (h₀ : Orderly none h) (hc : ControlOf script number h) :
    OthersUntouched script number h (act.perform h) := by
  cases act with
  | think state => exact ⟨SameTasks.refl, fun _ => rfl, fun _ _ => rfl⟩
  | report record => exact ⟨SameTasks.refl, fun _ => rfl, fun _ _ => rfl⟩
  | onLoad n hook =>
    obtain rfl : n = number := hown
    exact untouched_changeControl _
  | onUnload n hook =>
    obtain rfl : n = number := hown
    exact untouched_changeControl _
  | declare n command =>
    obtain rfl : n = number := hown
    exact untouched_changeControl _
  | share n object value =>
    obtain rfl : n = number := hown
    obtain ⟨objects, records, hchange, heq⟩ := share_eq (h := h) (.script (h.controlName n)) object value
    rw [Act.perform, heq]
    exact ⟨SameTasks.refl, (hc.controlName ▸ hchange).foreign?, fun _ _ => rfl⟩
  | unshare n object =>
    obtain rfl : n = number := hown
    obtain ⟨objects, hchange, heq⟩ := unshare_eq (h := h) (.script (h.controlName n)) object
    rw [Act.perform, heq]
    exact ⟨SameTasks.refl, (hc.controlName ▸ hchange).foreign?, fun _ _ => rfl⟩
  -- a task of its own is added or goes; those of the others stay
  | schedule s callable lane mode =>
    obtain rfl : s = script := hown
    obtain ⟨record, heq⟩ := schedule_eq h₀.tasks.balances s callable lane mode
    rw [Act.perform, heq]
    exact ⟨sameTasks_submit h₀.tasks callable lane mode, fun _ => rfl, fun _ _ => rfl⟩
  | cancel s id =>
    obtain rfl : s = script := hown
    rw [Act.perform, cancelTask_eq h₀.tasks.balances]
    cases hother : h.scheduler.ownedByOther s id with
    | true => exact OthersUntouched.refl
    | false => exact ⟨sameTasks_cancel h₀.tasks hother, fun _ => rfl, fun _ _ => rfl⟩

theorem Act.performAll_untouched (acts : List (Act γ α))
    (hown : ∀ act ∈ acts, act.IsOwn script number) (h₀ : Orderly none h)
    (hc : ControlOf script number h) : OthersUntouched script number h (Act.performAll acts h) := by
  induction acts generalizing h with
  | nil => exact OthersUntouched.refl
  | cons act acts ih =>
    rw [List.forall_mem_cons] at hown
    obtain ⟨hnext, hbooks⟩ := act.perform_orderly h₀
    exact (Act.perform_untouched act hown.1 h₀ hc).trans (ih hown.2 hnext (hc.keep hbooks))

/-! ## Unload hooks -/

/-- Each of the hooks, when its turn comes, does only what its script's own objects allow. -/
def HooksAreOwn (g : Guest γ α) (script : String) (number : ℕ) : List α → Host γ α → Prop
  | [], _ => True
  | hook :: hooks, h =>
    g.CallIsOwn script number hook h ∧
      HooksAreOwn g script number hooks (runHooks g script "unload" [hook] h).2

theorem runHooks_cons (kind : String) (hook : α) (hooks : List α) :
    runHooks g script kind (hook :: hooks) h =
      runHooks g script kind hooks (runHooks g script kind [hook] h).2 := by
  rw [runHooks, runHooks, bind_run, bind_run]
  cases (g.run hook h).1 <;> rfl

/-- One hook does what its function does, besides what is logged. -/
theorem runHooks_one (g : Guest γ α) (name kind : String) (hook : α) (h : Host γ α) :
    ∃ records, (runHooks g name kind [hook] h).2 = { (g.run hook h).2 with records := records } := by
  rw [runHooks, bind_run]
  cases (g.run hook h).1 with
  | ok _ => exact ⟨_, rfl⟩
  | error e => exact ⟨_, rfl⟩

theorem runHooks_untouched (hg : g.KeepsToApi) (hooks : List α)
    (hown : HooksAreOwn g script number hooks h) (h₀ : Orderly none h)
    (hc : ControlOf script number h) :
    OthersUntouched script number h (runHooks g script "unload" hooks h).2 := by
  induction hooks generalizing h with
  | nil => exact OthersUntouched.refl
  | cons hook hooks ih =>
    obtain ⟨⟨acts, hacts, heq⟩, hrest⟩ := hown
    obtain ⟨hnext, hbooks⟩ := Modest.runHooks hg script "unload" [hook] none h h₀
    have hfirst : OthersUntouched script number h (runHooks g script "unload" [hook] h).2 := by
      have hcall := Act.performAll_untouched acts hacts h₀ hc
      obtain ⟨records, hone⟩ := runHooks_one g script "unload" hook h
      rw [hone, heq]
      exact hcall.trans ⟨SameTasks.refl, fun _ => rfl, fun _ _ => rfl⟩
    rw [runHooks_cons]
    exact hfirst.trans (ih hrest hnext (hc.keep hbooks))

/-! ## The steps after the hooks -/

/-- The unload hooks of an environment's control object. -/
def unloadHooks (h : Host γ α) (env : Environment α) : List α :=
  ((h.control? env.control).map Control.unloadHooks).getD []

/-- The host when the unload hooks of a script have run. -/
def afterHooks (g : Guest γ α) (name : String) (env : Environment α) (h : Host γ α) : Host γ α :=
  (runHooks g name "unload" (h.unloadHooks env) (setPhase name (some .unloading) h).2).2

/-- A host without a script, besides what it logs. -/
def without (name : String) (control : ℕ) (h : Host γ α) : Host γ α :=
  { h with
    runner := cancelEach h.runner ((h.scheduler.handlesOf name).map TaskHandle.task)
    scheduler := h.scheduler.dropAll name
    objects := (h.objects.releaseOwnedBy name).2
    commands := (h.commands.withdraw (h.commands.ownedBy name)).sync.2
    controls := h.controls.modify control Control.clear
    loaded := h.loaded.erase name
    environments := h.environments.erase name
    phases := h.phases.erase name }

/-- What is left to do when the tasks of a script are cancelled. -/
def tearDown (name : String) (env : Environment α) (summary : CancelSummary) :
    HostM γ α (Except HostError Unit) := do
  withdrawCommands name
  let released ← releaseObjects name
  changeControl env.control Control.clear
  change fun h => { h with
    loaded := h.loaded.erase name
    environments := h.environments.erase name }
  setPhase name none
  log (lifeRecord .info (s!"Unloaded script '{name}' ({summary.cancelled} task(s) cancelled, "
    ++ s!"{summary.released} reference(s) released, {released} shared object(s) removed)"))
  pure (.ok ())

theorem tearDown_eq (name : String) (env : Environment α) (summary : CancelSummary) :
    ∃ records, tearDown name env summary h = (.ok (), { h with
      objects := (h.objects.releaseOwnedBy name).2
      commands := (h.commands.withdraw (h.commands.ownedBy name)).sync.2
      controls := h.controls.modify env.control Control.clear
      loaded := h.loaded.erase name
      environments := h.environments.erase name
      phases := h.phases.erase name
      records := records }) := by
  obtain ⟨records, hsync⟩ := syncCommands_eq { h with
    commands := h.commands.withdraw (h.commands.ownedBy name) }
  have hwithdraw : withdrawCommands name h = ((), { h with
      commands := (h.commands.withdraw (h.commands.ownedBy name)).sync.2
      records := records }) := hsync
  refine ⟨_, (congrArg (fun x : Unit × Host γ α => ((do
    let released ← releaseObjects name
    changeControl env.control Control.clear
    change fun h => { h with
      loaded := h.loaded.erase name
      environments := h.environments.erase name }
    setPhase name none
    log (lifeRecord .info (s!"Unloaded script '{name}' ({summary.cancelled} task(s) cancelled, "
      ++ s!"{summary.released} reference(s) released, {released} shared object(s) removed)"))
    pure (.ok ()) : HostM γ α (Except HostError Unit)) x.2)) hwithdraw).trans rfl⟩

/-- Once the hooks have run, unloading takes the script away in one change. -/
theorem unload_eq {name : String} {env : Environment α} (henv : h.environment? name = some env)
    (hloaded : h.isLoaded name = true) (hbalances : Balances [] (afterHooks g name env h).scheduler) :
    ∃ records, unload g name h =
      (.ok (), { (afterHooks g name env h).without name env.control with records := records }) := by
  have hread : unload g name h =
      (do
        setPhase name (some .unloading)
        runHooks g name "unload" (h.unloadHooks env)
        tearDown name env (← cancelAllTasks name) : HostM γ α (Except HostError Unit)) h := by
    rw [unload, read_bind, henv, hloaded]
    rfl
  rw [hread]
  obtain ⟨cancelled, hcancel⟩ := cancelAllTasks_eq hbalances name
  obtain ⟨records, htear⟩ := tearDown_eq (h := (cancelAllTasks name (afterHooks g name env h)).2) name
    env (cancelAllTasks name (afterHooks g name env h)).1
  rw [hcancel] at htear
  have hsteps : ∀ (x y : HostM γ α Unit) (z : HostM γ α CancelSummary)
      (next : CancelSummary → HostM γ α (Except HostError Unit)),
      (do x; y; next (← z)) h = next (z (y (x h).2).2).1 (z (y (x h).2).2).2 := fun _ _ _ _ => rfl
  have hcancel' : cancelAllTasks name
      (runHooks g name "unload" (h.unloadHooks env) (setPhase name (some .unloading) h).2).2 = _ :=
    hcancel
  refine ⟨records, (hsteps _ _ _ _).trans ?_⟩
  rw [hcancel']
  exact htear

/-! ## Release -/

/-- Nothing is left of a script that had a control object, and all else is as it was. -/
structure Released (name : String) (number : ℕ) (h h' : Host γ α) : Prop where
  loaded : ∀ n, h'.loaded.get? n = if name = n then none else h.loaded.get? n
  environments : ∀ n, h'.environments.get? n = if name = n then none else h.environments.get? n
  phases : ∀ n, h'.phases.get? n = if name = n then none else h.phases.get? n
  unloaded : h'.phase name = .unloaded
  /-- The tasks that are tracked are those of the others. -/
  handles : h'.scheduler.handles = h.scheduler.handles.filter fun k => k.script != name
  /-- What is pinned are the callables of the tasks that are tracked. -/
  pinned : ∀ p, h'.scheduler.bridge.isPinned p = true ↔ ∃ k ∈ h'.scheduler.handles, k.pin = some p
  pins : ∀ k ∈ h'.scheduler.handles, ∀ p, k.pin = some p →
    h'.scheduler.bridge.get? p = h.scheduler.bridge.get? p
  /-- The tasks that wait in the runner are those of the others. -/
  waiting : h'.runner.queue = h.runner.queue.filter (isOthers name)
  objects : ∀ n,
    (h'.objects.owner? n =
      if h.objects.owner? n = some (.script name) then none else h.objects.owner? n) ∧
    h'.objects.get? n = if h.objects.owner? n = some (.script name) then none else h.objects.get? n
  commands : ∀ n, h'.commands.get? n = (h.commands.get? n).filter fun c => c.owner != name
  /-- The control object, which other scripts may have kept, is empty. -/
  control : ∃ c, h'.control? number = some c ∧ c.name = name ∧ c.loadHooks = [] ∧
    c.unloadHooks = [] ∧ c.commands = []
  controls : ∀ n, n ≠ number → h'.control? n = h.control? n

/-- To take a script away from a host in order, in which its hooks have done what they could, is to release
all that the script acquired. -/
theorem released_without {name : String} {h₁ h₂ : Host γ α} (h₀ : Orderly none h)
    (hbooks : KeepsBooks h₁ h₂) (huntouched : OthersUntouched name number h₁ h₂)
    (horder : Orderly none h₂) (hc : ControlOf name number h₂) (phases : Std.TreeMap String Phase)
    (hphases : ∀ n, n ≠ name → phases.get? n = h.phases.get? n)
    (hstart : h₁ = { h with phases := phases }) (records : Array Record) :
    Released name number h { h₂.without name number with records := records } := by
  subst hstart
  have htasks := huntouched.tasks.trans (sameTasks_cancelAll horder.tasks)
  have hcancelled := horder.tasks.cancelAll name
  have hhandles : (h₂.scheduler.dropAll name).handles =
      h.scheduler.handles.filter fun k => k.script != name := by
    rw [← htasks.handles]
    show _ = (h₂.scheduler.handles.filter _).filter _
    rw [List.filter_filter]
    simp [dropAll]
  have hothers : ∀ k ∈ (h₂.scheduler.dropAll name).handles, k ∈ h.scheduler.handles ∧ k.script ≠ name := by
    intro k hk
    rw [hhandles, List.mem_filter, bne_iff_ne] at hk
    exact hk
  have herased : ∀ {β : Type} (m : Std.TreeMap String β) n,
      (m.erase name).get? n = if name = n then none else m.get? n := fun m n =>
    NameMap.get?_erase m name n
  exact
    { loaded := fun n => (herased h₂.loaded n).trans (by rw [hbooks.loaded])
      environments := fun n => (herased h₂.environments n).trans (by rw [hbooks.environments])
      phases := fun n => by
        refine (herased h₂.phases n).trans ?_
        rw [hbooks.phases]
        -- the phase of the script itself may have changed before
        by_cases hn : name = n
        · rw [if_pos hn, if_pos hn]
        · rw [if_neg hn, if_neg hn]
          exact hphases n (Ne.symm hn)
      unloaded := by
        have hphase : (h₂.phases.erase name).get? name = none := (herased h₂.phases name).trans (if_pos rfl)
        have hout : (h₂.loaded.erase name).get? name = none := (herased h₂.loaded name).trans (if_pos rfl)
        simp only [phase, isLoaded, without, hphase, hout]
        rfl
      handles := hhandles
      pinned := hcancelled.balances.pinsMatch.isPinned_iff
      pins := fun k hk p hp => by
        obtain ⟨hold, hother⟩ := hothers k hk
        exact htasks.pins k hold hother p hp
      waiting := by
        refine Eq.trans ?_ htasks.queue
        refine (List.filter_eq_self.mpr fun e he => ?_).symm
        exact hcancelled.isOthers_of_no_handles (fun k hk => (hothers k hk).2) he
      objects := fun n => by
        -- what is left belongs to others, and that is what there was of theirs
        refine SharedObjects.eq_of_foreign? h₀.objects (horder.objects.releaseOwnedBy name)
          (fun m => ?_) (fun m hm => ?_) n
        · exact (SharedObjects.foreign?_releaseOwnedBy m).trans (huntouched.objects m)
        · rw [SharedObjects.owner?_releaseOwnedBy] at hm
          split at hm
          · cases hm
          · exact absurd hm ‹_›
      commands := fun n => by
        refine (CommandTable.get?_sync _ n).trans ?_
        rw [horder.commands.get?_withdraw_ownedBy, hbooks.commands]
      control := by
        obtain ⟨c, hcontrol, hname⟩ := hc
        refine ⟨c.clear, ?_, hname, rfl, rfl, rfl⟩
        refine (control?_modify (h := h₂) number number Control.clear).trans ?_
        rw [if_pos rfl, hcontrol]
        rfl
      controls := fun n hn => by
        refine (control?_modify (h := h₂) number n Control.clear).trans ?_
        rw [if_neg (Ne.symm hn)]
        exact huntouched.controls n hn }

/-- **Unloading releases everything.** In every reachable state of the host and for every loaded script,
whatever its unload hooks do with the script's own objects and whichever of them raise: unloading succeeds;
the script is loaded no more, and has no environment, phase, task, pin, shared object or published command;
its control object is empty; and everything that others have is as it was. -/
theorem unload_releases_everything (hg : g.KeepsToApi) (hreach : Reachable g h) {name : String}
    (hloaded : h.isLoaded name = true)
    (hhooks : ∀ env, h.environment? name = some env →
      HooksAreOwn g name env.control (h.unloadHooks env) (setPhase name (some .unloading) h).2) :
    ∃ env, h.environment? name = some env ∧ (unload g name h).1 = .ok () ∧
      Released name env.control h (unload g name h).2 := by
  have h₀ := hreach.orderly hg
  obtain ⟨env, henv⟩ := h₀.exists_environment hloaded
  have hstart := Tidy.setPhase name (some .unloading) h h₀
  have hc : ControlOf name env.control (setPhase name (some .unloading) h).2 :=
    (h₀.environment name env henv).2
  obtain ⟨horder, hbooks⟩ := Modest.runHooks hg name "unload" (h.unloadHooks env) none _ hstart
  -- the hooks leave the others alone, and what they leave behind of the script is torn down
  have huntouched := runHooks_untouched hg _ (hhooks env henv) hstart hc
  obtain ⟨records, heq⟩ := unload_eq henv hloaded horder.tasks.balances
  refine ⟨env, henv, by rw [heq], ?_⟩
  rw [heq]
  refine released_without h₀ hbooks huntouched horder (hc.keep hbooks)
    (h.phases.insert name .unloading) (fun n hn => ?_) rfl records
  rw [NameMap.get?_insert, if_neg (Ne.symm hn)]

/-! ## A script whose hook acquires more and raises -/

/-- The values of a small guest: globals, the body and the unload hook of one script, and a task. -/
inductive Probe where
  | globals (number : ℕ)
  | body (name : String) (number : ℕ)
  | hook (name : String) (number : ℕ)
  | task
deriving DecidableEq

namespace Probe

/-- The script, in the guest language. -/
def source : String := "
local function task() end
script:on_unload(function()
    scheduler:run(task)
    script:share(\"late\", task)
    error(\"hook\")
end)
script:share(\"early\", task)
script:register_command(\"greet\", task)
scheduler:run_repeating(1, 1, task)
"

/-- What each of its functions does. -/
def acts : Probe → List (Act Unit Probe)
  | .body name number => [
      .onUnload number (.hook name number),
      .share number "early" (some .task),
      .declare number ⟨"greet", none, .task⟩,
      .schedule name .task .sync (.repeating 1 1)]
  | .hook name number => [
      .schedule name .task .sync .immediate,
      .share number "late" (some .task)]
  | _ => []

/-- How a call ends. -/
def outcome : Probe → Except GuestError (List Probe)
  | .hook _ _ => .error (.runtime "hook")
  | _ => .ok []

/-- A guest that knows the one script. -/
def guest : Guest Unit Probe where
  createGlobals _ _ number := pure (.globals number)
  compile name globals text := pure <|
    match globals with
    | .globals number => if text == source then .ok (.body name number) else .error (.parsing "unknown")
    | _ => .error (.parsing "unknown")
  call f _ := fun h => (f.outcome, Act.performAll f.acts h)
  ofText _ := .task
  display _ := ""
  readVariable _ _ := pure none

theorem guest_keepsToApi : guest.KeepsToApi where
  createGlobals _ _ _ _ := ⟨[], rfl⟩
  compile _ _ _ _ := ⟨[], rfl⟩
  call f _ _ := ⟨f.acts, rfl⟩
  readVariable _ _ _ := ⟨[], rfl⟩

theorem run_state (f : Probe) (h : Host Unit Probe) :
    (guest.run f h).2 = Act.performAll f.acts h := rfl

/-- A new host that has loaded the script. -/
def loaded : Host Unit Probe := (load guest source "probe" { guest := () }).2

end Probe

theorem unload_releases_probe :
    (unload Probe.guest "probe" Probe.loaded).1 = .ok () ∧
      Released "probe" 0 Probe.loaded (unload Probe.guest "probe" Probe.loaded).2 := by
  have hreach : Reachable Probe.guest Probe.loaded :=
    .step (.new () .reject ⟨"scripts", "main.lua"⟩ {} ⟨0, 0⟩ #[]) (.load Probe.source "probe")
  have hcontrol : (Probe.loaded.environment? "probe").map Environment.control = some 0 := by
    decide +kernel
  have hhooks : (Probe.loaded.control? 0).map Control.unloadHooks = some [.hook "probe" 0] := by
    decide +kernel
  obtain ⟨env, henv, hok, hreleased⟩ := unload_releases_everything Probe.guest_keepsToApi hreach
    (by decide +kernel : Probe.loaded.isLoaded "probe" = true) fun env henv => by
      have hzero : env.control = 0 := by simpa [henv] using hcontrol
      rw [unloadHooks, hzero, hhooks]
      exact ⟨⟨Probe.acts (.hook "probe" 0), by simp [Probe.acts, Act.IsOwn], Probe.run_state _ _⟩,
        trivial⟩
  have hzero : env.control = 0 := by simpa [henv] using hcontrol
  exact ⟨hok, hzero ▸ hreleased⟩

end Host
end ScriptHost
