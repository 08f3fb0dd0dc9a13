import ScriptHost.Proofs.Host.Owners

/-!
# A failed load leaves no trace

A load can fail before anything is done, and then nothing has been done (`Attempt.refusal?`). It can fail while the
new body runs; then what the body acquired is discarded, and an instance that made room is gone as after an unload.
Whatever the body and the hooks did with the script's own objects, the others are spared (`Spares`) and nothing of
the script is left (`Absent`).
-/

namespace ScriptHost
namespace Host

open Scheduler

variable {γ α : Type} {g : Guest γ α} {h h' : Host γ α} {name : String}

/-! ## What belongs to others -/

/-- What belongs to other scripts, or to the host, is the same. -/
structure Spares (name : String) (h h' : Host γ α) : Prop where
  loaded : ∀ n, n ≠ name → h'.loaded.get? n = h.loaded.get? n
  environments : ∀ n, n ≠ name → h'.environments.get? n = h.environments.get? n
  phases : ∀ n, n ≠ name → h'.phases.get? n = h.phases.get? n
  tasks : SameTasks name h.runner h'.runner h.scheduler h'.scheduler
  objects : ∀ n, h'.objects.foreign? name n = h.objects.foreign? name n
  commands : ∀ n, (h'.commands.get? n).filter (fun c => c.owner != name) =
    (h.commands.get? n).filter fun c => c.owner != name
  controls : ∀ number c, h.control? number = some c → c.name ≠ name → h'.control? number = some c

theorem Spares.refl : Spares name h h :=
  ⟨fun _ _ => rfl, fun _ _ => rfl, fun _ _ => rfl, SameTasks.refl, fun _ => rfl, fun _ => rfl,
    fun _ _ hc _ => hc⟩

theorem Spares.trans {h'' : Host γ α} (h₁ : Spares name h h') (h₂ : Spares name h' h'') :
    Spares name h h'' where
  loaded n hn := (h₂.loaded n hn).trans (h₁.loaded n hn)
  environments n hn := (h₂.environments n hn).trans (h₁.environments n hn)
  phases n hn := (h₂.phases n hn).trans (h₁.phases n hn)
  tasks := h₁.tasks.trans h₂.tasks
  objects n := (h₂.objects n).trans (h₁.objects n)
  commands n := (h₂.commands n).trans (h₁.commands n)
  controls number c hc hother := h₂.controls number c (h₁.controls number c hc hother) hother

theorem Spares.logged (hspares : Spares name h h') (records : Array Record) :
    Spares name h { h' with records := records } :=
  ⟨hspares.loaded, hspares.environments, hspares.phases, hspares.tasks, hspares.objects,
    hspares.commands, hspares.controls⟩

theorem Spares.setPhase (hspares : Spares name h h') (phase : Option Phase) :
    Spares name h (Host.setPhase name phase h').2 := by
  refine ⟨hspares.loaded, hspares.environments, fun n hn => ?_, hspares.tasks, hspares.objects,
    hspares.commands, hspares.controls⟩
  refine Eq.trans ?_ (hspares.phases n hn)
  cases phase with
  | none =>
    show (h'.phases.erase name).get? n = _
    rw [NameMap.get?_erase, if_neg (Ne.symm hn)]
  | some phase =>
    show (h'.phases.insert name phase).get? n = _
    rw [NameMap.get?_insert, if_neg (Ne.symm hn)]

end Host

/-! ## Guest code in a script's own name -/

/-- The act uses a control object of a script, its scheduler, or nothing of anyone's. -/
def Act.InNameOf {γ α : Type} (script : String) (h : Host γ α) (act : Act γ α) : Prop :=
  ∃ number, Host.ControlOf script number h ∧ act.IsOwn script number

namespace Host

open Scheduler

variable {γ α : Type} {g : Guest γ α} {h h' : Host γ α} {name : String}

/-- Whatever the guest does to the host in the stint it does with objects of a script. -/
def Stint.InNameOf (script : String) (st : Stint γ α) : Prop :=
  ∃ acts : List (Act γ α), (∀ act ∈ acts, act.InNameOf script st.before) ∧
    st.after = Act.performAll acts st.before

theorem Act.perform_spares (act : Act γ α) (hown : act.InNameOf name h) (h₀ : Orderly none h) :
    Spares name h (act.perform h) := by
  obtain ⟨number, hc, hown⟩ := hown
  have huntouched := Act.perform_untouched act hown h₀ hc
  have hbooks := (act.perform_orderly h₀).2
  refine ⟨fun n _ => by rw [hbooks.loaded], fun n _ => by rw [hbooks.environments],
    fun n _ => by rw [hbooks.phases], huntouched.tasks, huntouched.objects,
    fun n => by rw [hbooks.commands], fun m c hm hother => ?_⟩
  rw [huntouched.controls m (hc.ne hm hother)]
  exact hm

theorem Act.performAll_spares (acts : List (Act γ α)) (hown : ∀ act ∈ acts, act.InNameOf name h)
    (h₀ : Orderly none h) : Spares name h (Act.performAll acts h) := by
  induction acts generalizing h with
  | nil => exact Spares.refl
  | cons act acts ih =>
    rw [List.forall_mem_cons] at hown
    obtain ⟨hnext, hbooks⟩ := act.perform_orderly h₀
    -- an act does not change whose a control object is
    have hrest : ∀ act' ∈ acts, act'.InNameOf name (act.perform h) := by
      intro act' hact'
      obtain ⟨number, hc, hown'⟩ := hown.2 act' hact'
      exact ⟨number, hc.keep hbooks, hown'⟩
    exact (Act.perform_spares act hown.1 h₀).trans (ih hrest hnext)

theorem Stint.InNameOf.spares {st : Stint γ α} (hown : st.InNameOf name)
    (h₀ : Orderly none st.before) : Spares name st.before st.after := by
  obtain ⟨acts, hacts, heq⟩ := hown
  rw [heq]
  exact Act.performAll_spares acts hacts h₀

/-! ## Clean-up -/

/-- What a script is, and has, at a host that has nothing of it. -/
structure Absent (name : String) (h : Host γ α) : Prop where
  loaded : h.isLoaded name = false
  environment : h.environment? name = none
  phase : h.phases.get? name = none
  tasks : ∀ k ∈ h.scheduler.handles, k.script ≠ name
  pins : ∀ p, h.scheduler.bridge.isPinned p = true →
    ∃ k ∈ h.scheduler.handles, k.pin = some p ∧ k.script ≠ name
  waiting : ∀ e ∈ h.runner.queue, isOthers name e = true
  objects : ∀ n, h.objects.owner? n ≠ some (.script name)
  commands : ∀ n c, h.commands.get? n = some c → c.owner ≠ name

/-- A script that is not loaded is absent, if it has no tasks and no shared objects. -/
theorem Orderly.absent (h₀ : Orderly none h) (hcommands : CommandsLoaded h)
    (hloaded : h.isLoaded name = false) (hphase : h.phases.get? name = none)
    (htasks : ∀ k ∈ h.scheduler.handles, k.script ≠ name)
    (hobjects : ∀ n, h.objects.owner? n ≠ some (.script name)) : Absent name h where
  loaded := hloaded
  environment := by
    rw [h₀.isLoaded_eq] at hloaded
    exact Option.isNone_iff_eq_none.mp (Option.isSome_eq_false_iff.mp hloaded)
  phase := hphase
  tasks := htasks
  pins p hp := by
    obtain ⟨k, hk, hpin⟩ := (h₀.tasks.balances.pinsMatch.isPinned_iff p).mp hp
    exact ⟨k, hk, hpin, htasks k hk⟩
  waiting e he := h₀.tasks.isOthers_of_no_handles htasks he
  objects := hobjects
  commands n c hc howner := by
    have howned := hcommands n c hc
    rw [howner, hloaded] at howned
    cases howned

/-- To discard what a script acquired spares the others. -/
theorem spares_discarded (h₀ : Orderly none h) {control : ℕ} (hc : ControlOf name control h) :
    Spares name h (h.discarded name control) := by
  refine ⟨fun _ _ => rfl, fun _ _ => rfl, fun _ _ => rfl, sameTasks_cancelAll h₀.tasks,
    SharedObjects.foreign?_releaseOwnedBy, fun _ => rfl, fun m c hm hother => ?_⟩
  refine (control?_modify (h := h) control m Control.clear).trans ?_
  rw [if_neg (hc.ne hm hother).symm]
  exact hm

/-- To take a script away spares the others. -/
theorem spares_without (h₀ : Orderly none h) {control : ℕ} (hc : ControlOf name control h) :
    Spares name h (h.without name control) := by
  have hdiscarded := spares_discarded h₀ hc
  have herased : ∀ {β : Type} (m : Std.TreeMap String β) n, n ≠ name →
      (m.erase name).get? n = m.get? n := by
    intro β m n hn
    rw [NameMap.get?_erase, if_neg (Ne.symm hn)]
  refine ⟨herased h.loaded, herased h.environments, herased h.phases, hdiscarded.tasks,
    hdiscarded.objects, fun n => ?_, hdiscarded.controls⟩
  show ((h.commands.withdraw (h.commands.ownedBy name)).sync.2.get? n).filter _ = _
  rw [CommandTable.get?_sync, h₀.commands.get?_withdraw_ownedBy]
  cases h.commands.get? n with
  | none => rfl
  | some c => cases hother : c.owner != name <;> simp [Option.filter, hother]

/-! ## Hooks and bodies -/

/-- Guest code in a script's own name spares the others further on. -/
theorem Stint.InNameOf.spares_from {st : Stint γ α} (hown : st.InNameOf name)
    (h₀ : Orderly none st.before) (hspares : Spares name h st.before) : Spares name h st.after :=
  hspares.trans (hown.spares h₀)

theorem spares_withControl (hspares : Spares name h h') (origin : Origin) :
    Spares name h (h'.withControl name origin) := by
  refine hspares.trans ⟨fun _ _ => rfl, fun _ _ => rfl, fun _ _ => rfl, SameTasks.refl, fun _ => rfl,
    fun _ => rfl, fun m c hm _ => ?_⟩
  obtain ⟨hlt, heq⟩ := Array.getElem?_eq_some_iff.mp hm
  show (h'.controls.push _)[m]? = some c
  rw [Array.getElem?_push_lt hlt]
  exact congrArg some heq

/-- The unload of a loaded script leaves nothing of it, and spares the others. -/
theorem unload_absent (hg : g.KeepsToApi) (h₀ : Orderly none h) (hsettled : Settled h)
    (hcommands : CommandsLoaded h) (hloaded : h.isLoaded name = true)
    (hown : ∀ st ∈ unloadStints g name h, st.InNameOf name) :
    (unload g name h).1 = .ok () ∧ Spares name h (unload g name h).2 ∧
      Absent name (unload g name h).2 := by
  have haccounted := unload_accounted hg name h₀
  have horder := Tidy.unload hg name h h₀
  obtain ⟨env, records, henv, heq⟩ := h₀.unload_eq hg hloaded
  obtain ⟨hhooks₀, hbooks⟩ := afterHooks_orderly hg name env h₀
  have hstart : ControlOf name env.control (setPhase name (some .unloading) h).2 :=
    (h₀.environment name env henv).2
  have hc := hstart.keep hbooks
  rw [unloadStints_of_loaded henv hloaded] at hown
  -- the hooks act in the name of the script, and what they leave behind is taken away
  have hhooks : Spares name h (afterHooks g name env h) :=
    runHooks_keeps hg (fun _ records hspares => hspares.logged records) name "unload" _
      (Tidy.setPhase name _ h h₀) (fun st hst => (hown st hst).spares_from)
      (Spares.refl.setPhase (some .unloading))
  refine ⟨by rw [heq], ?_, horder.absent (haccounted.commands hcommands) ?_
    (haccounted.settled hsettled name) (fun k hk => ?_) fun n hn => ?_⟩
  · rw [heq]
    exact (hhooks.trans (spares_without hhooks₀ hc)).logged records
  · rw [heq]
    show (((afterHooks g name env h).loaded.erase name).get? name).getD false = false
    rw [NameMap.get?_erase, if_pos rfl]
    rfl
  · rw [heq] at hk
    exact (mem_dropAll.mp hk).2
  · rw [heq] at hn
    exact (SharedObjects.owner?_of_release hn).2 rfl

/-- The registry's maps and the command table are the same. -/
structure SameRegistry (h h' : Host γ α) : Prop where
  loaded : h'.loaded = h.loaded
  environments : h'.environments = h.environments
  commands : h'.commands = h.commands

/-- A load of a script that is not loaded fails: nothing of the script is left, and the others are spared. -/
theorem bringUp_absent (hg : g.KeepsToApi) (h₀ : Orderly none h) (hsettled : Settled h)
    (hcommands : CommandsLoaded h) (hloaded : h.isLoaded name = false) {origin : Origin}
    {source : String} (hown : ∀ st ∈ bringUpStints g name origin source h, st.InNameOf name)
    {e : HostError} (herror : (bringUp g name origin source h).1 = .error e) :
    Spares name h (bringUp g name origin source h).2 ∧
      Absent name (bringUp g name origin source h).2 ∧
      SameRegistry h (bringUp g name origin source h).2 := by
  have haccounted := bringUp_accounted hg name origin source h₀
  have hbegun := Tidy.setPhase name (some .loading) h h₀
  obtain ⟨hsource₀, hbooks⟩ := afterSource_orderly hg name origin source hbegun
  rcases instantiate_cases hg name origin source hbegun with hok | ⟨e', records, hfailed⟩
  · rw [bringUp_of_ok hok] at herror
    cases herror
  · obtain ⟨records', heq⟩ := bringUp_of_error hfailed
    -- the body acts in the name of the script, whose tasks and objects are discarded
    have hbody : Spares name h (afterSource g name origin source (setPhase name (some .loading) h).2) :=
      afterSource_keeps hg (fun _ records hspares => hspares.logged records) name origin source hbegun
        (fun hspares => spares_withControl hspares origin)
        (fun st hst => (hown st (List.mem_append_left _ hst)).spares_from)
        (Spares.refl.setPhase (some .loading))
    have hc := afterSource_control hg name origin source hbegun
    have hspares := ((hbody.trans (spares_discarded hsource₀ hc)).logged records).setPhase none
    have horder := Tidy.bringUp hg name origin source h h₀
    have hsame : SameRegistry h (bringUp g name origin source h).2 := by
      rw [heq]
      exact ⟨hbooks.loaded, hbooks.environments, hbooks.commands⟩
    refine ⟨?_, horder.absent (haccounted.commands hcommands) ?_ (haccounted.settled hsettled name)
      (fun k hk => ?_) fun n hn => ?_, hsame⟩
    · rw [heq]
      exact hspares.logged records'
    · rw [isLoaded, hsame.loaded]
      exact hloaded
    · rw [heq] at hk
      exact (mem_dropAll.mp hk).2
    · rw [heq] at hn
      exact (SharedObjects.owner?_of_release hn).2 rfl

/-! ## Attempts -/

/-- The ways to load a script. -/
inductive Attempt where
  | load (source : String)
  | loadBundle
  | reload

/-- Try it. -/
def Attempt.run (g : Guest γ α) (name : String) : Attempt → HostM γ α (Except HostError Unit)
  | .load source => Host.load g source name
  | .loadBundle => Host.loadBundle g name
  | .reload => Host.reload g name

/-- The stints of an attempt. -/
def Attempt.stints (g : Guest γ α) (name : String) : Attempt → Host γ α → List (Stint γ α)
  | .load source, h => loadStints g source name h
  | .loadBundle, h => loadBundleStints g name h
  | .reload, h => reloadStints g name h

/-- The error of a load that finds a loaded instance in its way. -/
def obstacle? (h : Host γ α) (name : String) : Option HostError :=
  match h.isLoaded name, h.policy with
  | true, .reject => some (.alreadyLoaded name)
  | _, _ => none

/-- Why an attempt fails before an existing instance is unloaded, if it does. -/
def Attempt.refusal? (name : String) (h : Host γ α) : Attempt → Option HostError
  | .load _ => if isScriptName name then h.obstacle? name else some (nameError name)
  | .loadBundle =>
    if isScriptName name then
      match h.bundles.read h.files name with
      | .error e => some e
      | .ok _ => h.obstacle? name
    else some (nameError name)
  | .reload => if h.isLoaded name then none else some (.notLoaded name)

/-- What becomes of an attempt that fails: nothing, if it is refused; else nothing of the script is left. -/
structure Undone (name : String) (refusal : Option HostError) (e : HostError) (h h' : Host γ α) :
    Prop where
  refused : ∀ reason, refusal = some reason → e = reason ∧ h' = h
  cleaned : refusal = none → Spares name h h' ∧ Absent name h' ∧
    (h.isLoaded name = false → SameRegistry h h')

theorem Undone.refuse (e : HostError) : Undone name (some e) e h h :=
  ⟨fun _ hreason => ⟨Option.some.inj hreason, rfl⟩, fun hnone => nomatch hnone⟩

theorem loadFrom_undone (hg : g.KeepsToApi) (h₀ : Orderly none h) (hsettled : Settled h)
    (hcommands : CommandsLoaded h) {origin : Origin} {source : String}
    (hown : ∀ st ∈ loadFromStints g name origin source h, st.InNameOf name) {e : HostError}
    (herror : (loadFrom g name origin source h).1 = .error e) :
    Undone name (h.obstacle? name) e h (loadFrom g name origin source h).2 := by
  rw [loadFrom_eq, bind_run] at herror ⊢
  unfold loadFromStints at hown
  cases hloaded : h.isLoaded name with
  | false =>
    -- nothing is in the way
    have hroom := makeRoom_of_not_loaded (g := g) hloaded
    rw [hroom] at herror hown ⊢
    have hbody := fun st hst => hown st (List.mem_append_right _ hst)
    obtain ⟨hspares, habsent, hsame⟩ := bringUp_absent hg h₀ hsettled hcommands hloaded hbody herror
    refine ⟨fun reason hreason => ?_, fun _ => ⟨hspares, habsent, fun _ => hsame⟩⟩
    rw [obstacle?, hloaded] at hreason
    cases hreason
  | true =>
    cases hpolicy : h.policy with
    | reject =>
      have hroom := makeRoom_of_reject (g := g) hloaded hpolicy
      rw [hroom] at herror ⊢
      have hobstacle : h.obstacle? name = some (.alreadyLoaded name) := by
        rw [obstacle?, hloaded, hpolicy]
      obtain rfl : HostError.alreadyLoaded name = e := Except.error.inj herror
      rw [hobstacle]
      exact Undone.refuse _
    | reload =>
      -- the instance makes room, as by an unload, and then the new one is not brought up
      have hroom := makeRoom_of_reload (g := g) hloaded hpolicy
      have hlogged := Tidy.log (lifeRecord .info s!"Script '{name}' is already loaded, replacing it")
        h h₀
      have haccounted := unload_accounted hg name hlogged
      rw [hroom] at herror hown ⊢
      rw [makeRoomStints_of_reload hloaded hpolicy] at hown
      obtain ⟨hok, hspares, habsent⟩ := unload_absent hg hlogged hsettled hcommands hloaded
        fun st hst => hown st (List.mem_append_left _ hst)
      rw [hok] at herror hown ⊢
      obtain ⟨hspares', habsent', _⟩ := bringUp_absent hg (Tidy.unload hg name _ hlogged)
        (haccounted.settled hsettled) (haccounted.commands hcommands) habsent.loaded
        (fun st hst => hown st (List.mem_append_right _ hst)) herror
      refine ⟨fun reason hreason => ?_, fun _ => ⟨?_, habsent', fun hnot => ?_⟩⟩
      · rw [obstacle?, hloaded, hpolicy] at hreason
        cases hreason
      · exact (Spares.refl.logged _).trans (hspares.trans hspares')
      · rw [hloaded] at hnot
        cases hnot

theorem load_undone (hg : g.KeepsToApi) (h₀ : Orderly none h) (hsettled : Settled h)
    (hcommands : CommandsLoaded h) {source : String}
    (hown : ∀ st ∈ loadStints g source name h, st.InNameOf name) {e : HostError}
    (herror : (load g source name h).1 = .error e) :
    Undone name (Attempt.refusal? name h (.load source)) e h (load g source name h).2 := by
  unfold load at herror ⊢
  unfold loadStints at hown
  unfold Attempt.refusal?
  cases hname : isScriptName name with
  | false =>
    rw [hname] at herror
    obtain rfl : nameError name = e := Except.error.inj herror
    exact Undone.refuse _
  | true =>
    rw [hname] at herror hown
    exact loadFrom_undone hg h₀ hsettled hcommands hown herror

theorem loadBundle_undone (hg : g.KeepsToApi) (h₀ : Orderly none h) (hsettled : Settled h)
    (hcommands : CommandsLoaded h) (hown : ∀ st ∈ loadBundleStints g name h, st.InNameOf name)
    {e : HostError} (herror : (loadBundle g name h).1 = .error e) :
    Undone name (Attempt.refusal? name h .loadBundle) e h (loadBundle g name h).2 := by
  unfold loadBundle at herror ⊢
  unfold loadBundleStints at hown
  unfold Attempt.refusal?
  cases hname : isScriptName name with
  | false =>
    rw [hname] at herror
    obtain rfl : nameError name = e := Except.error.inj herror
    exact Undone.refuse _
  | true =>
    rw [hname] at herror hown
    simp only [if_true] at herror hown ⊢
    rw [read_bind] at herror ⊢
    cases hread : h.bundles.read h.files name with
    | error reason =>
      rw [hread] at herror
      obtain rfl : reason = e := Except.error.inj herror
      exact Undone.refuse _
    | ok entry =>
      rw [hread] at herror hown
      exact loadFrom_undone hg h₀ hsettled hcommands hown herror

/-- A load of a script that is not there fails, for whatever reason, and it is still not there. -/
theorem Undone.absent {refusal : Option HostError} {e : HostError}
    (hundone : Undone name refusal e h h') (habsent : Absent name h) :
    Spares name h h' ∧ Absent name h' := by
  cases hrefusal : refusal with
  | some reason =>
    rw [(hundone.refused reason hrefusal).2]
    exact ⟨Spares.refl, habsent⟩
  | none =>
    obtain ⟨hspares, habsent', _⟩ := hundone.cleaned hrefusal
    exact ⟨hspares, habsent'⟩

theorem reload_undone (hg : g.KeepsToApi) (h₀ : Orderly none h) (hsettled : Settled h)
    (hcommands : CommandsLoaded h) (hown : ∀ st ∈ reloadStints g name h, st.InNameOf name)
    {e : HostError} (herror : (reload g name h).1 = .error e) :
    Undone name (Attempt.refusal? name h .reload) e h (reload g name h).2 := by
  rw [reload_eq, read_bind] at herror ⊢
  unfold reloadStints at hown
  unfold Attempt.refusal?
  cases henv : h.environment? name with
  | none =>
    rw [henv] at herror
    have hloaded : h.isLoaded name = false := by
      rw [h₀.isLoaded_eq, henv]
      rfl
    rw [hloaded]
    obtain rfl : HostError.notLoaded name = e := Except.error.inj herror
    exact Undone.refuse _
  | some env =>
    have hloaded : h.isLoaded name = true := by
      rw [h₀.isLoaded_eq, henv]
      rfl
    have haccounted := unload_accounted hg name h₀
    have horder := Tidy.unload hg name h h₀
    rw [henv] at herror hown
    dsimp only at herror hown ⊢
    obtain ⟨hok, hspares, habsent⟩ := unload_absent hg h₀ hsettled hcommands hloaded
      fun st hst => hown st (List.mem_append_left _ hst)
    rw [bind_run, hok] at herror ⊢
    rw [hok] at hown
    dsimp only at herror hown ⊢
    have hagain := fun st hst => hown st (List.mem_append_right _ hst)
    -- the second half is a load of its own, and may be refused; the script is absent all the same
    have hundone : Spares name (unload g name h).2 (loadAgain g name env.origin (unload g name h).2).2 ∧
        Absent name (loadAgain g name env.origin (unload g name h).2).2 := by
      cases horigin : env.origin with
      | bundle folder =>
        rw [horigin] at herror hagain
        exact (loadBundle_undone hg horder (haccounted.settled hsettled)
          (haccounted.commands hcommands) hagain herror).absent habsent
      | inline source =>
        rw [horigin] at herror hagain
        exact (loadFrom_undone hg horder (haccounted.settled hsettled)
          (haccounted.commands hcommands) hagain herror).absent habsent
    rw [hloaded]
    refine ⟨fun reason hreason => (nomatch hreason), fun _ => ⟨?_, hundone.2, fun hnot => ?_⟩⟩
    · exact hspares.trans hundone.1
    · rw [hloaded] at hnot
      cases hnot

theorem Attempt.undone (hg : g.KeepsToApi) (attempt : Attempt) (h₀ : Orderly none h)
    (hsettled : Settled h) (hcommands : CommandsLoaded h)
    (hown : ∀ st ∈ attempt.stints g name h, st.InNameOf name) {e : HostError}
    (herror : (attempt.run g name h).1 = .error e) :
    Undone name (attempt.refusal? name h) e h (attempt.run g name h).2 := by
  cases attempt with
  | load source => exact load_undone hg h₀ hsettled hcommands hown herror
  | loadBundle => exact loadBundle_undone hg h₀ hsettled hcommands hown herror
  | reload => exact reload_undone hg h₀ hsettled hcommands hown herror

theorem Attempt.tidy (hg : g.KeepsToApi) (attempt : Attempt) (name : String) :
    Tidy (attempt.run g name) := by
  cases attempt with
  | load source => exact Tidy.load hg source name
  | loadBundle => exact Tidy.loadBundle hg name
  | reload => exact Tidy.reload hg name

/-! ## As before -/

/-- The maps of the registry, the command table, the shared objects and the tasks are as before. -/
structure Restored (h h' : Host γ α) : Prop where
  loaded : h'.loaded = h.loaded
  environments : h'.environments = h.environments
  phases : ∀ n, h'.phases.get? n = h.phases.get? n
  commands : h'.commands = h.commands
  objects : ∀ n, h'.objects.owner? n = h.objects.owner? n ∧ h'.objects.get? n = h.objects.get? n
  handles : h'.scheduler.handles = h.scheduler.handles
  pins : ∀ p, h'.scheduler.bridge.get? p = h.scheduler.bridge.get? p
  queue : h'.runner.queue = h.runner.queue

theorem Restored.refl : Restored h h :=
  ⟨rfl, rfl, fun _ => rfl, rfl, fun _ => ⟨rfl, rfl⟩, rfl, fun _ => rfl, rfl⟩

/-- If there was nothing of a script and there is nothing of it, to spare the others is to leave all as before. -/
theorem Spares.restored (hspares : Spares name h h') (hsame : SameRegistry h h')
    (h₀ : Orderly none h) (h₀' : Orderly none h') (habsent : Absent name h)
    (habsent' : Absent name h') : Restored h h' := by
  have hnone : ∀ {h : Host γ α}, Absent name h →
      (h.scheduler.handles.filter fun k => k.script != name) = h.scheduler.handles :=
    fun habsent => List.filter_eq_self.mpr fun k hk => bne_iff_ne.mpr (habsent.tasks k hk)
  have hhandles : h'.scheduler.handles = h.scheduler.handles := by
    rw [← hnone habsent', ← hnone habsent]
    exact hspares.tasks.handles
  have hwaiting : ∀ {h : Host γ α}, Absent name h →
      h.runner.queue.filter (isOthers name) = h.runner.queue :=
    fun habsent => List.filter_eq_self.mpr habsent.waiting
  constructor
  case loaded => exact hsame.loaded
  case environments => exact hsame.environments
  case commands => exact hsame.commands
  case handles => exact hhandles
  case phases =>
    intro n
    by_cases hn : n = name
    · rw [hn, habsent'.phase, habsent.phase]
    · exact hspares.phases n hn
  case objects =>
    intro n
    have hobjects := SharedObjects.eq_of_foreign? h₀.objects h₀'.objects hspares.objects
      habsent'.objects n
    rw [if_neg (habsent.objects n), if_neg (habsent.objects n)] at hobjects
    exact hobjects
  case pins =>
    intro p
    cases hpinned : h.scheduler.bridge.isPinned p with
    | true =>
      obtain ⟨k, hk, hpin, hother⟩ := habsent.pins p hpinned
      exact hspares.tasks.pins k hk hother p hpin
    | false =>
      -- a pin is held by a handle on the one side as on the other
      have hpinned' : h'.scheduler.bridge.isPinned p = false := by
        rw [Bool.eq_false_iff] at hpinned ⊢
        intro hp
        obtain ⟨k, hk, hpin⟩ := (h₀'.tasks.balances.pinsMatch.isPinned_iff p).mp hp
        rw [hhandles] at hk
        exact hpinned ((h₀.tasks.balances.pinsMatch.isPinned_iff p).mpr ⟨k, hk, hpin⟩)
      rw [Option.isSome_eq_false_iff.mp hpinned' |> Option.isNone_iff_eq_none.mp,
        Option.isSome_eq_false_iff.mp hpinned |> Option.isNone_iff_eq_none.mp]
  case queue =>
    rw [← hwaiting habsent', ← hwaiting habsent]
    exact hspares.tasks.queue

/-- **A failed load leaves no trace.** Let a load, a load of a bundle or a reload fail, at a reachable host at which
scripts that are not loaded own nothing, and let its guest code have acted in the script's own name. Then all that
belongs to others is the same and the script has no phase. If there was a reason to refuse the attempt, that is the
error and the host is the same altogether; else the script is not loaded and owns nothing. If it was not loaded
before, the maps of the registry, the command table, the shared objects and the tasks are as before. -/
theorem failed_load_leaves_no_trace (hg : g.KeepsToApi) (hreach : Reachable g h)
    (howners : OwnersLoaded h) (attempt : Attempt) (name : String)
    (hown : ∀ st ∈ attempt.stints g name h, st.InNameOf name) {e : HostError}
    (herror : (attempt.run g name h).1 = .error e) :
    let h' := (attempt.run g name h).2
    Spares name h h' ∧ h'.phases.get? name = none ∧
      (∀ reason, attempt.refusal? name h = some reason → e = reason ∧ h' = h) ∧
      (attempt.refusal? name h = none → Absent name h') ∧
      (h.isLoaded name = false → Restored h h') := by
  intro h'
  have h₀ := hreach.orderly hg
  have hsettled := hreach.settled hg
  have hundone := attempt.undone hg h₀ hsettled howners.commands hown herror
  have h₀' : Orderly none h' := attempt.tidy hg name h h₀
  cases hrefusal : attempt.refusal? name h with
  | some reason =>
    obtain ⟨hreason, hsame⟩ := hundone.refused reason hrefusal
    have hsame : h' = h := hsame
    rw [hsame]
    refine ⟨Spares.refl, hsettled name, fun reason' hreason' => ⟨?_, rfl⟩,
      fun hnone => (nomatch hnone), fun _ => Restored.refl⟩
    rw [hreason]
    exact Option.some.inj hreason'
  | none =>
    obtain ⟨hspares, habsent', hsame⟩ := hundone.cleaned hrefusal
    refine ⟨hspares, habsent'.phase, fun _ hreason => (nomatch hreason), fun _ => habsent',
      fun hloaded => ?_⟩
    -- a script that is not loaded owns nothing to begin with
    have habsent : Absent name h := by
      refine h₀.absent howners.commands hloaded (hsettled name) (fun k hk hscript => ?_) fun n hn => ?_
      · have howned := howners.tasks k hk
        rw [hscript, hloaded] at howned
        cases howned
      · have howned := howners.objects n name hn
        rw [hloaded] at howned
        cases howned
    exact hspares.restored (hsame hloaded) h₀ h₀' habsent habsent'

/-! ## A replacement that fails -/

/-- The values of a small guest: globals, two bodies of one script and the unload hook of the first, and a task. -/
inductive Trial where
  | globals (number : ℕ)
  | first (number : ℕ)
  | second (number : ℕ)
  | hook (number : ℕ)
  | task
deriving DecidableEq

namespace Trial

/-- What each of its functions does. -/
def acts : Trial → List (Act Unit Trial)
  | .first number => [.onUnload number (.hook number), .share number "first" (some .task)]
  | .hook number => [.share number "late" (some .task), .schedule "trial" .task .sync .immediate]
  | .second number => [
      .schedule "trial" .task .sync (.repeating 1 1),
      .share number "second" (some .task),
      .declare number ⟨"try", none, .task⟩]
  | _ => []

/-- How a call ends. -/
def outcome : Trial → Except GuestError (List Trial)
  | .second _ => .error (.runtime "second")
  | _ => .ok []

/-- A guest that knows the two bodies by their sources. -/
def guest : Guest Unit Trial where
  createGlobals _ _ number := pure (.globals number)
  compile _ globals source := pure <|
    match globals with
    | .globals number => .ok (if source == "first" then .first number else .second number)
    | _ => .error (.parsing "no globals")
  call f _ := fun h => (f.outcome, Act.performAll f.acts h)
  ofText _ := .task
  display _ := ""
  readVariable _ _ := pure none

theorem guest_keepsToApi : guest.KeepsToApi where
  createGlobals _ _ _ _ := ⟨[], rfl⟩
  compile _ _ _ _ := ⟨[], rfl⟩
  call f _ _ := ⟨f.acts, rfl⟩
  readVariable _ _ _ := ⟨[], rfl⟩

/-- A new host that replaces loaded instances. -/
def start : Host Unit Trial := { guest := (), policy := .reload }

/-- The host that has loaded the first body. -/
def loaded : Host Unit Trial := execAll guest [.load "first" "trial"] start

theorem loaded_reachable : Reachable guest loaded :=
  .step (.new () .reload ⟨"scripts", "main.lua"⟩ {} ⟨0, 0⟩ #[]) (.load "first" "trial")

theorem loaded_owners : OwnersLoaded loaded := by
  have hnew : Reachable guest start := .new () .reload ⟨"scripts", "main.lua"⟩ {} ⟨0, 0⟩ #[]
  have hcommands : CommandsLoaded start := commandsLoaded_new () .reload _ _ _ _
  have hempty : OwnersLive start := ownersLive_new () .reload _ _ _ _
  refine execAll_ownersLoaded guest_keepsToApi [.load "first" "trial"] ?_
    (hnew.orderly guest_keepsToApi) (hnew.settled guest_keepsToApi) hcommands
    hempty ?_
  · simp [Operation.IsNeutral]
  · -- globals, chunk and body
    show ∀ st ∈ [_, _, _], Stint.IsLive st
    simp only [List.forall_mem_cons]
    refine ⟨⟨[], trivial, rfl⟩, ⟨[], trivial, rfl⟩,
      ⟨acts (.first 0), ⟨trivial, fun _ => .inr ?_, trivial⟩, rfl⟩, fun _ hst => nomatch hst⟩
    decide +kernel

/-- The hook of the first body and the second body do what they do in the script's own name. -/
theorem stints_inNameOf :
    ∀ st ∈ Attempt.stints guest "trial" (.load "second") loaded, st.InNameOf "trial" := by
  -- the hook, then globals, chunk and body
  show ∀ st ∈ [_, _, _, _], Stint.InNameOf "trial" st
  simp only [List.forall_mem_cons]
  refine ⟨⟨acts (.hook 0), fun act hact => ⟨0, controlOf_iff.mpr ?_, ?_⟩, rfl⟩,
    ⟨[], fun _ hact => (nomatch hact), rfl⟩, ⟨[], fun _ hact => (nomatch hact), rfl⟩,
    ⟨acts (.second 1), fun act hact => ⟨1, controlOf_iff.mpr ?_, ?_⟩, rfl⟩,
    fun _ hst => nomatch hst⟩
  · decide +kernel
  · simp only [acts, List.mem_cons, List.not_mem_nil, or_false] at hact
    rcases hact with rfl | rfl <;> rfl
  · decide +kernel
  · simp only [acts, List.mem_cons, List.not_mem_nil, or_false] at hact
    rcases hact with rfl | rfl | rfl <;> rfl

end Trial

/-- The replacement fails, and the instance that made room is gone as well. -/
theorem failed_replacement_leaves_no_trace :
    (load Trial.guest "second" "trial" Trial.loaded).1.isOk = false ∧
      Spares "trial" Trial.loaded (load Trial.guest "second" "trial" Trial.loaded).2 ∧
      Absent "trial" (load Trial.guest "second" "trial" Trial.loaded).2 := by
  have hfails : (load Trial.guest "second" "trial" Trial.loaded).1.isOk = false := by
    decide +kernel
  cases herror : (load Trial.guest "second" "trial" Trial.loaded).1 with
  | ok _ =>
    rw [herror] at hfails
    cases hfails
  | error e =>
    obtain ⟨hspares, -, -, habsent, -⟩ := failed_load_leaves_no_trace Trial.guest_keepsToApi
      Trial.loaded_reachable Trial.loaded_owners (.load "second") "trial" Trial.stints_inNameOf herror
    exact ⟨rfl, hspares, habsent (by decide +kernel)⟩

end Host
end ScriptHost
