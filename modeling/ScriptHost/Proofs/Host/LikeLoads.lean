import ScriptHost.Proofs.Host.LikeActs
import ScriptHost.Proofs.Host.Stints

/-!
# Loads that are alike

In hosts that are alike a script is loaded alike, if the guest code that the load runs does the like in both
(`Guest.LoadsAlike`): the result is the same, and the hosts are alike afterwards. This holds of each step of a load
(`Parallel`), and so of the whole (`Parallel.bringUp`, `Host.loadAgain_alike`).
-/

namespace ScriptHost
namespace Likeness

open Host Scheduler

variable {γ α β : Type} {L : Likeness γ α} {w₀ w w' : L.World} {g : Guest γ α} {h₁ h₂ : Host γ α}

/-! ## Loaded scripts -/

/-- Environments that are alike declare like commands. -/
theorem LikeEnvironment.declared {d e : Environment α} (hde : L.LikeEnvironment w d e) (hlike : L.LikeHost w h₁ h₂) :
    List.Forall₂ (L.LikeCommand w) (h₁.declared d) (h₂.declared e) := by
  have heq : ∀ (h : Host γ α) (env : Environment α),
      h.declared env = ((h.control? env.control).map Control.commands).getD [] := by
    intro h env
    unfold Host.declared
    cases h.control? env.control <;> rfl
  rw [heq, heq]
  exact forall₂_getD (hlike.controls.like _ _ hde.control) fun _ _ hcd => hcd.commands

/-- Environments that are alike have like load hooks. -/
theorem LikeEnvironment.loadHooks {d e : Environment α} (hde : L.LikeEnvironment w d e) (hlike : L.LikeHost w h₁ h₂) :
    List.Forall₂ (L.hook w) (h₁.loadHooks d) (h₂.loadHooks e) :=
  forall₂_getD (hlike.controls.like _ _ hde.control) fun _ _ hcd => hcd.loadHooks

/-- A script enters the books of either host. -/
theorem LikeHost.entered (hlike : L.LikeHost w h₁ h₂) (name : String) {d e : Environment α}
    (hde : L.LikeEnvironment w d e) : L.LikeHost w (h₁.entered name d) (h₂.entered name e) := by
  refine { hlike with loaded := fun n => ?_, environments := fun n => ?_ }
  · show (h₁.loaded.insert name true).get? n = (h₂.loaded.insert name true).get? n
    rw [NameMap.get?_insert, NameMap.get?_insert, hlike.loaded n]
  · show Option.Rel _ ((h₁.environments.insert name d).get? n) ((h₂.environments.insert name e).get? n)
    rw [NameMap.get?_insert, NameMap.get?_insert]
    split
    · exact .some hde
    · exact hlike.environments n

namespace Parallel

/-! ## Steps of the host -/

theorem setPhase (name : String) (phase : Option Phase) :
    L.Parallel w (Host.setPhase name phase) (Host.setPhase name phase) (L.Same Unit) := by
  refine .change fun h₁ h₂ hlike => { hlike with phases := fun n => ?_ }
  cases phase with
  | some p =>
    show (h₁.phases.insert name p).get? n = (h₂.phases.insert name p).get? n
    rw [NameMap.get?_insert, NameMap.get?_insert, hlike.phases n]
  | none =>
    show (h₁.phases.erase name).get? n = (h₂.phases.erase name).get? n
    rw [NameMap.get?_erase, NameMap.get?_erase, hlike.phases n]

theorem changeControl {i j : ℕ} (hij : w.1.control i j) {f : Control α → Control α}
    (hf : ∀ c d, L.LikeControl w c d → L.LikeControl w (f c) (f d)) :
    L.Parallel w (Host.changeControl i f) (Host.changeControl j f) (L.Same Unit) :=
  .change fun _ _ hlike => hlike.changeControl hij hf

theorem cancelAllTasks (script : String) :
    L.Parallel w (Host.cancelAllTasks script) (Host.cancelAllTasks script) (L.Anyhow CancelSummary) := by
  intro h₁ h₂ hlike
  obtain ⟨records₁, heq₁⟩ := cancelAllTasks_eq hlike.tasks.balances.1 script
  obtain ⟨records₂, heq₂⟩ := cancelAllTasks_eq hlike.tasks.balances.2 script
  rw [heq₁, heq₂]
  exact ⟨w, le_refl w, { hlike with tasks := hlike.tasks.cancelAll script }, trivial⟩

theorem releaseObjects (script : String) :
    L.Parallel w (Host.releaseObjects script) (Host.releaseObjects script) (L.Anyhow ℕ) :=
  fun _ _ hlike =>
    ⟨w, le_refl w, { hlike with objects := hlike.objects.releaseOwnedBy script }, trivial⟩

theorem syncCommands :
    L.Parallel w (Host.syncCommands : HostM γ α Unit) Host.syncCommands (L.Same Unit) :=
  .reading fun _ _ hread => .bind (R := L.Same Unit)
    (.change fun _ _ hlike => { hlike with commands := hread.commands.sync })
    fun _ _ _ _ _ => .logAll _ _

/-- Commands that are alike are published alike. -/
theorem publishAll (name : String) {cs ds : List (DeclaredCommand α)}
    (hcommands : List.Forall₂ (L.LikeCommand w) cs ds) :
    L.Parallel w (Host.publishAll name cs : HostM γ α Unit) (Host.publishAll name ds) (L.Same Unit) := by
  induction hcommands with
  | nil => exact .pure rfl
  | @cons c d cs ds hcd _ ih =>
    intro h₁ h₂ hlike
    have hregister := hlike.commands.register ⟨c.name, name, c.description⟩
    have hnext : ∀ {h₁ h₂ : Host γ α}, L.LikeHost w h₁ h₂ →
        L.LikeOutcome w (L.Same Unit) (Host.publishAll name cs h₁) (Host.publishAll name ds h₂) :=
      fun hlike => ih _ _ hlike
    rw [Host.publishAll, Host.publishAll, read_bind, read_bind, ← hcd.name, ← hcd.description]
    cases hok₁ : h₁.commands.register ⟨c.name, name, c.description⟩ <;>
      cases hok₂ : h₂.commands.register ⟨c.name, name, c.description⟩ <;> rw [hok₁, hok₂] at hregister
    · exact hnext (hlike.logged _ _)
    · exact hregister.elim
    · exact hregister.elim
    · exact hnext { hlike with commands := hregister }

theorem publish (name : String) :
    L.Parallel w (Host.publish name : HostM γ α Unit) (Host.publish name) (L.Same Unit) := by
  refine .reading fun h₁ h₂ hlike => ?_
  have henv : Option.Rel (L.LikeEnvironment w) (h₁.environment? name) (h₂.environment? name) :=
    hlike.environments name
  generalize h₁.environment? name = x, h₂.environment? name = y at henv ⊢
  cases henv with
  | some hde => exact .bind (publishAll name (hde.declared hlike)) fun _ _ _ _ _ => syncCommands
  | none => exact .pure rfl

/-! ## Steps of the guest -/

variable {name source : String} {origin : Origin}

/-- Load hooks do the like; which of them fail does not matter, since that is only logged. -/
theorem runHooks (hg : g.LoadsAlike L w₀ name origin.folder? source) (hw : w₀ ≤ w) (script kind : String)
    {as bs : List α} (hhooks : List.Forall₂ (L.hook w) as bs) :
    L.Parallel w (Host.runHooks g script kind as) (Host.runHooks g script kind bs) (L.Same Unit) := by
  induction as generalizing w bs with
  | nil =>
    cases hhooks
    exact .pure rfl
  | cons a as ih =>
    cases hhooks with
    | @cons _ b _ bs hab hrest =>
      refine .bind (hg.hook w hw a b hab).parallel fun w' hw' x y _ => ?_
      have hnext : ∀ {h₁ h₂ : Host γ α} (records₁ records₂ : Array Record), L.LikeHost w' h₁ h₂ →
          L.LikeOutcome w' (L.Same Unit) (Host.runHooks g script kind as { h₁ with records := records₁ })
            (Host.runHooks g script kind bs { h₂ with records := records₂ }) :=
        fun _ _ hlike => ih (le_trans hw hw') (hooks_mono hw' hrest) _ _ (hlike.logged _ _)
      intro h₁ h₂ hlike
      cases x <;> cases y <;> exact hnext _ _ hlike

/-- New surroundings are made in either host; their control objects match, and the source is compiled alike in them. -/
theorem createEnvironment (hg : g.LoadsAlike L w₀ name origin.folder? source) (hw₀ : w₀ ≤ w) :
    L.Parallel w (Host.createEnvironment g name origin) (Host.createEnvironment g name origin)
      fun w' d e => L.LikeEnvironment w' d e ∧ g.CompileAlike L name source w' d.globals e.globals := by
  intro h₁ h₂ hlike
  have hm := w.1.le_withControl h₁.controls.size h₂.controls.size
  have hw : w ≤ (w.1.withControl h₁.controls.size h₂.controls.size, w.2) := ⟨hm, le_refl w.2⟩
  have hnew : (w.1.withControl h₁.controls.size h₂.controls.size).control h₁.controls.size h₂.controls.size :=
    .inr ⟨rfl, rfl⟩
  have hpushed : L.LikeHost (w.1.withControl h₁.controls.size h₂.controls.size, w.2)
      (h₁.withControl name origin) (h₂.withControl name origin) :=
    { hlike with
      guest := L.state_mono hm hlike.guest
      tasks := hlike.tasks.mono hw rfl rfl
      objects := hlike.objects.mono hw
      controls := hlike.controls.push ⟨rfl, rfl, .nil, .nil, .nil⟩
      environments := fun n => rel_imp (fun _ _ => LikeEnvironment.mono hw) (hlike.environments n) }
  obtain ⟨w', hw', hmade, hglobals, hcompile⟩ :=
    (hg.body _ (le_trans hw₀ hw) _ _ hnew).parallel _ _ hpushed
  exact ⟨w', le_trans hw hw', hmade.logged _ _, ⟨rfl, rfl, hglobals, hw'.1.2.2 _ _ hnew⟩, hcompile⟩

theorem runSource {a b : α} (hcompile : g.CompileAlike L name source w a b) :
    L.Parallel w (Host.runSource g name a source) (Host.runSource g name b source)
      (L.Same (Except GuestError Unit)) := by
  refine .bind (hcompile w (le_refl w)).parallel fun w' _ x y hxy => ?_
  cases hxy with
  | ok hbody => exact (hbody w' (le_refl w')).parallel
  | error e => exact .pure rfl

/-! ## Loading -/

theorem discard {d e : Environment α} (hde : L.LikeEnvironment w d e) :
    L.Parallel w (Host.discard d : HostM γ α Unit) (Host.discard e) (L.Same Unit) := by
  unfold Host.discard
  rw [hde.name]
  refine .bind (changeControl hde.control fun _ _ hcd => hcd.clear) fun _ _ _ _ _ => ?_
  refine .bind (cancelAllTasks _) fun _ _ _ _ _ => ?_
  exact .bind (releaseObjects _) fun _ _ _ _ _ => .log _ _

theorem instantiate (hg : g.LoadsAlike L w₀ name origin.folder? source) (hw : w₀ ≤ w) :
    L.Parallel w (Host.instantiate g name origin source) (Host.instantiate g name origin source)
      (LikeAnswer L.LikeEnvironment) := by
  rw [instantiate_eq]
  refine .bind (createEnvironment hg hw) fun w₁ _ d e hde => ?_
  refine .bind (runSource hde.2) fun w₂ hw₂ x y hxy => ?_
  obtain rfl : x = y := hxy
  cases x with
  | ok _ => exact .pure (.ok (hde.1.mono hw₂))
  | error failure => exact .bind (discard (hde.1.mono hw₂)) fun _ _ _ _ _ => .pure (.error _)

theorem enter (hg : g.LoadsAlike L w₀ name origin.folder? source) (hw₀ : w₀ ≤ w) {d e : Environment α}
    (hde : L.LikeEnvironment w d e) : L.Parallel w (Host.enter g name d) (Host.enter g name e) (L.Same Unit) := by
  unfold Host.enter
  refine .bind (.change fun _ _ hlike => hlike.entered name hde) fun w₁ hw₁ _ _ _ => ?_
  refine .bind (publish name) fun w₂ hw₂ _ _ _ => ?_
  have hw := le_trans hw₁ hw₂
  refine .reading fun h₁ h₂ hlike => ?_
  refine .bind (runHooks hg (le_trans hw₀ hw) name "load" ((hde.mono hw).loadHooks hlike)) fun _ _ _ _ _ => ?_
  exact .bind (publish name) fun _ _ _ _ _ => .log _ _

theorem bringUp (hg : g.LoadsAlike L w₀ name origin.folder? source) (hw₀ : w₀ ≤ w) :
    L.Parallel w (Host.bringUp g name origin source) (Host.bringUp g name origin source)
      (L.Same (Except HostError Unit)) := by
  unfold Host.bringUp
  refine .bind (setPhase name _) fun w₁ hw₁ _ _ _ => ?_
  refine .bind (instantiate hg (le_trans hw₀ hw₁)) fun w₂ hw₂ x y hxy => ?_
  refine .bind (setPhase name none) fun w₃ hw₃ _ _ _ => ?_
  have hw := le_trans hw₀ (le_trans hw₁ (le_trans hw₂ hw₃))
  cases hxy with
  | ok hde => exact .bind (enter hg hw (hde.mono hw₃)) fun _ _ _ _ _ => .pure rfl
  | error failure => exact .bind (.log _ _) fun _ _ _ _ _ => .pure rfl

end Parallel

end Likeness

/-! ## Loading again -/

namespace Host

variable {γ α : Type} {g : Guest γ α} {h : Host γ α}

/-- What is loaded when a script is loaded again from where it came from, or why nothing is. -/
def again? (h : Host γ α) (name : String) : Origin → Except HostError (Origin × String)
  | .bundle _ =>
    if isScriptName name then
      (h.bundles.read h.files name).map fun entry => (.bundle entry.folder, entry.source)
    else .error (nameError name)
  | .inline source => .ok (.inline source, source)

/-- A script that is not loaded is loaded again without an unload. -/
theorem loadAgain_eq {name : String} (hout : h.isLoaded name = false) (origin : Origin) :
    loadAgain g name origin h = match h.again? name origin with
      | .error e => (.error e, h)
      | .ok (origin, source) => bringUp g name origin source h := by
  have hroom : ∀ origin source, loadFrom g name origin source h = bringUp g name origin source h := by
    intro origin source
    rw [loadFrom_eq, bind_run, makeRoom_of_not_loaded hout]
  cases origin with
  | inline source => exact hroom _ source
  | bundle folder =>
    rw [loadAgain, loadBundle, again?]
    cases isScriptName name with
    | false => rfl
    | true =>
      simp only [if_true]
      rw [read_bind]
      cases h.bundles.read h.files name with
      | error e => rfl
      | ok entry => exact hroom _ entry.source

/-- In hosts that are alike and have not loaded a script, it is loaded again alike, if what that has the guest do
depends on nothing that differs. -/
theorem loadAgain_alike {L : Likeness γ α} {w : L.World} {h₁ h₂ : Host γ α} (hlike : L.LikeHost w h₁ h₂)
    {name : String} (hout : h₁.isLoaded name = false) (origin : Origin)
    (hg : ∀ origin' source, h₁.again? name origin = .ok (origin', source) →
      g.LoadsAlike L w name origin'.folder? source) :
    L.LikeOutcome w (L.Same (Except HostError Unit)) (loadAgain g name origin h₁)
      (loadAgain g name origin h₂) := by
  have hout₂ : h₂.isLoaded name = false := by
    rw [isLoaded, ← hlike.loaded name]
    exact hout
  have hagain : h₁.again? name origin = h₂.again? name origin := by
    cases origin <;> rw [again?, again?]
    rw [hlike.bundles, hlike.files]
  rw [loadAgain_eq hout, loadAgain_eq hout₂, ← hagain]
  cases hfound : h₁.again? name origin with
  | error e => exact ⟨w, le_refl w, hlike, rfl⟩
  | ok found => exact Likeness.Parallel.bringUp (hg found.1 found.2 hfound) (le_refl w) h₁ h₂ hlike

end Host
end ScriptHost
