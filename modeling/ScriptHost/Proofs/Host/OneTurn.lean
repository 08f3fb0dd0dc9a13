import ScriptHost.Proofs.Host.Departures
import ScriptHost.Proofs.Host.FailedLoad
import ScriptHost.Proofs.Host.Routing

/-!
# One script's turn

A host at rest (`AtRest`) is between operations, and what there is belongs to the host or to loaded scripts. When a
bundle is loaded there, or a script unloaded, and the guest code acts in the script's own name, the others are left
alone (`Spares`) and the host is at rest again: `loadBundle_turn`, `unload_turn`.
-/

namespace ScriptHost

variable {γ α : Type}

/-! ## Shared objects -/

/-- An entry of another is the other's still, and was before. -/
theorem SharedObjects.owner?_iff_of_foreign? {s s' : SharedObjects α} {script m : String}
    (hsame : s'.foreign? script m = s.foreign? script m) {owner : Owner} (hother : owner ≠ .script script) :
    s'.owner? m = some owner ↔ s.owner? m = some owner := by
  have hforeign : ∀ s : SharedObjects α,
      s.owner? m = some owner ↔ (s.foreign? script m).map Prod.fst = some owner := by
    intro s
    unfold foreign?
    cases s.owner? m with
    | none => simp
    | some o =>
      by_cases ho : o = .script script
      · simp [ho, Ne.symm hother]
      · simp [ho]
  rw [hforeign s', hforeign s, hsame]

namespace Host

open Scheduler

variable {g : Guest γ α} {h h' : Host γ α} {name : String}

/-! ## A load that succeeds -/

/-- What a script publishes leaves the commands of others alone. -/
theorem Publishes.others {declared : List (DeclaredCommand α)} {t t' : CommandTable}
    (hpublishes : Publishes name declared t t') (n : String) :
    (t'.get? n).filter (fun c => c.owner != name) = (t.get? n).filter fun c => c.owner != name := by
  cases hold : t.get? n with
  | none =>
    cases hnew : t'.get? n with
    | none => rfl
    | some c =>
      rcases hpublishes.fresh n c hnew with hc | ⟨-, howner, -⟩
      · rw [hold] at hc
        cases hc
      · simp [Option.filter, howner]
  | some c =>
    have howner : t'.owner? n = some c.owner :=
      hpublishes.owners n c.owner (by rw [CommandTable.owner?, hold]; rfl)
    obtain ⟨c', hnew, hsame⟩ := Option.map_eq_some_iff.mp howner
    rw [hnew]
    rcases hpublishes.fresh n c' hnew with hc | ⟨-, hmine, -⟩
    · rw [hold] at hc
      rw [Option.some.inj hc]
    · have hmine' : c.owner = name := hsame.symm.trans hmine
      simp [Option.filter, hmine, hmine']

theorem spares_publish (name : String) (h : Host γ α) : Spares name h (publish name h).2 := by
  cases henv : h.environment? name with
  | none =>
    rw [publish_of_out henv]
    exact Spares.refl
  | some env =>
    obtain ⟨commands, records, heq, hpublishes⟩ := publish_publishes henv
    rw [heq]
    exact ⟨fun _ _ => rfl, fun _ _ => rfl, fun _ _ => rfl, SameTasks.refl, fun _ => rfl,
      hpublishes.others, fun _ _ hc _ => hc⟩

theorem spares_entered (name : String) (env : Environment α) (h : Host γ α) :
    Spares name h (h.entered name env) := by
  have hinserted : ∀ {β : Type} (m : Std.TreeMap String β) (v : β) n, n ≠ name →
      (m.insert name v).get? n = m.get? n := by
    intro β m v n hn
    rw [NameMap.get?_insert, if_neg (Ne.symm hn)]
  exact ⟨hinserted h.loaded true, hinserted h.environments env, fun _ _ => rfl, SameTasks.refl,
    fun _ => rfl, fun _ => rfl, fun _ _ hc _ => hc⟩

/-- A script that enters leaves the others alone, if its load hooks act in its own name. -/
theorem spares_enter (hg : g.KeepsToApi) {env : Environment α}
    (h₀ : Orderly none (h.entered name env))
    (hown : ∀ st ∈ enterStints g name env h, st.InNameOf name) :
    Spares name h (enter g name env h).2 := by
  have hpublished : Spares name h (publish name (h.entered name env)).2 :=
    (spares_entered name env h).trans (spares_publish name _)
  have hhooks := runHooks_keeps hg (fun _ records hspares => hspares.logged records) name "load" _
    (Tidy.publish name _ h₀) (fun st hst => (hown st hst).spares_from) hpublished
  obtain ⟨records, heq⟩ := enter_eq g name env h
  rw [heq]
  exact (hhooks.trans (spares_publish name _)).logged records

/-- How a load of a script that is not loaded ends: the script enters, or what its body acquired is discarded. -/
theorem bringUp_cases (hg : g.KeepsToApi) (h₀ : Orderly none h) (name : String) (origin : Origin)
    (source : String) :
    let ran := afterSource g name origin source (setPhase name (some .loading) h).2
    (∃ env, Orderly none ((setPhase name none ran).2.entered name env) ∧
      bringUp g name origin source h = (.ok (), (enter g name env (setPhase name none ran).2).2) ∧
      bringUpStints g name origin source h =
        instantiateStints g name origin source (setPhase name (some .loading) h).2 ++
          enterStints g name env (setPhase name none ran).2) ∨
    ∃ e number records, ControlOf name number ran ∧ bringUp g name origin source h =
      (.error e, { (setPhase name none (ran.discarded name number)).2 with records := records }) := by
  intro ran
  have hbegun := Tidy.setPhase name (some .loading) h h₀
  have hran := (afterSource_orderly hg name origin source hbegun).1
  rcases instantiate_cases hg name origin source hbegun with hok | ⟨e, records, hfailed⟩
  · obtain ⟨henv, hcontrol⟩ := (instantiate_spec hg name origin source).2 none _ _ hbegun
      (congrArg Prod.fst hok)
    rw [hok] at hcontrol
    exact .inl ⟨_, (Tidy.setPhase name none _ hran).entered henv (hcontrol.setPhase name none),
      bringUp_of_ok hok, by rw [bringUpStints, hok]⟩
  · obtain ⟨records', heq⟩ := bringUp_of_error hfailed
    exact .inr ⟨_, _, records', afterSource_control hg name origin source hbegun, heq⟩

/-- A load leaves the others alone, whether it succeeds or not. -/
theorem spares_bringUp (hg : g.KeepsToApi) (h₀ : Orderly none h) {origin : Origin} {source : String}
    (hown : ∀ st ∈ bringUpStints g name origin source h, st.InNameOf name) :
    Spares name h (bringUp g name origin source h).2 := by
  have hbegun := Tidy.setPhase name (some .loading) h h₀
  have hran := (afterSource_orderly hg name origin source hbegun).1
  have hbody : Spares name h (afterSource g name origin source (setPhase name (some .loading) h).2) :=
    afterSource_keeps hg (fun _ records hspares => hspares.logged records) name origin source hbegun
      (fun hspares => spares_withControl hspares origin)
      (fun st hst => (hown st (List.mem_append_left _ hst)).spares_from)
      (Spares.refl.setPhase (some .loading))
  rcases bringUp_cases hg h₀ name origin source with
    ⟨env, hentered, heq, hstints⟩ | ⟨e, number, records, hc, heq⟩
  · rw [heq]
    rw [hstints] at hown
    exact (hbody.setPhase none).trans
      (spares_enter hg hentered fun st hst => hown st (List.mem_append_right _ hst))
  · rw [heq]
    exact ((hbody.trans (spares_discarded hran hc)).setPhase none).logged records

/-- The policy, the place of the bundles and the files are the same. -/
structure SameSettings (h h' : Host γ α) : Prop where
  policy : h'.policy = h.policy
  bundles : h'.bundles = h.bundles
  files : h'.files = h.files

theorem SameSettings.trans {h'' : Host γ α} (hfirst : SameSettings h h') (hrest : SameSettings h' h'') :
    SameSettings h h'' :=
  ⟨hrest.policy.trans hfirst.policy, hrest.bundles.trans hfirst.bundles, hrest.files.trans hfirst.files⟩

theorem KeepsBooks.sameSettings (hbooks : KeepsBooks h h') : SameSettings h h' :=
  ⟨hbooks.policy, hbooks.bundles, hbooks.files⟩

theorem sameSettings_enter (hg : g.KeepsToApi) {env : Environment α}
    (h₀ : Orderly none (h.entered name env)) : SameSettings h (enter g name env h).2 := by
  have hhooks := (Modest.runHooks hg name "load"
    ((publish name (h.entered name env)).2.loadHooks env) none _ (Tidy.publish name _ h₀)).2
  have hpublish : ∀ h' : Host γ α, SameSettings h' (publish name h').2 := by
    intro h'
    obtain ⟨commands, records, heq, -⟩ := publish_eq name h'
    rw [heq]
    exact ⟨rfl, rfl, rfl⟩
  have hentered : SameSettings h (h.entered name env) := ⟨rfl, rfl, rfl⟩
  have hended := ((hentered.trans (hpublish _)).trans hhooks.sameSettings).trans (hpublish _)
  obtain ⟨records, heq⟩ := enter_eq g name env h
  rw [heq]
  exact ⟨hended.policy, hended.bundles, hended.files⟩

/-- A load leaves the settings of the host alone. -/
theorem sameSettings_bringUp (hg : g.KeepsToApi) (h₀ : Orderly none h) (name : String) (origin : Origin)
    (source : String) : SameSettings h (bringUp g name origin source h).2 := by
  have hran := (afterSource_orderly hg name origin source
    (Tidy.setPhase name (some .loading) h h₀)).2.sameSettings
  have hbody : SameSettings h (afterSource g name origin source (setPhase name (some .loading) h).2) :=
    ⟨hran.policy, hran.bundles, hran.files⟩
  rcases bringUp_cases hg h₀ name origin source with
    ⟨env, hentered, heq, -⟩ | ⟨e, number, records, -, heq⟩
  · have hbegun : SameSettings h
        (setPhase name none (afterSource g name origin source (setPhase name (some .loading) h).2)).2 :=
      ⟨hbody.policy, hbody.bundles, hbody.files⟩
    rw [heq]
    exact hbegun.trans (sameSettings_enter hg hentered)
  · rw [heq]
    exact ⟨hbody.policy, hbody.bundles, hbody.files⟩

/-! ## One script's turn -/

/-- A host between operations: all is in order, nothing is in transition, and whatever there is belongs to the host
or to loaded scripts. -/
structure AtRest (h : Host γ α) : Prop where
  orderly : Orderly none h
  settled : Settled h
  owners : OwnersLoaded h

/-- A host comes to rest when one script has come or gone and the others were left alone. -/
theorem AtRest.of_spares (hrest : AtRest h) (hspares : Spares name h h') (h₀ : Orderly none h')
    (hsettled : Settled h') (hcommands : CommandsLoaded h')
    (hname : h'.isLoaded name = true ∨ Absent name h') : AtRest h' := by
  have hothers : ∀ n, n ≠ name → h.isLoaded n = true → h'.isLoaded n = true := by
    intro n hn hloaded
    rw [isLoaded, hspares.loaded n hn]
    exact hloaded
  have howners : OwnersLive h' := by
    refine ⟨fun k hk => .inl ?_, fun n script hn => .inl ?_⟩
    · by_cases hscript : k.script = name
      · rw [hscript]
        exact hname.resolve_right fun habsent => habsent.tasks k hk hscript
      · exact hothers _ hscript (hrest.owners.tasks k ((hspares.tasks.mem_handles hscript).mp hk))
    · by_cases hscript : script = name
      · subst hscript
        exact hname.resolve_right fun habsent => habsent.objects n hn
      · have hother : Owner.script script ≠ .script name := fun heq => hscript (Owner.script.inj heq)
        have hold := (SharedObjects.owner?_iff_of_foreign? (hspares.objects n) hother).mp hn
        exact hothers script hscript (hrest.owners.objects n script hold)
  exact ⟨h₀, hsettled, howners.loaded hcommands h₀ hsettled⟩

/-- A load of a bundle is refused, or the script is brought up at a host at rest that does not have it. -/
theorem loadBundle_eq_bringUp (hg : g.KeepsToApi) (hrest : AtRest h)
    (hown : ∀ st ∈ loadBundleStints g name h, st.InNameOf name) :
    (∃ e, loadBundle g name h = (.error e, h)) ∨
      ∃ h₁ origin source, loadBundle g name h = bringUp g name origin source h₁ ∧ AtRest h₁ ∧
        Spares name h h₁ ∧ h₁.isLoaded name = false ∧ (h.policy = .reject → h₁ = h) ∧
        ∀ st ∈ bringUpStints g name origin source h₁, st.InNameOf name := by
  unfold loadBundle
  unfold loadBundleStints at hown
  cases hname : isScriptName name with
  | false => exact .inl ⟨nameError name, rfl⟩
  | true =>
    rw [hname] at hown
    simp only [if_true, read_bind] at hown ⊢
    cases hread : h.bundles.read h.files name with
    | error e => exact .inl ⟨e, rfl⟩
    | ok entry =>
      rw [hread] at hown
      dsimp only at hown ⊢
      unfold loadFromStints at hown
      rw [loadFrom_eq, bind_run]
      cases hloaded : h.isLoaded name with
      | false =>
        rw [makeRoom_of_not_loaded hloaded] at hown ⊢
        exact .inr ⟨h, _, _, rfl, hrest, Spares.refl, hloaded, fun _ => rfl,
          fun st hst => hown st (List.mem_append_right _ hst)⟩
      | true =>
        cases hpolicy : h.policy with
        | reject =>
          rw [makeRoom_of_reject hloaded hpolicy]
          exact .inl ⟨_, rfl⟩
        | reload =>
          -- the instance is unloaded first, which is a turn of its own
          have hlogged := Tidy.log (lifeRecord .info s!"Script '{name}' is already loaded, replacing it")
            h hrest.orderly
          have haccounted := unload_accounted hg name hlogged
          rw [makeRoom_of_reload hloaded hpolicy] at hown ⊢
          rw [makeRoomStints_of_reload hloaded hpolicy] at hown
          obtain ⟨hok, hspares, habsent⟩ := unload_absent hg hlogged hrest.settled hrest.owners.commands
            hloaded fun st hst => hown st (List.mem_append_left _ hst)
          rw [hok] at hown ⊢
          have hspares' : Spares name h _ := (Spares.refl.logged _).trans hspares
          have hmade : AtRest _ := hrest.of_spares hspares' (Tidy.unload hg name _ hlogged)
            (haccounted.settled hrest.settled) (haccounted.commands hrest.owners.commands) (.inr habsent)
          refine .inr ⟨_, _, _, rfl, hmade, hspares', habsent.loaded, ?_,
            fun st hst => hown st (List.mem_append_right _ hst)⟩
          intro hreject
          cases hreject

/-- What the load of one bundle does to a host at rest: it is the script's own affair. -/
structure Loads (name : String) (result : Except HostError Unit) (h h' : Host γ α) : Prop where
  rest : AtRest h'
  spares : Spares name h h'
  loaded : result.isOk = true → h'.isLoaded name = true
  rejects : h.policy = .reject → h'.policy = .reject ∧
    ∀ n, h'.isLoaded n = ((result.isOk && name == n) || h.isLoaded n)

theorem loadBundle_turn (hg : g.KeepsToApi) (hrest : AtRest h)
    (hown : ∀ st ∈ loadBundleStints g name h, st.InNameOf name) :
    Loads name (loadBundle g name h).1 h (loadBundle g name h).2 := by
  rcases loadBundle_eq_bringUp hg hrest hown with
    ⟨e, heq⟩ | ⟨h₁, origin, source, heq, hrest₁, hspares, hout, hreject, hown₁⟩
  · rw [heq]
    exact ⟨hrest, Spares.refl, fun hok => (nomatch hok), fun hpolicy => ⟨hpolicy, fun n => rfl⟩⟩
  · -- room has been made, so the script is brought up where it is not loaded
    have hloaded := isLoaded_bringUp hg hrest₁.orderly name origin source
    have haccounted := bringUp_accounted hg name origin source hrest₁.orderly
    have hspares₁ := spares_bringUp hg hrest₁.orderly hown₁
    rw [heq]
    constructor
    case rest =>
      refine hrest₁.of_spares hspares₁ (Tidy.bringUp hg name origin source h₁ hrest₁.orderly)
        (haccounted.settled hrest₁.settled) (haccounted.commands hrest₁.owners.commands) ?_
      cases hresult : (bringUp g name origin source h₁).1 with
      | ok _ =>
        refine .inl ?_
        rw [hloaded, hresult]
        simp [Except.isOk, Except.toBool]
      | error e =>
        exact .inr (bringUp_absent hg hrest₁.orderly hrest₁.settled hrest₁.owners.commands hout hown₁
          hresult).2.1
    case spares => exact hspares.trans hspares₁
    case loaded =>
      intro hok
      rw [hloaded, hok]
      simp
    case rejects =>
      intro hpolicy
      obtain rfl := hreject hpolicy
      exact ⟨(sameSettings_bringUp hg hrest₁.orderly name origin source).policy.trans hpolicy, hloaded⟩

/-- What the unload of one script does to a host at rest. -/
theorem unload_turn (hg : g.KeepsToApi) (hrest : AtRest h) (hloaded : h.isLoaded name = true)
    (hown : ∀ st ∈ unloadStints g name h, st.InNameOf name) :
    AtRest (unload g name h).2 ∧ Spares name h (unload g name h).2 := by
  have haccounted := unload_accounted hg name hrest.orderly
  obtain ⟨-, hspares, habsent⟩ := unload_absent hg hrest.orderly hrest.settled hrest.owners.commands
    hloaded hown
  exact ⟨hrest.of_spares hspares (Tidy.unload hg name h hrest.orderly)
    (haccounted.settled hrest.settled) (haccounted.commands hrest.owners.commands) (.inr habsent), hspares⟩

end Host
end ScriptHost
