import ScriptHost.Proofs.Host.Noting
import ScriptHost.Proofs.Host.Registrations

/-!
# Many arrivals and departures

What becomes of scripts when several are loaded one after the other, and when all are unloaded in the end.

* `loadBundles_spec`: the scripts that are loaded are those whose loads succeed, and no unload hook is called.
* `unloadEach_spec`: no script is left, and the unload hooks of each, as they are when its turn comes, have been
  called once, in order.
-/

namespace ScriptHost

variable {γ α : Type}

/-! ## Listings -/

/-- A child is found under the folder's path and its own name. -/
theorem FileTree.toList_of_child {opening : List Char} {key name : String}
    (hname : name ∈ (match Text.afterPrefix? opening key.toList with
      | some rest => if rest.contains '/' then none else some (String.ofList rest)
      | none => none)) : key.toList = opening ++ name.toList := by
  split at hname
  · rename_i rest hrest
    split at hname
    · cases hname
    · obtain rfl := Option.some.inj hname
      rw [Text.afterPrefix?_eq_some.mp hrest, String.toList_ofList]
  · cases hname

/-- The entries of a folder have different names. -/
theorem FileTree.nodup_children (files : FileTree) (path : String) : (files.children path).Nodup := by
  unfold children
  split
  · refine List.Nodup.filterMap (fun key key' name hkey hkey' => ?_) Std.TreeMap.nodup_keys
    exact String.toList_injective ((toList_of_child hkey).trans (toList_of_child hkey').symm)
  · exact List.nodup_nil

/-- A bundle is listed once. -/
theorem BundleFolder.nodup_list {b : BundleFolder} {files : FileTree} {names : List String}
    (hlist : b.list files = .ok names) : names.Nodup := by
  unfold list at hlist
  split at hlist
  · obtain rfl := Except.ok.inj hlist
    rw [(List.mergeSort_perm _ _).nodup_iff]
    exact (files.nodup_children b.root).filter _
  · cases hlist

namespace Host

variable {g : Guest γ α} {h : Host γ α} {name : String}

/-! ## Arrivals -/

/-- A script that enters is loaded, and the others are loaded or not as before. -/
theorem loaded_enter (hg : g.KeepsToApi) {env : Environment α} (h₀ : Orderly none (h.entered name env)) :
    (enter g name env h).2.loaded = h.loaded.insert name true := by
  have hpublished := Tidy.publish name _ h₀
  have hhooks := (Modest.runHooks hg name "load"
    ((publish name (h.entered name env)).2.loadHooks env) none _ hpublished).2
  have hpublish : ∀ h' : Host γ α, (publish name h').2.loaded = h'.loaded := by
    intro h'
    obtain ⟨commands, records, heq, -⟩ := publish_eq name h'
    rw [heq]
  obtain ⟨records, heq⟩ := enter_eq g name env h
  rw [heq]
  show (publish name _).2.loaded = _
  rw [hpublish, hhooks.loaded, hpublish]
  rfl

/-- A load of a script that is not loaded adds the script, if it succeeds, and nothing else. -/
theorem isLoaded_bringUp (hg : g.KeepsToApi) (h₀ : Orderly none h) (name : String) (origin : Origin)
    (source n : String) : (bringUp g name origin source h).2.isLoaded n =
      (((bringUp g name origin source h).1.isOk && name == n) || h.isLoaded n) := by
  have hbegun := Tidy.setPhase name (some .loading) h h₀
  obtain ⟨hsource₀, hbooks⟩ := afterSource_orderly hg name origin source hbegun
  rcases instantiate_cases hg name origin source hbegun with hok | ⟨e, records, hfailed⟩
  · obtain ⟨henv, hcontrol⟩ := (instantiate_spec hg name origin source).2 none _ _ hbegun
      (congrArg Prod.fst hok)
    rw [hok] at hcontrol
    -- the body has succeeded, so the script enters
    have hentered := (Tidy.setPhase name none _ hsource₀).entered henv (hcontrol.setPhase name none)
    rw [bringUp_of_ok hok, isLoaded, loaded_enter hg hentered, NameMap.get?_insert]
    show _ = (name == n || (h.loaded.get? n).getD false)
    by_cases hn : name = n
    · rw [if_pos hn, hn]
      simp
    · rw [if_neg hn, beq_eq_false_iff_ne.mpr hn]
      show ((afterSource g name origin source _).loaded.get? n).getD false = _
      rw [hbooks.loaded]
      rfl
  · obtain ⟨records', heq⟩ := bringUp_of_error hfailed
    -- the body has failed, and the books stay as they were
    rw [heq]
    show ((afterSource g name origin source (setPhase name (some .loading) h).2).loaded.get? n).getD false = _
    rw [hbooks.loaded]
    rfl

/-- No script is on its way out. -/
def NoneUnloading (phases : Std.TreeMap String Phase) : Prop := ∀ n, phases.get? n ≠ some .unloading

theorem NoneUnloading.loading {phases : Std.TreeMap String Phase} (hnone : NoneUnloading phases)
    (name : String) : NoneUnloading (phases.insert name .loading) := by
  intro n
  rw [NameMap.get?_insert]
  split
  · exact fun heq => nomatch heq
  · exact hnone n

theorem NoneUnloading.erase {phases : Std.TreeMap String Phase} (hnone : NoneUnloading phases)
    (name : String) : NoneUnloading (phases.erase name) := by
  intro n
  rw [NameMap.get?_erase]
  split
  · exact fun heq => nomatch heq
  · exact hnone n

/-- Where a script is not loaded its bundle is loaded without an unload. -/
theorem loadBundle_cases (g : Guest γ α) (hout : h.isLoaded name = false) :
    (∃ e, loadBundle g name h = (.error e, h) ∧ ∀ noted, loadBundle g.noting name (h.noting noted) =
        (.error e, h.noting noted)) ∨
      ∃ origin source, loadBundle g name h = bringUp g name origin source h ∧
        ∀ noted, loadBundle g.noting name (h.noting noted) =
          bringUp g.noting name origin source (h.noting noted) := by
  unfold loadBundle
  cases hname : isScriptName name with
  | false => exact .inl ⟨nameError name, rfl, fun _ => rfl⟩
  | true =>
    simp only [if_true, read_bind, noting_bundles, noting_files]
    cases h.bundles.read h.files name with
    | error e => exact .inl ⟨e, rfl, fun _ => rfl⟩
    | ok entry =>
      refine .inr ⟨.bundle entry.folder, entry.source, ?_, fun noted => ?_⟩
      · dsimp only
        rw [loadFrom_eq, bind_run, makeRoom_of_not_loaded hout]
      · dsimp only
        rw [loadFrom_eq, bind_run, makeRoom_of_not_loaded (by rw [noting_isLoaded, hout])]

theorem isLoaded_loadBundle (hg : g.KeepsToApi) (h₀ : Orderly none h) (hout : h.isLoaded name = false)
    (n : String) : (loadBundle g name h).2.isLoaded n =
      (((loadBundle g name h).1.isOk && name == n) || h.isLoaded n) := by
  rcases loadBundle_cases g hout with ⟨e, heq, -⟩ | ⟨origin, source, heq, -⟩
  · rw [heq]
    rfl
  · rw [heq]
    exact isLoaded_bringUp hg h₀ name origin source n

theorem loadBundle_notes (hg : g.KeepsToApi) (hout : h.isLoaded name = false)
    (hnone : NoneUnloading h.phases) : NoneUnloading (loadBundle g name h).2.phases ∧
      ∃ calls : List (Call γ α), (∀ call ∈ calls, NoneUnloading call.host.phases) ∧
        Notes (loadBundle g name) (loadBundle g.noting name) h calls := by
  rcases loadBundle_cases g hout with ⟨e, heq, hnoted⟩ | ⟨origin, source, heq, hnoted⟩
  · refine ⟨heq ▸ hnone, [], fun _ hcall => (nomatch hcall), fun noted => ?_⟩
    rw [hnoted, heq, List.append_nil]
  · obtain ⟨hend, calls, hcalls, hnotes⟩ := Follows.bringUp hg (fun _ hnone => hnone.loading name)
      (fun _ hnone => hnone.erase name) origin source h hnone
    refine ⟨heq ▸ hend, calls, hcalls, fun noted => ?_⟩
    rw [hnoted, heq]
    exact hnotes noted

theorem success_eq_ofResult {n : String} {answer : Except HostError Unit} :
    (⟨n, true, none⟩ : Outcome) = Outcome.ofResult name answer ↔ (answer.isOk && name == n) = true := by
  cases answer with
  | ok _ =>
    show _ ↔ (name == n) = true
    rw [Outcome.ofResult, Outcome.mk.injEq, beq_iff_eq]
    exact ⟨fun heq => heq.1.symm, fun heq => ⟨heq.symm, rfl, rfl⟩⟩
  | error e =>
    rw [Outcome.ofResult, Outcome.mk.injEq]
    exact ⟨fun heq => (nomatch heq.2.1), fun heq => nomatch heq⟩

theorem notes_forScripts_cons {act : String → HostM γ α (Except HostError Unit)}
    {act' : String → HostM (Noted γ α) α (Except HostError Unit)} {names : List String}
    {calls calls' : List (Call γ α)} (hfirst : Notes (act name) (act' name) h calls)
    (hrest : Notes (forScripts act names) (forScripts act' names) (act name h).2 calls') :
    Notes (forScripts act (name :: names)) (forScripts act' (name :: names)) h (calls ++ calls') := by
  intro noted
  rw [forScripts, forScripts, bind_run, bind_run, bind_run, bind_run, hfirst noted,
    hrest (noted ++ calls), List.append_assoc]
  rfl

/-- Of bundles that are loaded one after the other, none of them loaded before, those whose loads succeed are loaded
at the end; and no unload hook is called. -/
theorem loadBundles_spec (hg : g.KeepsToApi) (names : List String) (hnodup : names.Nodup)
    (h₀ : Orderly none h) (hout : ∀ n ∈ names, h.isLoaded n = false) (hnone : NoneUnloading h.phases) :
    let loads := forScripts (loadBundle g) names h
    NoneUnloading loads.2.phases ∧
      (∀ n, loads.2.isLoaded n = true ↔ ⟨n, true, none⟩ ∈ loads.1 ∨ h.isLoaded n = true) ∧
      ∃ calls : List (Call γ α), (∀ call ∈ calls, NoneUnloading call.host.phases) ∧
        Notes (forScripts (loadBundle g) names) (forScripts (loadBundle g.noting) names) h calls := by
  induction names generalizing h with
  | nil =>
    refine ⟨hnone, fun n => ?_, [], fun _ hcall => (nomatch hcall), (Aside.pure []).notes h⟩
    exact ⟨fun hn => .inr hn, fun hn => hn.resolve_left fun hmem => nomatch hmem⟩
  | cons name names ih =>
    obtain ⟨hname, hnames⟩ := List.nodup_cons.mp hnodup
    obtain ⟨houtName, houtNames⟩ := List.forall_mem_cons.mp hout
    obtain ⟨hmid, calls, hcalls, hfirst⟩ := loadBundle_notes hg houtName hnone
    have hisLoaded := isLoaded_loadBundle hg h₀ houtName
    -- the names are apart, so the others are as little loaded as before
    have hstill : ∀ n ∈ names, (loadBundle g name h).2.isLoaded n = false := by
      intro n hn
      have hother : name ≠ n := fun heq => hname (heq ▸ hn)
      rw [hisLoaded, houtNames n hn, beq_eq_false_iff_ne.mpr hother, Bool.and_false, Bool.or_false]
    obtain ⟨hend, hloaded, calls', hcalls', hrest⟩ := ih hnames (Tidy.loadBundle hg name h h₀) hstill hmid
    refine ⟨hend, fun n => ?_, calls ++ calls', fun call hcall => ?_, notes_forScripts_cons hfirst hrest⟩
    · refine (hloaded n).trans ?_
      show _ ↔ _ ∈ Outcome.ofResult name (loadBundle g name h).1 :: _ ∨ _
      rw [hisLoaded, Bool.or_eq_true, List.mem_cons, success_eq_ofResult]
      tauto
    · rcases List.mem_append.mp hcall with hcall | hcall
      · exact hcalls call hcall
      · exact hcalls' call hcall
/-! ## Departures -/

/-- The calls of a script's unload hooks: the functions, with what they were given. -/
def unloadCalls (name : String) (calls : List (Call γ α)) : List (α × List α) :=
  (calls.filter fun call => call.host.phases.get? name == some .unloading).map fun call =>
    (call.function, call.arguments)

theorem unloadCalls_append (name : String) (calls calls' : List (Call γ α)) :
    unloadCalls name (calls ++ calls') = unloadCalls name calls ++ unloadCalls name calls' := by
  rw [unloadCalls, List.filter_append, List.map_append]
  rfl

/-- What is called while no script is on its way out is no unload hook. -/
theorem unloadCalls_of_none {calls : List (Call γ α)}
    (hcalls : ∀ call ∈ calls, NoneUnloading call.host.phases) (name : String) :
    unloadCalls name calls = [] := by
  rw [unloadCalls, List.filter_eq_nil_iff.mpr, List.map_nil]
  intro call hcall
  simpa using hcalls call hcall name

/-- What a guest does when it is called leaves the transitions in progress as they are. -/
theorem phases_run (hg : g.KeepsToApi) (f : α) (h : Host γ α) : (g.run f h).2.phases = h.phases := by
  obtain ⟨acts, heq⟩ := hg.call f [] h
  show (g.call f [] h).2.phases = _
  rw [heq]
  exact (Act.performAll_noting acts h []).2

theorem runHooks_one_notes (g : Guest γ α) (name kind : String) (hook : α) (h : Host γ α) :
    Notes (runHooks g name kind [hook]) (runHooks g.noting name kind [hook]) h [⟨hook, [], h⟩] := by
  intro noted
  have hrun : g.noting.run hook (h.noting noted) =
      ((g.run hook h).1, (g.run hook h).2.noting (noted ++ [⟨hook, [], h⟩])) := rfl
  simp only [runHooks, bind_run, hrun]
  cases (g.run hook h).1 <;> rfl

/-- Hooks are called once, one after the other, and given nothing. -/
theorem runHooks_notes (hg : g.KeepsToApi) (name kind : String) (hooks : List α) (h : Host γ α) :
    ∃ calls : List (Call γ α),
      Notes (runHooks g name kind hooks) (runHooks g.noting name kind hooks) h calls ∧
      (calls.map fun call => (call.function, call.arguments)) = hooks.map (·, []) ∧
      ∀ call ∈ calls, call.host.phases = h.phases := by
  induction hooks generalizing h with
  | nil => exact ⟨[], (Aside.pure ()).notes h, rfl, fun _ hcall => nomatch hcall⟩
  | cons hook hooks ih =>
    obtain ⟨records, hone⟩ := runHooks_one g name kind hook h
    have hphases : (runHooks g name kind [hook] h).2.phases = h.phases := by
      rw [hone]
      exact phases_run hg hook h
    obtain ⟨calls, hnotes, hfunctions, hall⟩ := ih (runHooks g name kind [hook] h).2
    refine ⟨⟨hook, [], h⟩ :: calls, fun noted => ?_, congrArg _ hfunctions, fun call hcall => ?_⟩
    · rw [runHooks_cons (g := g.noting) kind hook hooks, runHooks_one_notes g name kind hook h noted, hnotes,
        runHooks_cons (g := g) kind hook hooks, List.append_assoc]
      rfl
    · rcases List.mem_cons.mp hcall with rfl | hcall
      · rfl
      · exact (hall call hcall).trans hphases

/-- What is left to do when the hooks of a script have run calls nothing. -/
theorem tearDown_notes (name : String) (env : Environment α) (summary : CancelSummary) (h : Host γ α) :
    Notes (tearDown name env summary) (tearDown name env summary) h [] := by
  refine ((Aside.withdrawCommands name).notes h).bind_nil ?_
  refine ((Aside.releaseObjects name).notes _).bind_nil ?_
  refine ((Aside.changeControl env.control Control.clear).notes _).bind_nil ?_
  refine Notes.bind_nil (fun noted => ?_) ?_
  · rw [List.append_nil]
    rfl
  · exact (notes_setPhase name none _).bind_nil (((Aside.log _).bind fun _ => .pure _).notes _)

/-- The steps of the unload of a script that is loaded. -/
def depart (g : Guest γ α) (name : String) (env : Environment α) (hooks : List α) :
    HostM γ α (Except HostError Unit) := do
  setPhase name (some .unloading)
  runHooks g name "unload" hooks
  tearDown name env (← cancelAllTasks name)

theorem unload_eq_depart {env : Environment α} (henv : h.environment? name = some env)
    (hloaded : h.isLoaded name = true) :
    unload g name h = depart g name env (h.unloadHooks env) h := by
  rw [unload, read_bind, henv, hloaded]
  rfl

theorem depart_ok (name : String) (env : Environment α) (hooks : List α) (h : Host γ α) :
    (depart g name env hooks h).1 = .ok () := by
  have hdown (summary : CancelSummary) (h : Host γ α) : (tearDown name env summary h).1 = .ok () := by
    obtain ⟨records, heq⟩ := tearDown_eq (h := h) name env summary
    rw [heq]
  rw [depart, bind_run, bind_run, bind_run, hdown]

/-- What an unload calls are the hooks. -/
theorem depart_notes (name : String) (env : Environment α) {hooks : List α} {calls : List (Call γ α)}
    (hhooks : Notes (runHooks g name "unload" hooks) (runHooks g.noting name "unload" hooks)
      (setPhase name (some .unloading) h).2 calls) :
    Notes (depart g name env hooks) (depart g.noting name env hooks) h calls := by
  have hsteps : Notes (depart g name env hooks) (depart g.noting name env hooks) h
      ([] ++ (calls ++ ([] ++ []))) := by
    refine (notes_setPhase name (some .unloading) h).bind (hhooks.bind ?_)
    exact ((Aside.cancelAllTasks name).notes _).bind (tearDown_notes name env _ _)
  rw [List.nil_append, List.nil_append, List.append_nil] at hsteps
  exact hsteps

/-- The unload hooks of a script that is unloaded are called once, in order, and those of no other script. -/
theorem unload_notes (hg : g.KeepsToApi) {env : Environment α} (henv : h.environment? name = some env)
    (hloaded : h.isLoaded name = true) (hnone : NoneUnloading h.phases) :
    ∃ calls : List (Call γ α), Notes (unload g name) (unload g.noting name) h calls ∧
      unloadCalls name calls = (h.unloadHooks env).map (·, []) ∧
      ∀ n, n ≠ name → unloadCalls n calls = [] := by
  obtain ⟨calls, hnotes, hfunctions, hphases⟩ := runHooks_notes hg name "unload" (h.unloadHooks env)
    (setPhase name (some .unloading) h).2
  -- while the hooks run the script is unloading, and no other is
  have hphase : ∀ call ∈ calls, ∀ n, call.host.phases.get? n =
      if name = n then some .unloading else h.phases.get? n := by
    intro call hcall n
    rw [hphases call hcall]
    exact NameMap.get?_insert ..
  refine ⟨calls, fun noted => ?_, ?_, fun n hn => ?_⟩
  · rw [unload_eq_depart henv hloaded, unload_eq_depart (h := h.noting noted) henv hloaded]
    exact depart_notes name env hnotes noted
  · rw [unloadCalls, List.filter_eq_self.mpr, hfunctions]
    intro call hcall
    rw [hphase call hcall, if_pos rfl]
    rfl
  · rw [unloadCalls, List.filter_eq_nil_iff.mpr, List.map_nil]
    intro call hcall
    rw [hphase call hcall, if_neg (Ne.symm hn)]
    simpa using hnone n

/-- The host when the turn of a script comes, of several that are unloaded one after the other. -/
def atTurn (g : Guest γ α) (names : List String) (name : String) (h : Host γ α) : Host γ α :=
  (forScripts (unload g) (names.takeWhile (· != name)) h).2

/-- When the unload of a script is over, it is no longer on its way out. -/
theorem NoneUnloading.unload (hnone : NoneUnloading h.phases) (hg : g.KeepsToApi) (h₀ : Orderly none h)
    (hloaded : h.isLoaded name = true) : NoneUnloading (unload g name h).2.phases := by
  obtain ⟨env, records, -, heq⟩ := h₀.unload_eq hg hloaded
  obtain ⟨-, hbooks⟩ := afterHooks_orderly hg name env h₀
  rw [heq]
  show NoneUnloading ((afterHooks g name env h).phases.erase name)
  rw [hbooks.phases]
  intro n
  rw [NameMap.get?_erase]
  split
  next => exact fun heq => nomatch heq
  next hn =>
    show (h.phases.insert name .unloading).get? n ≠ _
    rw [NameMap.get?_insert, if_neg hn]
    exact hnone n

/-- Of scripts that are loaded and are unloaded one after the other none is left. The unload hooks of each, as they
are when its turn comes, are called once, in order. -/
theorem unloadEach_spec (hg : g.KeepsToApi) (names : List String) (hnodup : names.Nodup)
    (h₀ : Orderly none h) (hin : ∀ n ∈ names, h.isLoaded n = true) (hnone : NoneUnloading h.phases) :
    (∀ n, (forScripts (unload g) names h).2.isLoaded n = true ↔ n ∉ names ∧ h.isLoaded n = true) ∧
      ∃ calls : List (Call γ α),
        Notes (forScripts (unload g) names) (forScripts (unload g.noting) names) h calls ∧
        (∀ n ∈ names, ∃ env, (atTurn g names n h).environment? n = some env ∧
          unloadCalls n calls = ((atTurn g names n h).unloadHooks env).map (·, [])) ∧
        ∀ n, n ∉ names → unloadCalls n calls = [] := by
  induction names generalizing h with
  | nil =>
    refine ⟨fun n => ⟨fun hn => ⟨fun hmem => (nomatch hmem), hn⟩, And.right⟩, [],
      (Aside.pure []).notes h, fun _ hmem => (nomatch hmem), fun _ _ => rfl⟩
  | cons name names ih =>
    obtain ⟨hname, hnames⟩ := List.nodup_cons.mp hnodup
    obtain ⟨hinName, hinNames⟩ := List.forall_mem_cons.mp hin
    obtain ⟨env, henv⟩ := h₀.exists_environment hinName
    have hisLoaded := isLoaded_unload hg name h₀
    have hstill : ∀ n ∈ names, (unload g name h).2.isLoaded n = true := by
      intro n hn
      rw [hisLoaded, if_neg fun heq => hname (by rw [heq]; exact hn)]
      exact hinNames n hn
    -- the first is unloaded by itself; the others are as loaded as before
    obtain ⟨calls, hfirst, hown, hothers⟩ := unload_notes hg henv hinName hnone
    obtain ⟨hgone, calls', hrest, hturns, hnever⟩ := ih hnames (Tidy.unload hg name h h₀) hstill
      (hnone.unload hg h₀ hinName)
    refine ⟨fun n => ?_, calls ++ calls', notes_forScripts_cons hfirst hrest, fun n hn => ?_, fun n hn => ?_⟩
    · refine (hgone n).trans ?_
      rw [hisLoaded, List.mem_cons]
      by_cases hn : name = n
      · simp [hn]
      · simp [hn, Ne.symm hn]
    · rw [unloadCalls_append]
      rcases List.mem_cons.mp hn with rfl | hn
      · refine ⟨env, ?_, ?_⟩
        all_goals rw [atTurn, List.takeWhile_cons_of_neg (by simp)]
        · exact henv
        · rw [hown, hnever n hname, List.append_nil]
          rfl
      · have hother : n ≠ name := fun heq => hname (heq ▸ hn)
        -- the turn of another comes after that of the first
        have hturn : atTurn g (name :: names) n h = atTurn g names n (unload g name h).2 := by
          rw [atTurn, List.takeWhile_cons_of_pos (by simpa using hother.symm)]
          rfl
        rw [hturn, hothers n hother]
        exact hturns n hn
    · rw [List.mem_cons, not_or] at hn
      rw [unloadCalls_append, hothers n hn.1, hnever n hn.2]
      rfl

end Host
end ScriptHost
