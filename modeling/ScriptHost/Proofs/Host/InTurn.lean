import ScriptHost.Proofs.Host.Errands
import ScriptHost.Proofs.Host.OneTurn

/-!
# Scripts in turn

All bundles are loaded, and all scripts unloaded, one after the other. Each step leaves the other scripts alone and the
host at rest, so that the next one finds what the first did.

* `loadEach_spec`, `unloadEach_succeeds`, `unloadEach_rests`: what several steps do, by induction on the scripts.
* `each_script_by_itself`: what becomes of the loaded scripts and of all that they own.
-/

namespace ScriptHost

variable {γ α : Type}

/-! ## Listings -/

/-- Bundles are listed in order. -/
theorem BundleFolder.sorted_list {b : BundleFolder} {files : FileTree} {names : List String}
    (hlist : b.list files = .ok names) : names.Pairwise (· < ·) := by
  have hnodup := nodup_list hlist
  unfold list at hlist
  split at hlist
  · obtain rfl := Except.ok.inj hlist
    have htrans : ∀ x y z : String, decide (x ≤ y) = true → decide (y ≤ z) = true → decide (x ≤ z) = true :=
      fun x y z hxy hyz => decide_eq_true (String.le_trans (of_decide_eq_true hxy) (of_decide_eq_true hyz))
    have htotal : ∀ x y : String, (decide (x ≤ y) || decide (y ≤ x)) = true :=
      fun x y => by simpa using String.le_total x y
    have hsorted := List.pairwise_mergeSort htrans htotal
      ((files.children b.root).filter fun name => files.isFile (b.entryPath name))
    refine (hsorted.and hnodup).imp fun {x y} ⟨hle, hne⟩ => ?_
    exact Decidable.byContradiction fun hnot =>
      hne (String.le_antisymm (of_decide_eq_true hle) (String.not_lt.mp hnot))
  · cases hlist

namespace Host

open Scheduler

variable {g : Guest γ α} {h h' : Host γ α} {name : String}

/-! ## Several scripts -/

@[simp] theorem script_ofResult (name : String) (result : Except HostError Unit) :
    (Outcome.ofResult name result).script = name := by
  cases result <;> rfl

@[simp] theorem success_ofResult (name : String) (result : Except HostError Unit) :
    (Outcome.ofResult name result).success = result.isOk := by
  cases result <;> rfl

section

variable {act : String → HostM γ α (Except HostError Unit)} {names : List String} {i : ℕ}

theorem forScripts_cons (name : String) (names : List String) (h : Host γ α) :
    forScripts act (name :: names) h =
      (.ofResult name (act name h).1 :: (forScripts act names (act name h).2).1,
        (forScripts act names (act name h).2).2) := by
  rw [forScripts, bind_run, bind_run]
  rfl

/-- The host when the turn of the `i`th script comes, of several that are dealt with one after the other. -/
def turn (act : String → HostM γ α (Except HostError Unit)) (names : List String) (i : ℕ)
    (h : Host γ α) : Host γ α :=
  (forScripts act (names.take i) h).2

@[simp] theorem turn_zero (h : Host γ α) : turn act names 0 h = h := rfl

@[simp] theorem turn_cons_succ (name : String) (h : Host γ α) :
    turn act (name :: names) (i + 1) h = turn act names i (act name h).2 := by
  rw [turn, List.take_succ_cons, forScripts_cons]
  rfl

/-- The guest code of each script acts in the script's own name when its turn comes. -/
def EachInOwnName (act : String → HostM γ α (Except HostError Unit))
    (stints : String → Host γ α → List (Stint γ α)) (names : List String) (h : Host γ α) : Prop :=
  ∀ i name, names[i]? = some name → ∀ st ∈ stints name (turn act names i h), st.InNameOf name

theorem eachInOwnName_cons {stints : String → Host γ α → List (Stint γ α)} :
    EachInOwnName act stints (name :: names) h ↔
      (∀ st ∈ stints name h, st.InNameOf name) ∧ EachInOwnName act stints names (act name h).2 := by
  constructor
  · intro hown
    refine ⟨hown 0 name rfl, fun i n hn st hst => hown (i + 1) n hn st ?_⟩
    rw [turn_cons_succ]
    exact hst
  · rintro ⟨hfirst, hothers⟩ i n hn
    cases i with
    | zero =>
      obtain rfl := Option.some.inj hn
      exact hfirst
    | succ i =>
      rw [turn_cons_succ]
      exact hothers i n hn

/-- There is one outcome for each script, in the order of the scripts: what came of it when its turn came. -/
structure OneEach (act : String → HostM γ α (Except HostError Unit)) (names : List String) (h : Host γ α)
    (outcomes : List Outcome) : Prop where
  length : outcomes.length = names.length
  outcome : ∀ i name, names[i]? = some name →
    outcomes[i]? = some (Outcome.ofResult name (act name (turn act names i h)).1)

theorem forScripts_oneEach (names : List String) (h : Host γ α) :
    OneEach act names h (forScripts act names h).1 := by
  induction names generalizing h with
  | nil => exact ⟨rfl, fun i name hname => by simp at hname⟩
  | cons name names ih =>
    have hrest := ih (act name h).2
    rw [forScripts_cons]
    refine ⟨congrArg (· + 1) hrest.length, fun i n hn => ?_⟩
    cases i with
    | zero =>
      obtain rfl := Option.some.inj hn
      rfl
    | succ i =>
      rw [turn_cons_succ]
      exact hrest.outcome i n hn

/-- The affair of each script leaves the others alone. -/
def EachSpares (act : String → HostM γ α (Except HostError Unit)) (names : List String) (h : Host γ α) : Prop :=
  ∀ i name, names[i]? = some name →
    Spares name (turn act names i h) (act name (turn act names i h)).2

theorem EachSpares.cons (hfirst : Spares name h (act name h).2)
    (hothers : EachSpares act names (act name h).2) : EachSpares act (name :: names) h := by
  intro i n hn
  cases i with
  | zero =>
    obtain rfl := Option.some.inj hn
    exact hfirst
  | succ i =>
    rw [turn_cons_succ]
    exact hothers i n hn

end

/-- Bundles that are loaded one after the other: each load leaves the others alone, the scripts of those that succeed
are loaded in the end, and under the one policy the scripts that were loaded are so still and no other is. -/
theorem loadEach_spec (hg : g.KeepsToApi) (names : List String) (hnodup : names.Nodup) (hrest : AtRest h)
    (hown : EachInOwnName (loadBundle g) (loadBundleStints g) names h) :
    let loads := forScripts (loadBundle g) names h
    AtRest loads.2 ∧ EachSpares (loadBundle g) names h ∧
      (∀ n, n ∉ names → loads.2.isLoaded n = h.isLoaded n) ∧
      (∀ o ∈ loads.1, o.success = true → loads.2.isLoaded o.script = true) ∧
      (h.policy = .reject → ∀ n, loads.2.isLoaded n = true ↔
        h.isLoaded n = true ∨ ∃ o ∈ loads.1, o.script = n ∧ o.success = true) := by
  induction names generalizing h with
  | nil =>
    refine ⟨hrest, fun i name hname => by simp at hname, fun n _ => rfl,
      fun o ho => (nomatch ho), fun _ n => ⟨.inl, fun hn => hn.resolve_right ?_⟩⟩
    rintro ⟨o, ho, -⟩
    cases ho
  | cons name names ih =>
    obtain ⟨hname, hnames⟩ := List.nodup_cons.mp hnodup
    obtain ⟨hfirst, hothers⟩ := eachInOwnName_cons.mp hown
    have hturn := loadBundle_turn hg hrest hfirst
    obtain ⟨hend, hspares, hstill, hsuccess, hreject⟩ := ih hnames hturn.rest hothers
    intro loads
    have hloads : loads = _ := forScripts_cons name names h
    rw [hloads]
    refine ⟨hend, hspares.cons hturn.spares, fun n hn => ?_, fun o ho hok => ?_, fun hpolicy n => ?_⟩
    · rw [List.mem_cons, not_or] at hn
      rw [hstill n hn.2, isLoaded, hturn.spares.loaded n hn.1]
      rfl
    · rcases List.mem_cons.mp ho with rfl | ho
      · -- the scripts whose turn is still to come are others
        rw [script_ofResult, hstill name hname]
        rw [success_ofResult] at hok
        exact hturn.loaded hok
      · exact hsuccess o ho hok
    · obtain ⟨hpolicy', hloaded⟩ := hturn.rejects hpolicy
      rw [hreject hpolicy' n, hloaded]
      simp only [Bool.or_eq_true, Bool.and_eq_true, beq_iff_eq, List.exists_mem_cons_iff, script_ofResult,
        success_ofResult]
      tauto

/-- Scripts that are loaded can all be unloaded, whatever their hooks do, and are not loaded in the end. -/
theorem unloadEach_succeeds (hg : g.KeepsToApi) (names : List String) (hnodup : names.Nodup)
    (h₀ : Orderly none h) (hin : ∀ n ∈ names, h.isLoaded n = true) :
    (forScripts (unload g) names h).1 = names.map (⟨·, true, none⟩) ∧
      ∀ n, (forScripts (unload g) names h).2.isLoaded n = true ↔ h.isLoaded n = true ∧ n ∉ names := by
  induction names generalizing h with
  | nil => exact ⟨rfl, fun n => ⟨fun hn => ⟨hn, List.not_mem_nil⟩, And.left⟩⟩
  | cons name names ih =>
    obtain ⟨hname, hnames⟩ := List.nodup_cons.mp hnodup
    obtain ⟨hinName, hinNames⟩ := List.forall_mem_cons.mp hin
    have hloaded := isLoaded_unload hg name h₀
    have hok : (unload g name h).1 = .ok () := by
      obtain ⟨env, records, -, heq⟩ := h₀.unload_eq hg hinName
      rw [heq]
    -- to unload the first leaves the others loaded
    have hstill : ∀ n ∈ names, (unload g name h).2.isLoaded n = true := by
      intro n hn
      rw [hloaded, if_neg fun heq : name = n => hname (heq ▸ hn)]
      exact hinNames n hn
    obtain ⟨houtcomes, hgone⟩ := ih hnames (Tidy.unload hg name h h₀) hstill
    rw [forScripts_cons]
    refine ⟨?_, fun n => ?_⟩
    · rw [hok, houtcomes]
      rfl
    · rw [hgone, hloaded, List.mem_cons]
      by_cases hn : name = n
      · simp [hn]
      · simp [hn, Ne.symm hn]

/-- If the hooks of each act in its own name, each unload leaves the others alone and the host at rest. -/
theorem unloadEach_rests (hg : g.KeepsToApi) (names : List String) (hnodup : names.Nodup)
    (hrest : AtRest h) (hin : ∀ n ∈ names, h.isLoaded n = true)
    (hown : EachInOwnName (unload g) (unloadStints g) names h) :
    AtRest (forScripts (unload g) names h).2 ∧ EachSpares (unload g) names h := by
  induction names generalizing h with
  | nil => exact ⟨hrest, fun i name hname => by simp at hname⟩
  | cons name names ih =>
    obtain ⟨hname, hnames⟩ := List.nodup_cons.mp hnodup
    obtain ⟨hinName, hinNames⟩ := List.forall_mem_cons.mp hin
    obtain ⟨hfirst, hothers⟩ := eachInOwnName_cons.mp hown
    obtain ⟨hnext, hspares⟩ := unload_turn hg hrest hinName hfirst
    have hstill : ∀ n ∈ names, (unload g name h).2.isLoaded n = true := by
      intro n hn
      rw [isLoaded, hspares.loaded n fun heq => hname (heq ▸ hn)]
      exact hinNames n hn
    obtain ⟨hend, hrestSpares⟩ := ih hnames hnext hstill hothers
    rw [forScripts_cons]
    exact ⟨hend, hrestSpares.cons hspares⟩

/-- There is nothing that belongs to a script. -/
structure OnlyHosts (h : Host γ α) : Prop where
  scripts : h.loadedScripts = []
  commands : h.commands.list = []
  tasks : h.scheduler.handles = []
  waiting : h.runner.queue = []
  pins : ∀ p, h.scheduler.bridge.isPinned p = false
  objects : ∀ n owner, h.objects.owner? n = some owner → owner = .host

/-- Where no script is loaded, what there is belongs to the host. -/
theorem AtRest.onlyHosts (hrest : AtRest h) (hnone : ∀ n, h.isLoaded n = false) : OnlyHosts h := by
  have hnever : ∀ {n}, h.isLoaded n = true → False := by
    intro n hn
    rw [hnone n] at hn
    cases hn
  constructor
  case scripts =>
    exact List.eq_nil_iff_forall_not_mem.mpr fun n hn => hnever ((mem_loadedScripts hrest.orderly).mp hn)
  case commands =>
    refine List.eq_nil_iff_forall_not_mem.mpr fun c hc => ?_
    obtain ⟨k, hk⟩ := NameMap.mem_values.mp hc
    exact hnever (hrest.owners.commands k c hk)
  case tasks =>
    exact List.eq_nil_iff_forall_not_mem.mpr fun k hk => hnever (hrest.owners.tasks k hk)
  -- entries and pins belong to tasks, and tasks to scripts that are loaded
  case waiting =>
    refine List.eq_nil_iff_forall_not_mem.mpr fun e he => ?_
    obtain ⟨k, -, -, hk⟩ := hrest.owners.waiting e he
    exact hnever hk
  case pins =>
    intro p
    rw [Bool.eq_false_iff]
    intro hp
    obtain ⟨k, -, -, hk⟩ := hrest.owners.pins p hp
    exact hnever hk
  case objects =>
    intro n owner hn
    cases owner with
    | host => rfl
    | script script => exact (hnever (hrest.owners.objects n script hn)).elim

theorem sorted_loadedScripts (h : Host γ α) : h.loadedScripts.Pairwise (· < ·) :=
  (Std.TreeMap.ordered_keys (t := h.environments)).imp fun hlt => compareOfLessAndEq_eq_lt.mp hlt

/-- **Each script by itself.** At a reachable host at which scripts that are not loaded own nothing, let all bundles be
loaded, or all scripts be unloaded, and let the guest code of each script act in the script's own name when its turn
comes. If the bundles cannot be listed, nothing is done. Else there is one outcome for each, in order: what came of its
load when its turn came. Each load leaves the other scripts alone; those that succeed are loaded in the end, and where
loaded scripts are not replaced, they are all that is new. All unloads succeed, whatever the hooks do, and no script is
left; each unload leaves the others alone, and in the end what there is belongs to the host. -/
theorem each_script_by_itself (hg : g.KeepsToApi) (hreach : Reachable g h) (howners : OwnersLoaded h) :
    (∀ e, h.bundles.list h.files = .error e → loadAll g h = (.error e, h)) ∧
    (∀ names, h.bundles.list h.files = .ok names →
      names.Pairwise (· < ·) ∧ ∃ outcomes, (loadAll g h).1 = .ok outcomes ∧
      OneEach (loadBundle g) names h outcomes ∧
      (EachInOwnName (loadBundle g) (loadBundleStints g) names h →
        EachSpares (loadBundle g) names h ∧ OwnersLoaded (loadAll g h).2 ∧
        (∀ o ∈ outcomes, o.success = true → (loadAll g h).2.isLoaded o.script = true) ∧
        (h.policy = .reject → ∀ n, (loadAll g h).2.isLoaded n = true ↔
          h.isLoaded n = true ∨ ∃ o ∈ outcomes, o.script = n ∧ o.success = true))) ∧
    (h.loadedScripts.Pairwise (· < ·) ∧ (∀ n, n ∈ h.loadedScripts ↔ h.isLoaded n = true) ∧
      (unloadAll g h).1 = h.loadedScripts.map (⟨·, true, none⟩) ∧
      (∀ n, (unloadAll g h).2.isLoaded n = false) ∧
      (EachInOwnName (unload g) (unloadStints g) h.loadedScripts h →
        EachSpares (unload g) h.loadedScripts h ∧ OnlyHosts (unloadAll g h).2)) := by
  have hrest : AtRest h := ⟨hreach.orderly hg, hreach.settled hg, howners⟩
  refine ⟨fun e hlist => ?unlisted, fun names hlist => ?loads, sorted_loadedScripts h,
    fun n => mem_loadedScripts hrest.orderly, ?unloads⟩
  case unlisted =>
    rw [loadAll, read_bind, hlist]
    rfl
  case loads =>
    have hall : loadAll g h = (.ok (forScripts (loadBundle g) names h).1,
        (forScripts (loadBundle g) names h).2) := by
      rw [loadAll, read_bind, hlist]
      rfl
    rw [hall]
    refine ⟨BundleFolder.sorted_list hlist, _, rfl, forScripts_oneEach names h, fun hown => ?_⟩
    obtain ⟨hend, hspares, -, hsuccess, hreject⟩ :=
      loadEach_spec hg names (BundleFolder.nodup_list hlist) hrest hown
    exact ⟨hspares, hend.owners, hsuccess, hreject⟩
  case unloads =>
    have hnodup : h.loadedScripts.Nodup := Std.TreeMap.nodup_keys
    have hin : ∀ n ∈ h.loadedScripts, h.isLoaded n = true :=
      fun n hn => (mem_loadedScripts hrest.orderly).mp hn
    obtain ⟨houtcomes, hgone⟩ := unloadEach_succeeds hg h.loadedScripts hnodup hrest.orderly hin
    -- those that were loaded are unloaded, and no others come to be loaded
    have hnone : ∀ n, (unloadAll g h).2.isLoaded n = false := by
      intro n
      rw [Bool.eq_false_iff]
      intro hn
      obtain ⟨hold, hnot⟩ := (hgone n).mp hn
      exact hnot ((mem_loadedScripts hrest.orderly).mpr hold)
    refine ⟨houtcomes, hnone, fun hown => ?_⟩
    obtain ⟨hend, hspares⟩ := unloadEach_rests hg h.loadedScripts hnodup hrest hin hown
    exact ⟨hspares, AtRest.onlyHosts hend hnone⟩

/-! ## Three bundles -/

/-- The values of a small guest: globals, the body of a script and its unload hook, and a task. -/
inductive Trio where
  | globals (number : ℕ)
  | body (name : String) (number : ℕ)
  | hook (name : String) (number : ℕ)
  | task
deriving DecidableEq

namespace Trio

/-- What each of its functions does. -/
def acts : Trio → List (Act Unit Trio)
  | .body name number => [
      .onUnload number (.hook name number),
      .share number name (some .task),
      .declare number ⟨"hello", none, .task⟩,
      .schedule name .task .sync (.repeating 1 1)]
  | .hook name number => [.share number "late" (some .task), .schedule name .task .sync .immediate]
  | _ => []

/-- How a call ends: one body fails, and so do all hooks. -/
def outcome : Trio → Except GuestError (List Trio)
  | .body name _ => if name == "beta" then .error (.runtime "no") else .ok []
  | .hook _ _ => .error (.runtime "late")
  | _ => .ok []

/-- A guest that knows the bodies by the names of their scripts. -/
def guest : Guest Unit Trio where
  createGlobals _ _ number := pure (.globals number)
  compile name globals _ := pure <|
    match globals with
    | .globals number => .ok (.body name number)
    | _ => .error (.parsing "no globals")
  call f _ := fun h => (f.outcome, Act.performAll f.acts h)
  ofText _ := .task
  display _ := ""
  readVariable _ _ := pure none

theorem guest_keepsToApi : guest.KeepsToApi where
  createGlobals _ _ _ _ := ⟨[], rfl⟩
  compile _ _ _ _ := ⟨[], rfl⟩
  call f _ _ := ⟨f.acts, rfl⟩
  readVariable _ _ _ := ⟨[], rfl⟩

/-- A tree with three bundles. -/
def files : FileTree :=
  ((({} : FileTree).write "scripts/alpha/main.lua" ByteArray.empty).write
    "scripts/beta/main.lua" ByteArray.empty).write "scripts/gamma/main.lua" ByteArray.empty

/-- A new host with this tree. -/
def fresh : Host Unit Trio := { guest := (), files := files }

/-- What the tree holds, and what is at the place of each bundle. -/
theorem files_spec : files.isFolder "scripts" = true ∧
    files.children "scripts" = ["alpha", "beta", "gamma"] ∧
    (["alpha", "beta", "gamma"].Pairwise fun a b => a ≤ b) ∧
    ∀ name ∈ ["alpha", "beta", "gamma"], isScriptName name = true ∧
      files.isFile ((⟨"scripts", "main.lua"⟩ : BundleFolder).entryPath name) = true ∧
      files.readText ((⟨"scripts", "main.lua"⟩ : BundleFolder).entryPath name) = .ok "" := by
  simp only [FileTree.isFolder, FileTree.children, FileTree.isFile, FileTree.readText, Parting.locate_eq]
  decide +kernel

theorem list_files :
    (⟨"scripts", "main.lua"⟩ : BundleFolder).list files = .ok ["alpha", "beta", "gamma"] := by
  obtain ⟨hfolder, hchildren, hsorted, hbundles⟩ := files_spec
  rw [BundleFolder.list, if_pos hfolder, hchildren,
    List.filter_eq_self.mpr fun name hname => (hbundles name hname).2.1,
    List.mergeSort_of_pairwise (hsorted.imp fun hle => decide_eq_true hle)]

theorem read_files {name : String} (hname : name ∈ ["alpha", "beta", "gamma"]) :
    (⟨"scripts", "main.lua"⟩ : BundleFolder).read files name =
      .ok ⟨name, (⟨"scripts", "main.lua"⟩ : BundleFolder).folder name, ""⟩ := by
  obtain ⟨-, hfile, htext⟩ := files_spec.2.2.2 name hname
  rw [BundleFolder.read, if_pos hfile, htext]

/-- A bundle of the tree is brought up where its script is not loaded. -/
theorem loadBundle_eq {h : Host Unit Trio} {name : String} (hname : name ∈ ["alpha", "beta", "gamma"])
    (hsettings : SameSettings fresh h) (hout : h.isLoaded name = false) :
    loadBundle guest name h = bringUp guest name (.bundle (fresh.bundles.folder name)) "" h ∧
      loadBundleStints guest name h =
        bringUpStints guest name (.bundle (fresh.bundles.folder name)) "" h := by
  have hscript := (files_spec.2.2.2 name hname).1
  have hread : fresh.bundles.read fresh.files name = .ok ⟨name, fresh.bundles.folder name, ""⟩ :=
    read_files hname
  unfold loadBundle loadBundleStints
  rw [if_pos hscript, if_pos hscript, read_bind, hsettings.bundles, hsettings.files, hread]
  constructor
  · dsimp only
    rw [loadFrom_eq, bind_run, makeRoom_of_not_loaded hout]
  · dsimp only
    rw [loadFromStints, makeRoom_of_not_loaded hout, makeRoomStints, hout]
    rfl

/-- Where its script is loaded, the bundle is refused. -/
theorem loadBundle_refused {h : Host Unit Trio} {name : String} (hname : name ∈ ["alpha", "beta", "gamma"])
    (hsettings : SameSettings fresh h) (hin : h.isLoaded name = true) :
    loadBundle guest name h = (.error (.alreadyLoaded name), h) ∧ loadBundleStints guest name h = [] := by
  have hscript := (files_spec.2.2.2 name hname).1
  have hread : fresh.bundles.read fresh.files name = .ok ⟨name, fresh.bundles.folder name, ""⟩ :=
    read_files hname
  unfold loadBundle loadBundleStints
  rw [if_pos hscript, if_pos hscript, read_bind, hsettings.bundles, hsettings.files, hread]
  constructor
  · dsimp only
    rw [loadFrom_eq, bind_run, makeRoom_of_reject hin hsettings.policy]
    rfl
  · dsimp only
    rw [loadFromStints, makeRoom_of_reject hin hsettings.policy, makeRoomStints, hin, hsettings.policy]
    rfl

/-- The load hooks that a load comes to call. -/
def calledHooks (name : String) (origin : Origin) (h : Host Unit Trio) : List Trio :=
  let ran := instantiate guest name origin "" (setPhase name (some .loading) h).2
  match ran.1 with
  | .error _ => []
  | .ok env => (publish name ((setPhase name none ran.2).2.entered name env)).2.loadHooks env

/-- A body acts in the name of its script; so does the whole load, if there are no load hooks. -/
theorem bringUpStints_own {h : Host Unit Trio} {name : String} {origin : Origin}
    (hhooks : calledHooks name origin h = []) :
    ∀ st ∈ bringUpStints guest name origin "" h, st.InNameOf name := by
  -- the body has the control object that the load has made
  have hcontrol : ControlOf name h.controls.size
      ((setPhase name (some .loading) h).2.withControl name origin) :=
    ⟨_, control?_withControl_size, rfl⟩
  have hnil : ∀ {h' : Host Unit Trio}, Stint.InNameOf name ⟨h', h'⟩ :=
    ⟨[], fun _ hact => (nomatch hact), rfl⟩
  have hbody : ∀ st ∈ instantiateStints guest name origin "" (setPhase name (some .loading) h).2,
      st.InNameOf name := by
    show ∀ st ∈ [_, _, _], Stint.InNameOf name st
    simp only [List.forall_mem_cons]
    refine ⟨hnil, hnil, ⟨acts (.body name h.controls.size), fun act hact => ⟨_, hcontrol, ?_⟩, rfl⟩,
      fun _ hst => nomatch hst⟩
    simp only [acts, List.mem_cons, List.not_mem_nil, or_false] at hact
    rcases hact with rfl | rfl | rfl | rfl <;> rfl
  intro st hst
  rcases List.mem_append.mp hst with hst | hst
  · exact hbody st hst
  · cases hended : (instantiate guest name origin "" (setPhase name (some .loading) h).2).1 with
    | error e =>
      rw [hended] at hst
      cases hst
    | ok env =>
      dsimp only [calledHooks] at hhooks
      rw [hended] at hst hhooks
      dsimp only [enterStints] at hst hhooks
      rw [hhooks] at hst
      cases hst

/-- The host that has loaded the first of the bundles. -/
def start : Host Unit Trio := (loadBundle guest "alpha" fresh).2

theorem fresh_reachable : Reachable guest fresh :=
  .new () .reject ⟨"scripts", "main.lua"⟩ files ⟨0, 0⟩ #[]

theorem fresh_rest : AtRest fresh := by
  have h₀ := fresh_reachable.orderly guest_keepsToApi
  have hsettled := fresh_reachable.settled guest_keepsToApi
  exact ⟨h₀, hsettled, (ownersLive_new () .reject _ files _ _).loaded
    (commandsLoaded_new () .reject _ files _ _) h₀ hsettled⟩

theorem start_reachable : Reachable guest start := .step fresh_reachable (.loadBundle "alpha")

theorem loadBundle_fresh : loadBundle guest "alpha" fresh =
      bringUp guest "alpha" (.bundle (fresh.bundles.folder "alpha")) "" fresh ∧
    loadBundleStints guest "alpha" fresh =
      bringUpStints guest "alpha" (.bundle (fresh.bundles.folder "alpha")) "" fresh := by
  refine loadBundle_eq (by decide) ⟨rfl, rfl, rfl⟩ ?_
  rw [isLoaded, fresh, NameMap.get?_empty]
  rfl

theorem start_eq : start = (bringUp guest "alpha" (.bundle (fresh.bundles.folder "alpha")) "" fresh).2 := by
  rw [start, loadBundle_fresh.1]

/-- The host at which the second bundle has failed to load. -/
def midway : Host Unit Trio :=
  (bringUp guest "beta" (.bundle (fresh.bundles.folder "beta")) "" start).2

/-- The host at which all have been tried. -/
def ended : Host Unit Trio :=
  (bringUp guest "gamma" (.bundle (fresh.bundles.folder "gamma")) "" midway).2

/-- The one unload hook of a script, and the number of its control. -/
def unloadHook (h : Host Unit Trio) (name : String) : Option (ℕ × List Trio) :=
  (h.environment? name).map fun env => (env.control, h.unloadHooks env)

/-- What is loaded in the course of the loads, which load hooks they call, which of them succeed, and which unload
hooks there are in the end. -/
theorem course :
    calledHooks "alpha" (.bundle (fresh.bundles.folder "alpha")) fresh = [] ∧
    (start.isLoaded "alpha" = true ∧ start.isLoaded "beta" = false) ∧
    (calledHooks "beta" (.bundle (fresh.bundles.folder "beta")) start = [] ∧
      (bringUp guest "beta" (.bundle (fresh.bundles.folder "beta")) "" start).1.isOk = false) ∧
    midway.isLoaded "gamma" = false ∧
    (calledHooks "gamma" (.bundle (fresh.bundles.folder "gamma")) midway = [] ∧
      (bringUp guest "gamma" (.bundle (fresh.bundles.folder "gamma")) "" midway).1.isOk = true) ∧
    ended.loadedScripts = ["alpha", "gamma"] ∧
    unloadHook ended "alpha" = some (0, [.hook "alpha" 0]) ∧
    unloadHook (unload guest "alpha" ended).2 "gamma" = some (2, [.hook "gamma" 2]) := by
  rw [ended, midway, start_eq]
  decide +kernel

theorem start_rest : AtRest start := by
  refine (loadBundle_turn guest_keepsToApi fresh_rest ?_).rest
  rw [loadBundle_fresh.2]
  exact bringUpStints_own course.1

theorem start_settings : SameSettings fresh start := by
  rw [start_eq]
  exact sameSettings_bringUp guest_keepsToApi fresh_rest.orderly ..

theorem loadBundle_alpha : loadBundle guest "alpha" start = (.error (.alreadyLoaded "alpha"), start) ∧
    loadBundleStints guest "alpha" start = [] := by
  obtain ⟨-, ⟨hin, -⟩, -⟩ := course
  exact loadBundle_refused (by decide) start_settings hin

theorem loadBundle_beta : loadBundle guest "beta" start =
      bringUp guest "beta" (.bundle (fresh.bundles.folder "beta")) "" start ∧
    loadBundleStints guest "beta" start =
      bringUpStints guest "beta" (.bundle (fresh.bundles.folder "beta")) "" start := by
  obtain ⟨-, ⟨-, hout⟩, -⟩ := course
  exact loadBundle_eq (by decide) start_settings hout

theorem loadBundle_gamma : loadBundle guest "gamma" midway =
      bringUp guest "gamma" (.bundle (fresh.bundles.folder "gamma")) "" midway ∧
    loadBundleStints guest "gamma" midway =
      bringUpStints guest "gamma" (.bundle (fresh.bundles.folder "gamma")) "" midway := by
  obtain ⟨-, -, -, hout, -⟩ := course
  exact loadBundle_eq (by decide)
    (start_settings.trans (sameSettings_bringUp guest_keepsToApi start_rest.orderly ..)) hout

theorem loads_own :
    EachInOwnName (loadBundle guest) (loadBundleStints guest) ["alpha", "beta", "gamma"] start := by
  obtain ⟨-, -, ⟨hbeta, -⟩, -, ⟨hgamma, -⟩, -⟩ := course
  rw [eachInOwnName_cons, loadBundle_alpha.1, loadBundle_alpha.2, eachInOwnName_cons, loadBundle_beta.1,
    loadBundle_beta.2]
  refine ⟨fun _ hst => (nomatch hst), bringUpStints_own hbeta, ?_⟩
  show EachInOwnName _ _ ["gamma"] midway
  rw [eachInOwnName_cons, loadBundle_gamma.2]
  exact ⟨bringUpStints_own hgamma, fun i name hname => by simp at hname⟩

theorem list_start : start.bundles.list start.files = .ok ["alpha", "beta", "gamma"] := by
  rw [start_settings.bundles, start_settings.files]
  exact list_files

theorem loadAll_ended : (loadAll guest start).2 = ended := by
  have hall : (loadAll guest start).2 =
      (forScripts (loadBundle guest) ["alpha", "beta", "gamma"] start).2 := by
    rw [loadAll, read_bind, list_start]
    rfl
  rw [hall, forScripts_cons, forScripts_cons, loadBundle_alpha.1, loadBundle_beta.1, forScripts_cons]
  exact congrArg Prod.snd loadBundle_gamma.1

/-- The unload hook of a body acts in the name of its script. -/
theorem unloadStints_own {h : Host Unit Trio} {name : String} (h₀ : Orderly none h) (number : ℕ)
    (hhooks : unloadHook h name = some (number, [.hook name number])) :
    ∀ st ∈ unloadStints guest name h, st.InNameOf name := by
  obtain ⟨env, henv, hpair⟩ := Option.map_eq_some_iff.mp hhooks
  obtain ⟨hcontrol, hhook⟩ := Prod.mk.inj hpair
  have hown : ControlOf name env.control (setPhase name (some .unloading) h).2 :=
    (h₀.environment name env henv).2
  rw [unloadStints_of_loaded henv (h₀.isLoaded_of_environment henv), hhook]
  intro st hst
  obtain rfl := List.mem_singleton.mp hst
  refine ⟨acts (.hook name number), fun act hact => ⟨number, hcontrol ▸ hown, ?_⟩, rfl⟩
  simp only [acts, List.mem_cons, List.not_mem_nil, or_false] at hact
  rcases hact with rfl | rfl <;> rfl

theorem unloads_own (h₀ : Orderly none ended) :
    EachInOwnName (unload guest) (unloadStints guest) ["alpha", "gamma"] ended := by
  obtain ⟨-, -, -, -, -, -, halpha, hgamma⟩ := course
  rw [eachInOwnName_cons, eachInOwnName_cons]
  exact ⟨unloadStints_own h₀ 0 halpha, unloadStints_own (Tidy.unload guest_keepsToApi "alpha" _ h₀) 2 hgamma,
    fun i name hname => by simp at hname⟩

theorem ended_reachable : Reachable guest ended := by
  rw [← loadAll_ended]
  exact .step start_reachable .loadAll

theorem ended_orderly : Orderly none ended := ended_reachable.orderly guest_keepsToApi

end Trio

/-- Of three bundles one is loaded already, one fails and one succeeds; then those that are loaded are unloaded. -/
theorem three_scripts_by_themselves :
    ∃ outcomes, (loadAll Trio.guest Trio.start).1 = .ok outcomes ∧
      outcomes.map (fun o => (o.script, o.success)) =
        [("alpha", false), ("beta", false), ("gamma", true)] ∧
      Trio.ended.isLoaded "gamma" = true ∧
      (unloadAll Trio.guest Trio.ended).1 = [⟨"alpha", true, none⟩, ⟨"gamma", true, none⟩] ∧
      OnlyHosts (unloadAll Trio.guest Trio.ended).2 := by
  obtain ⟨-, hloads, -⟩ := each_script_by_itself Trio.guest_keepsToApi Trio.start_reachable
    Trio.start_rest.owners
  obtain ⟨-, outcomes, hok, heach, hown⟩ := hloads _ Trio.list_start
  obtain ⟨-, howners, hsuccess, -⟩ := hown Trio.loads_own
  rw [Trio.loadAll_ended] at howners hsuccess
  -- what came of each when its turn came
  obtain ⟨-, -, ⟨-, hbeta⟩, -, ⟨-, hgamma⟩, hloadedScripts, -⟩ := Trio.course
  rw [← Trio.loadBundle_beta.1] at hbeta
  rw [← Trio.loadBundle_gamma.1] at hgamma
  obtain ⟨a, b, c, rfl⟩ := List.length_eq_three.mp heach.length
  have ha := Option.some.inj (heach.outcome 0 "alpha" rfl)
  have hb := Option.some.inj (heach.outcome 1 "beta" rfl)
  have hc := Option.some.inj (heach.outcome 2 "gamma" rfl)
  simp only [turn_cons_succ, turn_zero, Trio.loadBundle_alpha.1, Trio.loadBundle_beta.1] at ha hb hc
  rw [← Trio.loadBundle_beta.1] at hb
  obtain ⟨-, -, hunloads⟩ := each_script_by_itself Trio.guest_keepsToApi Trio.ended_reachable howners
  obtain ⟨-, -, houtcomes, -, hleft⟩ := hunloads
  rw [hloadedScripts] at houtcomes hleft
  have hgammaEnds : c = Outcome.ofResult "gamma" (loadBundle Trio.guest "gamma" Trio.midway).1 := hc
  have hcok : c.success = true := by
    rw [hgammaEnds, success_ofResult, hgamma]
  have hcscript : c.script = "gamma" := by
    rw [hgammaEnds, script_ofResult]
  have hloaded := hsuccess c (by simp) hcok
  rw [hcscript] at hloaded
  refine ⟨_, hok, ?_, hloaded, houtcomes, (hleft (Trio.unloads_own Trio.ended_orderly)).2⟩
  simp only [List.map_cons, List.map_nil, ha, hb, hcok, hcscript, script_ofResult, success_ofResult, hbeta]
  rfl

end Host
end ScriptHost
