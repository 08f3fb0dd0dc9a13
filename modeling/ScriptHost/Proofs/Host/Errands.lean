import ScriptHost.Program
import ScriptHost.Proofs.Host.Departures

/-!
# Errands

Two commands of the program load every bundle, see to one thing and end: reading a variable, and invoking a command
of a script. When they have seen to it they unload what they have loaded, so that the scripts' unload hooks are
called (`errand_unloads_unless_it_fails`). When they cannot see to it they end at once, and the scripts are not
unloaded.
-/

namespace ScriptHost

variable {γ α : Type}

/-- What a command that loads every bundle is to see to, and the number of ticks to run. -/
inductive Errand where
  | get (script path : String) (ticks : ℕ)
  | call (command : String) (arguments : List String) (ticks : ℕ)

namespace Errand

/-- The command. -/
def task : Errand → Task
  | .get script path ticks => .get script path ticks
  | .call command arguments ticks => .call command arguments ticks

/-- See to it, when the bundles are loaded. -/
def run (g : Guest γ α) : Errand → HostM γ α (Except HostError Report)
  | .get script path ticks => do
    if (← Host.read).isLoaded script then
      let _ ← Host.runTicks g ticks
      let item ← Host.inspect g script path
      pure (.ok (.variable item))
    else pure (.error (.notLoaded script))
  | .call command arguments ticks => do
    match ← Host.dispatch g command arguments with
    | .error e => pure (.error e)
    | .ok text =>
      let _ ← Host.runTicks g ticks
      pure (.ok (.message text))

end Errand

namespace Host

variable {g : Guest γ α} {h : Host γ α}

/-- The command loads, sees to its errand, and unloads if it could see to it. -/
theorem perform_errand (g : Guest γ α) {s : Settings} {errand : Errand} (htask : s.task = errand.task) :
    perform g s = (do
      match ← loadAll g with
      | .error e => pure (.failed e [])
      | .ok _ =>
        match ← errand.run g with
        | .error e => pure (.failed e [])
        | .ok report =>
          let _ ← shutdown g
          pure ⟨[report], none⟩) := by
  unfold perform
  rw [htask]
  cases errand with
  | get script path ticks =>
    refine congrArg (loadAll g >>= ·) (funext fun answer => ?_)
    cases answer with
    | error e => rfl
    | ok outcomes =>
      funext h
      dsimp only [Errand.run]
      rw [read_bind, bind_run, read_bind]
      cases h.isLoaded script <;> rfl
  | call command arguments ticks =>
    refine congrArg (loadAll g >>= ·) (funext fun answer => ?_)
    cases answer with
    | error e => rfl
    | ok outcomes =>
      funext h
      dsimp only [Errand.run]
      rw [bind_run, bind_run, bind_run]
      cases (dispatch g command arguments h).1 <;> rfl

/-! ## While the errand is seen to -/

/-- Order is kept, and no script comes or goes. -/
def Stays {β : Type} (x : HostM γ α β) : Prop :=
  ∀ h, Orderly none h → Orderly none (x h).2 ∧ (x h).2.environments = h.environments

theorem Stays.bind {β δ : Type} {x : HostM γ α β} {f : β → HostM γ α δ} (hx : Stays x)
    (hf : ∀ b, Stays (f b)) : Stays (x >>= f) := by
  intro h h₀
  obtain ⟨hmid, hsame⟩ := hx h h₀
  obtain ⟨hend, hsame'⟩ := hf (x h).1 (x h).2 hmid
  exact ⟨hend, hsame'.trans hsame⟩

theorem Stays.pure {β : Type} (b : β) : Stays (Pure.pure b : HostM γ α β) := fun _ h₀ => ⟨h₀, rfl⟩

theorem stays_tickTimes (hg : g.KeepsToApi) (n fired : ℕ) : Stays (tickTimes g n fired) := by
  induction n generalizing fired with
  | zero => exact .pure fired
  | succ n ih =>
    exact .bind (fun h h₀ => ⟨Tidy.tick hg h h₀, (tick_work hg h₀).environments⟩) fun more => ih _

theorem Errand.stays (hg : g.KeepsToApi) (errand : Errand) : Stays (errand.run g) := by
  cases errand with
  | get script path ticks =>
    intro h h₀
    rw [Errand.run, read_bind]
    cases h.isLoaded script with
    | false => exact ⟨h₀, rfl⟩
    | true =>
      have hinspect : Stays (inspect g script path) := fun h h₀ =>
        ⟨Tidy.inspect hg script path h h₀, (inspect_work hg script path h₀).environments⟩
      exact (Stays.bind (stays_tickTimes hg ticks 0) fun _ => .bind hinspect fun _ => .pure _) h h₀
  | call command arguments ticks =>
    refine .bind (fun h h₀ => ?_) fun answer => ?_
    · exact ⟨Tidy.dispatch hg command arguments h h₀, (dispatch_work hg command arguments h₀).environments⟩
    · cases answer with
      | error e => exact .pure _
      | ok text => exact .bind (stays_tickTimes hg ticks 0) fun _ => .pure _

theorem Errand.follows (hg : g.KeepsToApi) (errand : Errand) {J : Std.TreeMap String Phase → Prop} :
    Follows J (errand.run g) (errand.run g.noting) := by
  cases errand with
  | get script path ticks =>
    refine .reading (fun _ _ => rfl) fun h => ?_
    rw [noting_isLoaded]
    cases h.isLoaded script with
    | false => exact .pure _
    | true =>
      exact .bind (.tickTimes hg ticks 0) fun _ => .bind (.inspect hg script path) fun _ => .pure _
  | call command arguments ticks =>
    refine .bind (.dispatch hg command arguments) fun answer => ?_
    cases answer with
    | error e => exact .pure _
    | ok text => exact .bind (.tickTimes hg ticks 0) fun _ => .pure _

/-! ## Shutdown -/

theorem mem_loadedScripts (h₀ : Orderly none h) {name : String} :
    name ∈ h.loadedScripts ↔ h.isLoaded name = true := by
  rw [h₀.isLoaded_eq, environment?, Std.TreeMap.get?_eq_getElem?, ← Std.TreeMap.mem_iff_isSome_getElem?,
    loadedScripts, Std.TreeMap.mem_keys]

/-- At a shutdown every script that is loaded is unloaded, with its hooks called once, when its turn comes. -/
theorem shutdown_spec (hg : g.KeepsToApi) (h₀ : Orderly none h) (hnone : NoneUnloading h.phases) :
    (∀ name, (shutdown g h).2.isLoaded name = false) ∧
      ∃ calls : List (Call γ α), Notes (shutdown g) (shutdown g.noting) h calls ∧
        ∀ name, h.isLoaded name = true →
          ∃ env, (atTurn g h.loadedScripts name h).environment? name = some env ∧
            unloadCalls name calls = ((atTurn g h.loadedScripts name h).unloadHooks env).map (·, []) := by
  obtain ⟨hgone, calls, hnotes, hturns, -⟩ := unloadEach_spec hg h.loadedScripts Std.TreeMap.nodup_keys h₀
    (fun n hn => (mem_loadedScripts h₀).mp hn) hnone
  have hall : Notes (unloadAll g) (unloadAll g.noting) h calls := hnotes
  refine ⟨fun name => ?_, calls, ?_, fun name hname => hturns name ((mem_loadedScripts h₀).mpr hname)⟩
  · obtain ⟨records, hlog⟩ := logAll_eq (h := (unloadAll g h).2)
      (((unloadAll g h).1.filter fun o => !o.success).map fun o =>
        let reason := o.error.getD "unknown error"
        loopRecord .error s!"Unloading '{o.script}' failed: {reason}")
    -- what a shutdown does besides is to log the unloads that failed
    have hsame : (shutdown g h).2.isLoaded name = (unloadAll g h).2.isLoaded name :=
      congrArg (fun x : Unit × Host γ α => x.2.isLoaded name) hlog
    rw [hsame, Bool.eq_false_iff]
    intro hloaded
    obtain ⟨hnot, hin⟩ := (hgone name).mp hloaded
    exact hnot ((mem_loadedScripts h₀).mpr hin)
  · have hlogged : Notes (shutdown g) (shutdown g.noting) h (calls ++ []) := by
      unfold shutdown
      exact hall.bind (((Aside.logAll _).bind fun _ => .pure _).notes _)
    rw [List.append_nil] at hlogged
    exact hlogged

/-! ## The whole command -/

section

variable {s : Settings} {errand : Errand} {h₁ h₂ h₃ : Host γ α} {e : HostError} {outcomes : List Outcome}
  {report : Report}

/-- If the bundles cannot be listed, the command ends there. -/
theorem perform_of_unlisted (htask : s.task = errand.task) (hlist : loadAll g h = (.error e, h₁)) :
    perform g s h = (.failed e [], h₁) := by
  rw [perform_errand g htask, bind_run, hlist]
  rfl

/-- If its errand fails, nothing more is done. -/
theorem perform_of_failure (htask : s.task = errand.task) (hlist : loadAll g h = (.ok outcomes, h₁))
    (hrun : errand.run g h₁ = (.error e, h₂)) : perform g s h = (.failed e [], h₂) := by
  rw [perform_errand g htask, bind_run, hlist]
  dsimp only
  rw [bind_run, hrun]
  rfl

/-- If it could see to its errand, it shuts down. -/
theorem perform_of_success (htask : s.task = errand.task) (hlist : loadAll g h = (.ok outcomes, h₁))
    (hrun : errand.run g h₁ = (.ok report, h₂)) (hshut : (shutdown g h₂).2 = h₃) :
    perform g s h = (⟨[report], none⟩, h₃) := by
  rw [perform_errand g htask, bind_run, hlist, ← hshut]
  dsimp only
  rw [bind_run, hrun]
  rfl

end

/-- Every bundle is loaded, from a host that has loaded none. -/
theorem loadAll_spec (hg : g.KeepsToApi) (h₀ : Orderly none h) (hout : ∀ n, h.isLoaded n = false)
    (hnone : NoneUnloading h.phases) : NoneUnloading (loadAll g h).2.phases ∧
      (∀ n, (loadAll g h).2.isLoaded n = true ↔
        ∃ outcomes, (loadAll g h).1 = .ok outcomes ∧ ⟨n, true, none⟩ ∈ outcomes) ∧
      ∃ calls : List (Call γ α), (∀ call ∈ calls, NoneUnloading call.host.phases) ∧
        Notes (loadAll g) (loadAll g.noting) h calls := by
  unfold loadAll
  rw [read_bind]
  cases hlist : h.bundles.list h.files with
  | error e =>
    refine ⟨hnone, fun n => ⟨fun hn => ?_, fun ⟨_, heq, _⟩ => nomatch heq⟩, [],
      fun _ hcall => (nomatch hcall), fun noted => ?_⟩
    · have hn : h.isLoaded n = true := hn
      rw [hout] at hn
      cases hn
    · rw [read_bind, read_bind, noting_bundles, noting_files, hlist, List.append_nil]
      rfl
  | ok names =>
    obtain ⟨hend, hloaded, calls, hcalls, hnotes⟩ :=
      loadBundles_spec hg names (BundleFolder.nodup_list hlist) h₀ (fun n _ => hout n) hnone
    refine ⟨hend, fun n => (hloaded n).trans ?_, calls, hcalls, fun noted => ?_⟩
    · rw [hout, or_iff_left Bool.false_ne_true]
      exact ⟨fun hmem => ⟨_, rfl, hmem⟩, fun ⟨outcomes, heq, hmem⟩ => Except.ok.inj heq ▸ hmem⟩
    · rw [read_bind, read_bind, noting_bundles, noting_files, hlist]
      dsimp only
      rw [bind_run, bind_run, hnotes noted]
      rfl

/-- **An errand that is seen to ends with every script unloaded.** Let a command load every bundle at a new host and
see to its errand. What is noted of its calls changes nothing. The scripts that are loaded are those whose loads
succeed. If the command ends without an error, each of them is unloaded at the end, and its unload hooks, as they are
when its turn comes, have been called once, in order. If it ends with an error, each of them is still loaded, and
none of its unload hooks has been called. -/
theorem errand_unloads_unless_it_fails (hg : g.KeepsToApi) {s : Settings} {errand : Errand}
    (htask : s.task = errand.task) (guest : γ) (policy : DoubleLoad) (bundles : BundleFolder)
    (files : FileTree) (now : Timestamp) (records : Array Record) :
    let start : Host γ α := { guest, policy, bundles, files, now, records }
    let loads := loadAll g start
    let ready := (errand.run g loads.2).2
    let ended := perform g s start
    let noted := perform g.noting s (start.noting [])
    (noted.1 = ended.1 ∧ noted.2.bare = ended.2) ∧
      (∀ name, loads.2.isLoaded name = true ↔
        ∃ outcomes, loads.1 = .ok outcomes ∧ ⟨name, true, none⟩ ∈ outcomes) ∧
      (ended.1.error = none → ∀ name, loads.2.isLoaded name = true →
        ended.2.isLoaded name = false ∧
          ∃ env, (atTurn g ready.loadedScripts name ready).environment? name = some env ∧
            unloadCalls name noted.2.guest.2 =
              ((atTurn g ready.loadedScripts name ready).unloadHooks env).map (·, [])) ∧
      (ended.1.error ≠ none → ∀ name, loads.2.isLoaded name = true →
        ended.2.isLoaded name = true ∧ unloadCalls name noted.2.guest.2 = []) := by
  intro start loads ready ended noted
  have h₀ : Orderly none start :=
    (Reachable.new guest policy bundles files now records : Reachable g start).orderly hg
  obtain ⟨hnone, hloaded, calls, hcalls, hnotes⟩ := loadAll_spec hg h₀
    (fun n => by rw [isLoaded, NameMap.get?_empty]; rfl) fun n hn => by
      rw [NameMap.get?_empty] at hn; cases hn
  have hloads₀ : Orderly none loads.2 := Tidy.loadAll hg start h₀
  obtain ⟨hready₀, hstays⟩ := Errand.stays hg errand loads.2 hloads₀
  obtain ⟨hnone', calls', hcalls', hnotes'⟩ := Errand.follows hg errand loads.2 hnone
  -- an errand neither loads nor unloads a script, and calls no unload hook
  have hstill : ∀ name, ready.isLoaded name = loads.2.isLoaded name := fun name => by
    rw [hready₀.isLoaded_eq, hloads₀.isLoaded_eq, environment?, hstays]
    rfl
  have hquiet : ∀ name, unloadCalls name (calls ++ calls') = [] := fun name => by
    rw [unloadCalls_append, unloadCalls_of_none hcalls, unloadCalls_of_none hcalls']
    rfl
  have hloads' : loadAll g.noting (start.noting []) = (loads.1, loads.2.noting calls) := hnotes []
  have hready' : errand.run g.noting (loads.2.noting calls) =
      ((errand.run g loads.2).1, ready.noting (calls ++ calls')) := hnotes' calls
  cases hlist : loads.1 with
  | error e =>
    -- nothing is listed, and nothing loaded
    have hended : ended = (.failed e [], loads.2) := perform_of_unlisted htask (Prod.ext hlist rfl)
    have hnoted : noted = (.failed e [], loads.2.noting calls) :=
      perform_of_unlisted htask (hloads'.trans (Prod.ext hlist rfl))
    rw [hnoted, hended]
    refine ⟨⟨rfl, rfl⟩, hlist ▸ hloaded, fun hend => (by cases hend), fun _ name hname => ?_⟩
    obtain ⟨outcomes, hok, -⟩ := (hloaded name).mp hname
    cases hok.symm.trans hlist
  | ok outcomes =>
    have hloads'' : loadAll g.noting (start.noting []) = (.ok outcomes, loads.2.noting calls) :=
      hloads'.trans (Prod.ext hlist rfl)
    cases hrun : (errand.run g loads.2).1 with
    -- an errand that fails ends the command before the shutdown
    | error e =>
      have hended : ended = (.failed e [], ready) :=
        perform_of_failure htask (Prod.ext hlist rfl) (Prod.ext hrun rfl)
      have hnoted : noted = (.failed e [], ready.noting (calls ++ calls')) :=
        perform_of_failure htask hloads'' (hready'.trans (Prod.ext hrun rfl))
      rw [hnoted, hended]
      exact ⟨⟨rfl, rfl⟩, hlist ▸ hloaded, fun hend => (by cases hend),
        fun _ name hname => ⟨(hstill name).trans hname, hquiet name⟩⟩
    | ok report =>
      -- only the shutdown unloads, each script with the hooks that it has by then
      obtain ⟨hgone, calls'', hshut, hturns⟩ := shutdown_spec hg hready₀ hnone'
      have hended : ended = (⟨[report], none⟩, (shutdown g ready).2) :=
        perform_of_success htask (Prod.ext hlist rfl) (Prod.ext hrun rfl) rfl
      have hnoted : noted = (⟨[report], none⟩, (shutdown g ready).2.noting (calls ++ calls' ++ calls'')) :=
        perform_of_success htask hloads'' (hready'.trans (Prod.ext hrun rfl)) (congrArg Prod.snd (hshut _))
      rw [hnoted, hended]
      refine ⟨⟨rfl, rfl⟩, hlist ▸ hloaded, fun _ name hname => ⟨hgone name, ?_⟩, fun hend => absurd rfl hend⟩
      obtain ⟨env, henv, hhooks⟩ := hturns name ((hstill name).trans hname)
      refine ⟨env, henv, ?_⟩
      show unloadCalls name (calls ++ calls' ++ calls'') = _
      rw [unloadCalls_append, hquiet]
      exact hhooks

/-! ## A script that says good-bye -/

/-- The values of a small guest: globals, and a body that leaves word to be called when it is unloaded. -/
inductive Parting where
  | globals (number : ℕ)
  | body (number : ℕ)
  | farewell
deriving DecidableEq

namespace Parting

/-- What each of its functions does. -/
def acts : Parting → List (Act Unit Parting)
  | .body number => [.onUnload number .farewell]
  | _ => []

/-- A guest to which every source is the same body. -/
def guest : Guest Unit Parting where
  createGlobals _ _ number := pure (.globals number)
  compile _ globals _ := pure <|
    match globals with
    | .globals number => .ok (.body number)
    | _ => .error (.parsing "no globals")
  call f _ := fun h => (.ok [], Act.performAll f.acts h)
  ofText _ := .farewell
  display _ := ""
  readVariable _ _ := pure none

theorem guest_keepsToApi : guest.KeepsToApi where
  createGlobals _ _ _ _ := ⟨[], rfl⟩
  compile _ _ _ _ := ⟨[], rfl⟩
  call f _ _ := ⟨f.acts, rfl⟩
  readVariable _ _ _ := ⟨[], rfl⟩

/-- A tree with one bundle. -/
def files : FileTree := ({} : FileTree).write "scripts/ping/main.lua" ByteArray.empty

/-- A new host with this tree. -/
def start : Host Unit Parting := { guest := (), files := files }

/-- Where a path leads, with the path as a list of characters. -/
theorem locate_eq (t : FileTree) (path : String) : t.locate path =
    if '\x00' ∈ path.toList then .error .zeroInName
    else if path.isEmpty then .error .notFound
    else if 4096 ≤ path.utf8ByteSize then .error .nameTooLong
    else t.walk (if Path.isAbsolute path then .outside else .folder "") (Text.parts "/" path) := by
  rw [FileTree.locate, String.contains_char_eq]
  simp only [decide_eq_true_eq]

/-- What the tree holds, and what is at the place of the bundle. -/
theorem files_spec : files.isFolder "scripts" = true ∧ files.children "scripts" = ["ping"] ∧
    isScriptName "ping" = true ∧
    files.isFile ((⟨"scripts", "main.lua"⟩ : BundleFolder).entryPath "ping") = true ∧
    files.readText ((⟨"scripts", "main.lua"⟩ : BundleFolder).entryPath "ping") = .ok "" ∧
    (⟨"scripts", "main.lua"⟩ : BundleFolder).folder "ping" = "scripts/ping" := by
  simp only [FileTree.isFolder, FileTree.children, FileTree.isFile, FileTree.readText, locate_eq]
  decide +kernel

theorem list_files : (⟨"scripts", "main.lua"⟩ : BundleFolder).list files = .ok ["ping"] := by
  obtain ⟨hfolder, hchildren, -, hfile, -⟩ := files_spec
  rw [BundleFolder.list, if_pos hfolder, hchildren, List.filter_eq_self.mpr fun name hname => ?_,
    List.mergeSort_singleton]
  rwa [List.mem_singleton.mp hname]

theorem read_files : (⟨"scripts", "main.lua"⟩ : BundleFolder).read files "ping" =
    .ok ⟨"ping", "scripts/ping", ""⟩ := by
  obtain ⟨-, -, -, hfile, htext, hfolder⟩ := files_spec
  rw [BundleFolder.read, if_pos hfile, htext, hfolder]

/-- The bundle is loaded, whatever the guest keeps. -/
theorem loadAll_eq {γ : Type} (g : Guest γ Parting) (guest : γ) :
    let begun : Host γ Parting := { guest, files }
    loadAll g begun = (.ok [Outcome.ofResult "ping" (bringUp g "ping" (.bundle "scripts/ping") "" begun).1],
      (bringUp g "ping" (.bundle "scripts/ping") "" begun).2) := by
  intro begun
  have hname := files_spec.2.2.1
  have hout : begun.isLoaded "ping" = false := by
    rw [isLoaded, NameMap.get?_empty]
    rfl
  have hload : loadBundle g "ping" begun = bringUp g "ping" (.bundle "scripts/ping") "" begun := by
    unfold loadBundle
    rw [if_pos hname, read_bind, read_files]
    dsimp only
    rw [loadFrom_eq, bind_run, makeRoom_of_not_loaded hout]
  unfold loadAll
  rw [read_bind, list_files]
  dsimp only
  rw [bind_run, forScripts, bind_run, hload]
  rfl

/-- A command that sees to an errand at this host. -/
theorem perform_eq {γ : Type} (g : Guest γ Parting) (guest : γ) (errand : Errand) :
    let begun : Host γ Parting := { guest, files }
    perform g { task := errand.task } begun =
      (do
        match ← errand.run g with
        | .error e => pure (.failed e [])
        | .ok report =>
          let _ ← shutdown g
          pure ⟨[report], none⟩ : HostM γ Parting Shown)
        (bringUp g "ping" (.bundle "scripts/ping") "" begun).2 := by
  intro begun
  rw [perform_errand g (show _ = errand.task from rfl), bind_run, loadAll_eq]

end Parting

/-- The script that is asked for is there: it is unloaded, with its hook called. -/
theorem errand_unloads_ping :
    (perform Parting.guest { task := .get "ping" "x" 1 } Parting.start).2.isLoaded "ping" = false ∧
      unloadCalls "ping" (perform Parting.guest.noting { task := .get "ping" "x" 1 }
        (Parting.start.noting [])).2.guest.2 = [(.farewell, [])] := by
  let errand : Errand := .get "ping" "x" 1
  obtain ⟨-, -, hunloads, -⟩ := errand_unloads_unless_it_fails Parting.guest_keepsToApi
    (s := { task := errand.task }) (show _ = errand.task from rfl) () .reject ⟨"scripts", "main.lua"⟩
    Parting.files ⟨0, 0⟩ #[]
  rw [Parting.perform_eq, Parting.loadAll_eq] at hunloads
  obtain ⟨hgone, -⟩ := hunloads (by decide +kernel) "ping" (by decide +kernel)
  constructor
  · show (perform Parting.guest { task := errand.task } { guest := (), files := Parting.files }).2.isLoaded
      "ping" = false
    rw [Parting.perform_eq]
    exact hgone
  · show unloadCalls "ping" (perform Parting.guest.noting { task := errand.task }
      { guest := ((), []), files := Parting.files }).2.guest.2 = [(.farewell, [])]
    rw [Parting.perform_eq]
    decide +kernel

/-- The script that is asked for is not there: the one that is loaded stays so, and its hook is not called. -/
theorem failed_errand_unloads_nothing :
    (loadAll Parting.guest Parting.start).2.isLoaded "ping" = true ∧
      (perform Parting.guest { task := .get "ghost" "x" 0 } Parting.start).1.error =
        some (.notLoaded "ghost") ∧
      (perform Parting.guest { task := .get "ghost" "x" 0 } Parting.start).2.isLoaded "ping" = true ∧
      ((perform Parting.guest { task := .get "ghost" "x" 0 } Parting.start).2.control? 0).map
        Control.unloadHooks = some [.farewell] ∧
      unloadCalls "ping" (perform Parting.guest.noting { task := .get "ghost" "x" 0 }
        (Parting.start.noting [])).2.guest.2 = [] := by
  let errand : Errand := .get "ghost" "x" 0
  have hended : perform Parting.guest { task := .get "ghost" "x" 0 } Parting.start = _ :=
    Parting.perform_eq Parting.guest () errand
  have hnoted : perform Parting.guest.noting { task := .get "ghost" "x" 0 } (Parting.start.noting []) = _ :=
    Parting.perform_eq Parting.guest.noting ((), []) errand
  rw [hended, hnoted, Parting.start, Parting.loadAll_eq]
  decide +kernel

end Host
end ScriptHost
