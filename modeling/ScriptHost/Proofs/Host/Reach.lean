import ScriptHost.Proofs.Host.Tidy

/-!
# Reachable hosts

`Reachable g h`: the host can come to be in the state `h`, from a new one, by whatever its owner does with it
and whatever its scripts do meanwhile. A reachable host is in order between operations
(`Reachable.orderly`).
-/

namespace ScriptHost
namespace Host

open Scheduler

variable {γ α : Type} {g : Guest γ α} {h : Host γ α} {now fired id : ℕ} {ids : List ℕ}
  {task : Submission α}

/-! ## Ticks -/

theorem runner_bind {β : Type} (f : TickRunner (Submission α) → HostM γ α β) :
    (getThe (TickRunner (Submission α)) >>= f) h = f h.runner h := rfl

theorem fireAll_skip {fire : Submission α → HostM γ α Unit} (hnone : h.runner.task? id = none) :
    TickRunner.fireAll fire now fired (id :: ids) h = TickRunner.fireAll fire now fired ids h := by
  rw [TickRunner.fireAll, runner_bind, hnone]

/-- The host when the firing of a task has come to its end. -/
def settle (h : Host γ α) (now id : ℕ) (task : Submission α) : Host γ α :=
  { h with runner := h.runner.settle now id task }

theorem fireAll_fire {fire : Submission α → HostM γ α Unit} (hsome : h.runner.task? id = some task) :
    TickRunner.fireAll fire now fired (id :: ids) h =
      TickRunner.fireAll fire now (fired + 1) ids
        ((fire task { h with runner := h.runner.take id }).2.settle now id task) := by
  rw [TickRunner.fireAll, runner_bind, hsome]
  rfl

theorem Modest.runCallable (hg : g.KeepsToApi) (script : String) (callable : α) :
    Modest (Scheduler.runCallable g.run script callable) := by
  refine Modest.bind (Modest.run hg callable) fun answer => ?_
  cases answer with
  | ok _ => exact Modest.pure ()
  | error e => exact Modest.log _

/-- A task fires and the runner goes on: whatever its callable did, the host is in order. -/
theorem fire_orderly (hg : g.KeepsToApi) (h₀ : Orderly (some (id, task)) h)
    (hhandle : handleOf id task ∈ h.scheduler.handles) :
    Orderly none ((Scheduler.fire (α := α) g.run task h).2.settle now id task) ∧
      KeepsBooks h ((Scheduler.fire (α := α) g.run task h).2.settle now id task) := by
  obtain ⟨callable, hcarried⟩ := h₀.tasks.carried hhandle
  obtain ⟨hrun, hbooks⟩ := Modest.runCallable hg task.script callable _ h h₀
  rw [fire_state hcarried rfl hrun.tasks]
  by_cases honce : task.callable.isSome ∨ task.oneShot
  · rw [if_pos (by simpa using honce)]
    exact ⟨hrun.of_keepsBooks (keepsBooks_with _ _ _ _ _) (hrun.tasks.retire honce) hrun.objects,
      hbooks.trans (keepsBooks_with _ _ _ _ _)⟩
  · rw [if_neg (by simpa using honce)]
    exact ⟨hrun.of_keepsBooks (keepsBooks_with _ _ _ _ _) (hrun.tasks.settle honce) hrun.objects,
      hbooks.trans (keepsBooks_with _ _ _ _ _)⟩

/-- A task takes its turn. -/
theorem take_orderly (h₀ : Orderly none h) (htask : h.runner.task? id = some task) :
    handleOf id task ∈ h.scheduler.handles ∧
      Orderly (some (id, task)) { h with runner := h.runner.take id } := by
  obtain ⟨hhandle, htaken⟩ := h₀.tasks.take htask
  exact ⟨hhandle, h₀.of_keepsBooks (keepsBooks_with _ _ _ _ _) htaken h₀.objects⟩

theorem fireAll_orderly (hg : g.KeepsToApi) (h₀ : Orderly none h) :
    Orderly none (TickRunner.fireAll (Scheduler.fire (α := α) g.run) now fired ids h).2 := by
  induction ids generalizing h fired with
  | nil => exact h₀
  | cons id ids ih =>
    cases htask : h.runner.task? id with
    | none =>
      rw [fireAll_skip htask]
      exact ih h₀
    | some task =>
      rw [fireAll_fire htask]
      obtain ⟨hhandle, htaken⟩ := take_orderly h₀ htask
      exact ih (fire_orderly hg htaken hhandle).1

/-- A host at the beginning of the next tick. -/
def atDawn (h : Host γ α) : Host γ α :=
  { h with runner := { h.runner with now := h.runner.now + 1 } }

theorem atDawn_orderly (h₀ : Orderly none h) : Orderly none h.atDawn :=
  h₀.of_keepsBooks (keepsBooks_with _ _ _ _ _) h₀.tasks.dawn h₀.objects

/-- In a tick every task fires that is due when it begins and still waits when its turn comes. -/
theorem tick_eq (g : Guest γ α) (h : Host γ α) :
    ∃ records, (Host.tick g h).2 =
      { (TickRunner.fireAll (Scheduler.fire (α := α) g.run) h.atDawn.runner.now 0
          h.atDawn.runner.dueIds h.atDawn).2 with records := records } := by
  have hread : Host.tick g h =
      (fun x : ℕ × Host γ α => ((do
        if 0 < x.1 then
          log (loopRecord .trace s!"Tick {(← read).runner.now}: {x.1} task(s) fired")
        pure x.1 : HostM γ α ℕ) x.2))
      (TickRunner.fireAll (Scheduler.fire (α := α) g.run) h.atDawn.runner.now 0
        h.atDawn.runner.dueIds h.atDawn) := rfl
  rw [hread]
  dsimp only
  split
  · exact ⟨_, rfl⟩
  · exact ⟨_, rfl⟩

theorem Tidy.tick (hg : g.KeepsToApi) : Tidy (Host.tick g) := by
  intro h h₀
  obtain ⟨records, heq⟩ := tick_eq g h
  rw [heq]
  have hfired : Orderly none (TickRunner.fireAll (Scheduler.fire (α := α) g.run)
      h.atDawn.runner.now 0 h.atDawn.runner.dueIds h.atDawn).2 :=
    fireAll_orderly hg (atDawn_orderly h₀)
  exact hfired.of_keepsBooks (keepsBooks_with _ _ _ _ _) hfired.tasks hfired.objects

/-! ## Operations -/

/-- What the owner of a host can do with it: the operations of the registry, and direct use of the parts that
it hands out. -/
inductive Operation (α : Type) where
  | load (source name : String)
  | loadBundle (name : String)
  | unload (name : String)
  | reload (name : String)
  | loadAll
  | unloadAll
  | dispatch (name : String) (arguments : List String)
  | inspect (script path : String)
  | tick
  | share (owner : Owner) (name : String) (value : Option α)
  | unshare (owner : Owner) (name : String)
  | releaseObjects (script : String)
  | schedule (script : String) (callable : α) (lane : Lane) (mode : Mode)
  | cancel (script : String) (id : TaskId)
  | cancelAll (script : String)
  | register (command : Command)
  | unregister (name : String)
  | sync
  | call (f : α) (arguments : List α)
  /-- Files and time are not the host's to keep. -/
  | drift (files : FileTree) (now : Timestamp)

/-- Carry out an operation. -/
def Operation.exec (g : Guest γ α) : Operation α → Host γ α → Host γ α
  | .load source name, h => (Host.load g source name h).2
  | .loadBundle name, h => (Host.loadBundle g name h).2
  | .unload name, h => (Host.unload g name h).2
  | .reload name, h => (Host.reload g name h).2
  | .loadAll, h => (Host.loadAll g h).2
  | .unloadAll, h => (Host.unloadAll g h).2
  | .dispatch name arguments, h => (Host.dispatch g name arguments h).2
  | .inspect script path, h => (Host.inspect g script path h).2
  | .tick, h => (Host.tick g h).2
  | .share owner name value, h => (Host.share owner name value h).2
  | .unshare owner name, h => (Host.unshare owner name h).2
  | .releaseObjects script, h => (Host.releaseObjects script h).2
  | .schedule script callable lane mode, h => (Host.schedule script callable lane mode h).2
  | .cancel script id, h => (Host.cancelTask script id h).2
  | .cancelAll script, h => (Host.cancelAllTasks script h).2
  | .register command, h =>
    match h.commands.register command with
    | .ok commands => { h with commands }
    | .error _ => h
  | .unregister name, h => { h with commands := (h.commands.unregister name).2 }
  | .sync, h => (Host.syncCommands h).2
  | .call f arguments, h => (g.call f arguments h).2
  | .drift files now, h => { h with files, now }

/-- The states that a host comes to. -/
inductive Reachable (g : Guest γ α) : Host γ α → Prop
  | new (guest : γ) (policy : DoubleLoad) (bundles : BundleFolder) (files : FileTree)
      (now : Timestamp) (records : Array Record) :
      Reachable g { guest, policy, bundles, files, now, records }
  | step {h : Host γ α} (hreach : Reachable g h) (op : Operation α) : Reachable g (op.exec g h)

theorem Orderly.share {flying : Option (ℕ × Submission α)} (h₀ : Orderly flying h) (owner : Owner)
    (name : String) (value : Option α) : Orderly flying (Host.share owner name value h).2 := by
  obtain ⟨objects, records, hchange, heq⟩ := share_eq (h := h) owner name value
  rw [heq]
  exact h₀.of_keepsBooks (keepsBooks_with _ _ _ _ _) h₀.tasks (hchange.inStep h₀.objects)

theorem Orderly.unshare {flying : Option (ℕ × Submission α)} (h₀ : Orderly flying h) (owner : Owner)
    (name : String) : Orderly flying (Host.unshare owner name h).2 := by
  obtain ⟨objects, hchange, heq⟩ := unshare_eq (h := h) owner name
  rw [heq]
  exact h₀.of_keepsBooks (keepsBooks_with _ _ _ _ _) h₀.tasks (hchange.inStep h₀.objects)

theorem Operation.exec_orderly (hg : g.KeepsToApi) (op : Operation α) (h₀ : Orderly none h) :
    Orderly none (op.exec g h) := by
  cases op with
  | load source name => exact Tidy.load hg source name h h₀
  | loadBundle name => exact Tidy.loadBundle hg name h h₀
  | unload name => exact Tidy.unload hg name h h₀
  | reload name => exact Tidy.reload hg name h h₀
  | loadAll => exact Tidy.loadAll hg h h₀
  | unloadAll => exact Tidy.unloadAll hg h h₀
  | dispatch name arguments => exact Tidy.dispatch hg name arguments h h₀
  | inspect script path => exact Tidy.inspect hg script path h h₀
  | tick => exact Tidy.tick hg h h₀
  | share owner name value => exact h₀.share owner name value
  | unshare owner name => exact h₀.unshare owner name
  | releaseObjects script => exact (Modest.releaseObjects script).tidy h h₀
  | schedule script callable lane mode =>
    exact ((Act.schedule script callable lane mode).perform_orderly h₀).1
  | cancel script id => exact ((Act.cancel script id).perform_orderly h₀).1
  | cancelAll script => exact (Modest.cancelAllTasks script).tidy h h₀
  | register command =>
    show Orderly none (match h.commands.register command with
      | .ok commands => { h with commands }
      | .error _ => h)
    cases hregister : h.commands.register command with
    | ok commands =>
      exact ⟨h₀.tasks, h₀.objects, h₀.commands.register hregister, h₀.loaded, h₀.environment⟩
    | error e => exact h₀
  | unregister name =>
    exact ⟨h₀.tasks, h₀.objects, h₀.commands.unregister name, h₀.loaded, h₀.environment⟩
  | sync => exact Tidy.syncCommands h h₀
  | call f arguments => exact (Modest.performAll (hg.call f arguments)).tidy h h₀
  | drift files now => exact ⟨h₀.tasks, h₀.objects, h₀.commands, h₀.loaded, h₀.environment⟩

/-- A reachable host is in order between operations. -/
theorem Reachable.orderly (hg : g.KeepsToApi) (hreach : Reachable g h) : Orderly none h := by
  induction hreach with
  | new guest policy bundles files now records =>
    refine ⟨agree_empty, SharedObjects.inStep_empty, CommandTable.keyed_empty, fun name => ?_,
      fun name env henv => ?_⟩
    · rw [NameMap.get?_empty, NameMap.get?_empty]
      rfl
    · rw [NameMap.get?_empty] at henv
      cases henv
  | step _ op ih => exact op.exec_orderly hg ih

end Host
end ScriptHost
