import ScriptHost.Proofs.Host.Owners

/-!
# Only loaded scripts own resources, if the dead acquire nothing

After any sequence of operations, whatever there is belongs to the host or to loaded scripts, provided that no guest
code has acquired anything for a script that was neither loaded nor being loaded. The condition is exact, act by
act. Commands need no condition: they are published by the host.

Guest code can break the condition. A script that shares its scheduler leaves it to others when it is unloaded,
and a task that they submit with it belongs to the script that is gone.
-/

namespace ScriptHost
namespace Host

open Scheduler

variable {γ α : Type} {g : Guest γ α}

/-- **Only loaded scripts own resources, if the dead acquire nothing.** After any operations of a new host by which
its owner acquires nothing in the name of a script, whatever guest code does: every published command is owned by
a loaded script; and if in each stint of the guest whatever was acquired was acquired for a script that lived, then
every task, every pin, every waiting entry and every shared object is owned by a loaded script or by the host. An
act that acquires something for a script that does not live is what breaks this, and nothing else. -/
theorem owners_are_loaded (hg : g.KeepsToApi) (ops : List (Operation α))
    (hneutral : ∀ op ∈ ops, op.IsNeutral) (guest : γ) (policy : DoubleLoad) (bundles : BundleFolder)
    (files : FileTree) (now : Timestamp) (records : Array Record) :
    let start : Host γ α := { guest, policy, bundles, files, now, records }
    CommandsLoaded (execAll g ops start) ∧
      ((∀ st ∈ runStints g ops start, st.IsLive) → OwnersLoaded (execAll g ops start)) ∧
      ∀ (flying : Option (ℕ × Submission α)) (h : Host γ α), Orderly flying h → OwnersLive h →
        ∀ act : Act γ α, OwnersLive (act.perform h) ↔ act.IsLive h := by
  intro start
  have hnew : Reachable g start := .new guest policy bundles files now records
  have hcommands : CommandsLoaded start := commandsLoaded_new guest policy bundles files now records
  have hempty : OwnersLive start := ownersLive_new guest policy bundles files now records
  -- a new host owns nothing, and what the stints acquire is accounted for
  obtain ⟨hrun, -⟩ := execAll_accounted hg ops hneutral (hnew.orderly hg)
  exact ⟨hrun.commands hcommands,
    execAll_ownersLoaded hg ops hneutral (hnew.orderly hg) (hnew.settled hg) hcommands hempty,
    fun flying h h₀ howners act => Act.perform_ownersLive_iff act h₀ howners⟩

/-! ## A scheduler that is lent -/

/-- The values of a small guest: the first script shares its scheduler, the second has a command with which it
submits a task on that scheduler. -/
inductive Loan where
  | globals (number : ℕ)
  | lender (number : ℕ)
  | borrower (number : ℕ)
  | scheduler
  | errand
deriving DecidableEq

namespace Loan

/-- What each of its functions does. -/
def acts : Loan → List (Act Unit Loan)
  | .lender number => [.share number "timer" (some .scheduler)]
  | .borrower number => [.declare number ⟨"go", none, .errand⟩]
  | .errand => [.schedule "lender" .errand .sync (.delayed 5)]
  | _ => []

/-- A guest that knows the two scripts, by the order in which they are loaded. -/
def guest : Guest Unit Loan where
  createGlobals _ _ number := pure (.globals number)
  compile _ globals _ := pure <|
    match globals with
    | .globals 0 => .ok (.lender 0)
    | .globals number => .ok (.borrower number)
    | _ => .error (.parsing "no globals")
  call f _ := fun h => (.ok [], Act.performAll f.acts h)
  ofText _ := .errand
  display _ := ""
  readVariable _ _ := pure none

theorem guest_keepsToApi : guest.KeepsToApi where
  createGlobals _ _ _ _ := ⟨[], rfl⟩
  compile _ _ _ _ := ⟨[], rfl⟩
  call f _ _ := ⟨f.acts, rfl⟩
  readVariable _ _ _ := ⟨[], rfl⟩

end Loan

/-- A new host that knows nothing but the guest. -/
def Loan.start : Host Unit Loan := { guest := () }

/-- Both scripts are loaded, and the borrower submits a task. -/
def Loan.lending : List (Operation Loan) :=
  [.load "" "lender", .load "" "borrower", .dispatch "go" []]

/-- While the lender is loaded, its scheduler submits for a loaded script. -/
theorem Loan.lending_live : ∀ st ∈ runStints Loan.guest Loan.lending Loan.start, st.IsLive := by
  -- globals, chunk and body of the one script, then of the other, then the command
  show ∀ st ∈ [_, _, _, _, _, _, _], Stint.IsLive st
  simp only [List.forall_mem_cons]
  refine ⟨⟨[], trivial, rfl⟩, ⟨[], trivial, rfl⟩, ⟨Loan.acts (.lender 0), ⟨fun _ => .inr ?_, trivial⟩, rfl⟩,
    ⟨[], trivial, rfl⟩, ⟨[], trivial, rfl⟩, ⟨Loan.acts (.borrower 1), ⟨trivial, trivial⟩, rfl⟩,
    ⟨Loan.acts .errand, ⟨.inl ?_, trivial⟩, rfl⟩, fun _ hst => nomatch hst⟩
  · decide +kernel
  · decide +kernel

theorem owners_are_loaded_lending :
    OwnersLoaded (execAll Loan.guest Loan.lending Loan.start) ∧
      (execAll Loan.guest Loan.lending Loan.start).scheduler.outstanding "lender" = 1 := by
  have hneutral : ∀ op ∈ Loan.lending, op.IsNeutral := by
    simp [Loan.lending, Operation.IsNeutral]
  have hloaded := (owners_are_loaded Loan.guest_keepsToApi Loan.lending hneutral () .reject
    ⟨"scripts", "main.lua"⟩ {} ⟨0, 0⟩ #[]).2.1 Loan.lending_live
  exact ⟨hloaded, by decide +kernel⟩

/-- The lender is unloaded before the borrower submits. -/
def Loan.lapsed : List (Operation Loan) :=
  [.load "" "lender", .load "" "borrower", .unload "lender", .dispatch "go" []]

/-- The scheduler of a script that is gone submits for it: the task belongs to no loaded script. -/
theorem owners_not_loaded : ¬ OwnersLoaded (execAll Loan.guest Loan.lapsed Loan.start) := by
  intro howners
  have hscripts : (execAll Loan.guest Loan.lapsed Loan.start).scheduler.handles.map TaskHandle.script =
      ["lender"] := by decide +kernel
  have hgone : (execAll Loan.guest Loan.lapsed Loan.start).isLoaded "lender" = false := by
    decide +kernel
  have hmem : "lender" ∈
      (execAll Loan.guest Loan.lapsed Loan.start).scheduler.handles.map TaskHandle.script := by
    rw [hscripts]
    exact List.mem_singleton.mpr rfl
  obtain ⟨k, hk, hscript⟩ := List.mem_map.mp hmem
  have hloaded := howners.tasks k hk
  rw [hscript, hgone] at hloaded
  cases hloaded

end Host
end ScriptHost
