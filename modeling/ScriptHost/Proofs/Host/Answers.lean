import ScriptHost.Proofs.Host.Routing

/-!
# Who answers for a command

Between operations the host's books fit each other (`Consistent`). A published name reaches a handler, and no
other name does: the handler that was registered last with the control object of the script that published the
name. That script answers for the name until it is unloaded.
-/

namespace ScriptHost
namespace Host

open Scheduler

variable {γ α : Type} {g : Guest γ α} {h : Host γ α} {past : List (ℕ × DeclaredCommand α)}

/-- The books of a host between operations fit each other. -/
structure Consistent (h : Host γ α) : Prop where
  /-- The scripts that are loaded are those that have environments. -/
  scripts : ∀ name, h.loaded.get? name = (h.environments.get? name).map fun _ => true
  named : ∀ name env, h.environment? name = some env → isScriptName name = true
  settled : ∀ name, h.phases.get? name = none
  distinct : ∀ name env, h.environment? name = some env →
    ((h.declared env).map DeclaredCommand.name).Nodup
  /-- The owner of a published command is loaded, and declares a command of that name. -/
  published : ∀ name c, h.commands.get? name = some c → c.name = name ∧
    ∃ env, h.environment? c.owner = some env ∧ name ∈ (h.declared env).map DeclaredCommand.name

theorem Routed.consistent (hrouted : Routed past h) (h₀ : Orderly none h) (hsettled : Settled h) :
    Consistent h where
  scripts := h₀.loaded
  named := hrouted.named
  settled := hsettled
  distinct name env henv := by
    obtain ⟨c, hc, -⟩ := hrouted.current name env henv
    rw [declared, hc]
    exact hrouted.distinct _ c hc
  published name c hc := by
    obtain ⟨hname, env, control, henv, hcontrol, hdeclared⟩ := hrouted.published name c hc
    refine ⟨hname, env, henv, ?_⟩
    obtain ⟨d, hd, hfound⟩ := List.find?_isSome.mp hdeclared
    rw [declared, hcontrol]
    exact List.mem_map.mpr ⟨d, hd, beq_iff_eq.mp hfound⟩

theorem routed_new (guest : γ) (policy : DoubleLoad) (bundles : BundleFolder) (files : FileTree)
    (now : Timestamp) (records : Array Record) :
    Routed [] ({ guest, policy, bundles, files, now, records } : Host γ α) := by
  have hnone : ∀ name env, ({ guest, policy, bundles, files, now, records } :
      Host γ α).environment? name ≠ some env := by
    intro name env henv
    rw [environment?, NameMap.get?_empty] at henv
    cases henv
  constructor
  case named => exact fun name env henv => absurd henv (hnone name env)
  case numbers => exact fun r hr => by cases hr
  case apart => exact fun name env _ _ henv => absurd henv (hnone name env)
  case current => exact fun name env henv => absurd henv (hnone name env)
  case distinct => exact fun number c hc => by cases hc
  case published =>
    intro name c hc
    rw [CommandTable.get?, NameMap.get?_empty] at hc
    cases hc

/-! ## Dispatch -/

/-- Call a command that a script declares. -/
def invoke (g : Guest γ α) (script : String) (command : DeclaredCommand α)
    (arguments : List String) : HostM γ α (Except HostError String) := do
  log ⟨.debug, "luna::registry::manager",
    s!"Dispatching command '{command.name}' to script '{script}'"⟩
  match ← g.call command.handler (arguments.map g.ofText) with
  | .ok values => pure (.ok (g.display values))
  | .error e => pure (.error (.ofGuest script e))

theorem dispatch_of_unpublished {name : String} (hnone : h.commands.get? name = none)
    (g : Guest γ α) (arguments : List String) :
    dispatch g name arguments h = (.error (.unknownCommand name), h) := by
  have hfound : h.findCommand name = none := by
    unfold findCommand CommandTable.owner?
    rw [hnone]
    rfl
  rw [dispatch, read_bind, hfound]
  rfl

/-- A published name reaches what its owner registered last under it. -/
theorem Routed.dispatch_eq (hrouted : Routed past h) {name : String} {c : Command}
    (hc : h.commands.get? name = some c) (g : Guest γ α) (arguments : List String) :
    ∃ env command, h.environment? c.owner = some env ∧
      latest env.control name past = some command ∧
      dispatch g name arguments h = invoke g c.owner command arguments h := by
  obtain ⟨-, env, control, henv, hcontrol, hdeclared⟩ := hrouted.published name c hc
  obtain ⟨command, hcommand⟩ := Option.isSome_iff_exists.mp hdeclared
  obtain ⟨control', hcontrol', hlatest⟩ := hrouted.current _ env henv
  obtain rfl := Option.some.inj (hcontrol.symm.trans hcontrol')
  have hregistered : latest env.control name past = some command := (hlatest name).symm.trans hcommand
  -- the owner is found in the table, then its environment, its control object and the command
  have hfound : h.findCommand name = some (c.owner, command) := by
    unfold findCommand CommandTable.owner?
    rw [hc]
    show (do
      let env ← h.environment? c.owner
      let control ← h.control? env.control
      let command ← control.command? name
      pure (c.owner, command) : Option (String × DeclaredCommand α)) = _
    rw [henv]
    show (do
      let control ← h.control? env.control
      let command ← control.command? name
      pure (c.owner, command) : Option (String × DeclaredCommand α)) = _
    rw [hcontrol]
    show (do
      let command ← control.command? name
      pure (c.owner, command) : Option (String × DeclaredCommand α)) = _
    rw [hcommand]
    rfl
  refine ⟨env, command, henv, hregistered, ?_⟩
  obtain rfl := name_of_latest hregistered
  rw [dispatch, read_bind, hfound]
  rfl

/-- In every run some commands are registered, if only none. -/
theorem exists_registers_run (hg : g.KeepsToApi) (ops : List (Operation α))
    (hspares : ∀ op ∈ ops, op.SparesCommands) (h₀ : Orderly none h) (hrouted : Routed past h) :
    ∃ registered, Registers (runStints g ops h) registered := by
  induction ops generalizing h past with
  | nil => exact ⟨[], .none⟩
  | cons op ops ih =>
    rw [List.forall_mem_cons] at hspares
    have hjourney := op.exec_journey hg hspares.1 hrouted.named h₀
    obtain ⟨first, hfirst⟩ := hjourney.exists_registers
    obtain ⟨later, hlater⟩ :=
      ih hspares.2 (op.exec_orderly hg h₀) (hjourney.routed hfirst hrouted).1
    exact ⟨_, hfirst.append hlater⟩

theorem execAll_append (g : Guest γ α) (ops more : List (Operation α)) (h : Host γ α) :
    execAll g (ops ++ more) h = execAll g more (execAll g ops h) :=
  List.foldl_append

theorem execAll_settled (hg : g.KeepsToApi) (ops : List (Operation α)) (h₀ : Orderly none h)
    (hsettled : Settled h) : Settled (execAll g ops h) := by
  induction ops generalizing h with
  | nil => exact hsettled
  | cons op ops ih => exact ih (op.exec_orderly hg h₀) (op.exec_settled hg h₀ hsettled)

/-- The instance of a script that published a name answers for it as long as it is loaded, whatever becomes of
the others. -/
theorem owner?_mid (hg : g.KeepsToApi) (mid rest : List (Operation α))
    (hspares : ∀ op ∈ mid ++ rest, op.SparesCommands) (h₀ : Orderly none h) (hrouted : Routed past h)
    {name script : String} {env env' : Environment α}
    (howner : h.commands.owner? name = some script) (henv : h.environment? script = some env)
    (hlast : (execAll g (mid ++ rest) h).environment? script = some env')
    (hsame : env'.control = env.control) :
    (execAll g mid h).environment? script = some env ∧
      (execAll g mid h).commands.owner? name = some script := by
  rw [List.forall_mem_append] at hspares
  rw [execAll_append] at hlast
  obtain ⟨registered, hregisters⟩ := exists_registers_run hg mid hspares.1 h₀ hrouted
  obtain ⟨hmid, hcontinues⟩ := execAll_routed hg mid hspares.1 h₀ hrouted hregisters
  have horder := execAll_orderly hg mid h₀
  obtain ⟨later, hlater⟩ := exists_registers_run hg rest hspares.2 horder hmid
  obtain ⟨-, hcontinues'⟩ := execAll_routed hg rest hspares.2 horder hmid hlater
  have hlt : env'.control < h.controls.size := hsame ▸ hrouted.control_lt henv
  have hthere := hcontinues.environment?_mid hcontinues' hlt hlast
  have hfirst : h.environment? script = some env' :=
    (hcontinues.instances script env' hthere).resolve_right (Nat.not_le_of_lt hlt)
  obtain rfl := Option.some.inj (henv.symm.trans hfirst)
  exact ⟨hthere, hcontinues.owners name script env howner henv hthere⟩

/-- **Registry and routing.** After any operations of a new host by which its owner leaves the table of commands
to the scripts, whatever guest code does:

* the books fit each other;
* a name that is not published reaches nothing, and a published one reaches the handler that was registered last
  under it with the control object of the script that published it, among all that guest code has registered;
* when a script publishes its commands, each of their names is its own from then on, unless another had published
  it; and the script that has published a name answers for it, whatever else happens, as long as the same
  instance of it is loaded, which is known by its control object. -/
theorem commands_reach_publisher (hg : g.KeepsToApi) (ops : List (Operation α))
    (hspares : ∀ op ∈ ops, op.SparesCommands) (guest : γ) (policy : DoubleLoad)
    (bundles : BundleFolder) (files : FileTree) (now : Timestamp) (records : Array Record) :
    let start : Host γ α := { guest, policy, bundles, files, now, records }
    let h := execAll g ops start
    Consistent h ∧
      (∃ registered, Registers (runStints g ops start) registered) ∧
      (∀ registered, Registers (runStints g ops start) registered → ∀ name arguments,
        (h.commands.get? name = none →
          dispatch g name arguments h = (.error (.unknownCommand name), h)) ∧
        ∀ c, h.commands.get? name = some c → ∃ env command,
          h.environment? c.owner = some env ∧ latest env.control name registered = some command ∧
          dispatch g name arguments h = invoke g c.owner command arguments h) ∧
      (∀ (h' : Host γ α) script env, h'.environment? script = some env → ∀ d ∈ h'.declared env,
        (publish script h').2.commands.owner? d.name =
          some ((h'.commands.owner? d.name).getD script)) ∧
      ∀ mid rest, (∀ op ∈ mid ++ rest, op.SparesCommands) → ∀ name script env env',
        h.commands.owner? name = some script → h.environment? script = some env →
        (execAll g (mid ++ rest) h).environment? script = some env' → env'.control = env.control →
        (execAll g mid h).environment? script = some env ∧
          (execAll g mid h).commands.owner? name = some script := by
  intro start h
  have hreach : Reachable g start := .new guest policy bundles files now records
  have hstart : Routed [] start := routed_new guest policy bundles files now records
  have h₀ := hreach.orderly hg
  have horder : Orderly none h := execAll_orderly hg ops h₀
  have hrouted : ∀ registered, Registers (runStints g ops start) registered → Routed registered h :=
    fun registered hregisters => (execAll_routed hg ops hspares h₀ hstart hregisters).1
  -- what is registered can be put in order, and by any order the host is routed
  obtain ⟨registered, hregisters⟩ := exists_registers_run hg ops hspares h₀ hstart
  have hnow := hrouted registered hregisters
  refine ⟨hnow.consistent horder (execAll_settled hg ops h₀ (hreach.settled hg)),
    ⟨registered, hregisters⟩, fun registered hregisters name arguments => ⟨?_, fun c hc => ?_⟩, ?_, ?_⟩
  · exact fun hnone => dispatch_of_unpublished hnone g arguments
  · exact (hrouted registered hregisters).dispatch_eq hc g arguments
  · intro h' script env henv d hd
    obtain ⟨commands, records, heq, hpublishes⟩ := publish_publishes henv
    rw [heq]
    exact hpublishes.served d hd
  · intro mid rest hspares' name script env env' howner henv hlast hsame
    exact owner?_mid hg mid rest hspares' horder hnow howner henv hlast hsame

/-! ## Two scripts that want one name -/

/-- The values of a small guest: each script registers a command of the same name, whose handler replaces itself
by another. -/
inductive Rival where
  | globals (number : ℕ)
  | body (number : ℕ)
  | handler (number rank : ℕ)
deriving DecidableEq

namespace Rival

/-- What each of its functions does. -/
def acts : Rival → List (Act Unit Rival)
  | .globals _ => []
  | .body number => [.declare number ⟨"go", none, .handler number 0⟩]
  | .handler number rank => [.declare number ⟨"go", none, .handler number (rank + 1)⟩]

/-- A guest in which all scripts are alike. -/
def guest : Guest Unit Rival where
  createGlobals _ _ number := pure (.globals number)
  compile _ globals _ := pure <|
    match globals with
    | .globals number => .ok (.body number)
    | _ => .error (.parsing "no globals")
  call f _ := fun h => (.ok [f], Act.performAll f.acts h)
  ofText _ := .globals 0
  display
    | [.handler number rank] => s!"{number}.{rank}"
    | _ => ""
  readVariable _ _ := pure none

theorem guest_keepsToApi : guest.KeepsToApi where
  createGlobals _ _ _ _ := ⟨[], rfl⟩
  compile _ _ _ _ := ⟨[], rfl⟩
  call f _ _ := ⟨f.acts, rfl⟩
  readVariable _ _ _ := ⟨[], rfl⟩

/-- Both are loaded, and the command is dispatched. -/
def contest : List (Operation Rival) := [.load "" "one", .load "" "two", .dispatch "go" []]

/-- The one that was refused is loaded again, and the command is dispatched. -/
def rematch : List (Operation Rival) := [.reload "two", .dispatch "go" []]

/-- A new host that knows nothing but the guest. -/
def start : Host Unit Rival := { guest := () }

end Rival

/-- The first of two rivals answers, with the handler that it registered last, also when the other has tried
again. -/
theorem commands_reach_publisher_rivals :
    Consistent (execAll Rival.guest Rival.contest Rival.start) ∧
      (execAll Rival.guest Rival.rematch
        (execAll Rival.guest Rival.contest Rival.start)).commands.owner? "go" = some "one" ∧
      (dispatch Rival.guest "go" [] (execAll Rival.guest Rival.rematch
        (execAll Rival.guest Rival.contest Rival.start))).1.toOption = some "0.2" := by
  have hspares : ∀ op ∈ Rival.contest, op.SparesCommands := by
    simp [Rival.contest, Operation.SparesCommands]
  have hspares' : ∀ op ∈ Rival.rematch ++ [], op.SparesCommands := by
    simp [Rival.rematch, Operation.SparesCommands]
  obtain ⟨hconsistent, -, -, -, hstays⟩ := commands_reach_publisher Rival.guest_keepsToApi Rival.contest
    hspares () .reject ⟨"scripts", "main.lua"⟩ {} ⟨0, 0⟩ #[]
  have howner : (execAll Rival.guest Rival.contest Rival.start).commands.owner? "go" = some "one" := by
    decide +kernel
  have hnumber : ((execAll Rival.guest Rival.contest Rival.start).environment? "one").map
      Environment.control = some 0 := by
    decide +kernel
  have hnumber' : ((execAll Rival.guest (Rival.rematch ++ [])
      (execAll Rival.guest Rival.contest Rival.start)).environment? "one").map
      Environment.control = some 0 := by
    decide +kernel
  obtain ⟨env, henv, hcontrol⟩ := Option.map_eq_some_iff.mp hnumber
  obtain ⟨env', henv', hcontrol'⟩ := Option.map_eq_some_iff.mp hnumber'
  refine ⟨hconsistent, ?_, by decide +kernel⟩
  exact (hstays Rival.rematch [] hspares' "go" "one" env env' howner henv henv'
    (hcontrol'.trans hcontrol.symm)).2

end Host
end ScriptHost
