import ScriptHost.Proofs.Host.Owners
import ScriptHost.Proofs.Host.Registrations

/-!
# Whom a command reaches

A published name means the command that its owner has under that name now: declared commands stand in the
control objects, which guest code changes at any time, published ones in a table of the host, which changes when
scripts enter and leave.

* `Routed registered h`: the invariant that couples the two, where `registered` is what has been registered.
  Every course of the host's steps keeps it (`Journey.routed`).
* `Continues h h'`: an instance that is still there answers for the names it had; a new instance has a control
  object of its own.
-/

namespace ScriptHost
namespace Host

open Scheduler

variable {γ α : Type} {g : Guest γ α} {h h' h'' : Host γ α} {flying : Option (ℕ × Submission α)}
  {stints : List (Stint γ α)} {name script : String} {origin : Origin} {env : Environment α}
  {past registered : List (ℕ × DeclaredCommand α)}

/-! ## The invariant -/

/-- A loaded script declares a command of a name. -/
def Declares (h : Host γ α) (script name : String) : Prop :=
  ∃ env c, h.environment? script = some env ∧ h.control? env.control = some c ∧
    (c.command? name).isSome = true

/-- The books fit each other and what has been registered. -/
structure Routed (registered : List (ℕ × DeclaredCommand α)) (h : Host γ α) : Prop where
  named : WellNamed h
  numbers : ∀ r ∈ registered, r.1 < h.controls.size
  /-- No two scripts have one control object. -/
  apart : ∀ name env name' env', h.environment? name = some env → h.environment? name' = some env' →
    env.control = env'.control → name = name'
  /-- The control object of a loaded script has what was registered last. -/
  current : ∀ name env, h.environment? name = some env → ∃ c, h.control? env.control = some c ∧
    ∀ n, c.command? n = latest env.control n registered
  distinct : ∀ number c, h.control? number = some c → c.Distinct
  published : ∀ n c, h.commands.get? n = some c → c.name = n ∧ h.Declares c.owner n

/-- An instance that is still there answers for the names it had. An instance is known by its control object. -/
structure Continues (h h' : Host γ α) : Prop where
  size : h.controls.size ≤ h'.controls.size
  instances : ∀ script env, h'.environment? script = some env →
    h.environment? script = some env ∨ h.controls.size ≤ env.control
  owners : ∀ n script env, h.commands.owner? n = some script → h.environment? script = some env →
    h'.environment? script = some env → h'.commands.owner? n = some script

theorem Routed.control_lt (hrouted : Routed past h) (henv : h.environment? name = some env) :
    env.control < h.controls.size := by
  obtain ⟨c, hc, -⟩ := hrouted.current name env henv
  exact (Array.getElem?_eq_some_iff.mp hc).1

/-- An instance that is there at the end was there all the time. -/
theorem Continues.environment?_mid (hfirst : Continues h h') (hrest : Continues h' h'')
    (hlt : env.control < h.controls.size) (hlast : h''.environment? script = some env) :
    h'.environment? script = some env := by
  refine (hrest.instances script env hlast).resolve_right fun hnew => ?_
  have hsize := hfirst.size
  omega

theorem Continues.trans (hrouted : Routed past h) (hfirst : Continues h h')
    (hrest : Continues h' h'') : Continues h h'' where
  size := Nat.le_trans hfirst.size hrest.size
  instances script env henv := by
    rcases hrest.instances script env henv with hmid | hnew
    · exact hfirst.instances script env hmid
    · exact .inr (Nat.le_trans hfirst.size hnew)
  owners n script env howner henv hlast := by
    have hmid := hfirst.environment?_mid hrest (hrouted.control_lt henv) hlast
    exact hrest.owners n script env (hfirst.owners n script env howner henv hmid) hmid hlast

/-! ## Work -/

/-- What is registered is what the control objects have then. -/
theorem Enters.routed (henters : Enters registered h h') (hrouted : Routed past h) :
    Routed (past ++ registered) h' := by
  have henvironment : ∀ n, h'.environment? n = h.environment? n := fun n =>
    congrArg (·.get? n) henters.environments
  constructor
  case named =>
    intro n e he
    rw [henvironment] at he
    exact hrouted.named n e he
  case numbers =>
    rw [henters.size]
    exact List.forall_mem_append.mpr ⟨hrouted.numbers, henters.numbers⟩
  case apart =>
    intro n e n' e' he he'
    rw [henvironment] at he he'
    exact hrouted.apart n e n' e' he he'
  case current =>
    intro n e he
    rw [henvironment] at he
    -- the latest of what is registered is what the control object has
    obtain ⟨c, hc, hcommand⟩ := hrouted.current n e he
    obtain ⟨c', hc', -, hcommand'⟩ := henters.control e.control c hc
    refine ⟨c', hc', fun m => ?_⟩
    rw [hcommand', hcommand, latest_append]
  case distinct =>
    intro number c' hc'
    have hlt : number < h.controls.size := henters.size ▸ (Array.getElem?_eq_some_iff.mp hc').1
    obtain ⟨c'', hc'', hdistinct, -⟩ :=
      henters.control number h.controls[number] (Array.getElem?_eq_getElem hlt)
    obtain rfl := Option.some.inj (hc'.symm.trans hc'')
    exact hdistinct (hrouted.distinct number _ (Array.getElem?_eq_getElem hlt))
  case published =>
    intro n c hc
    rw [henters.commands] at hc
    obtain ⟨hname, e, control, he, hcontrol, hdeclared⟩ := hrouted.published n c hc
    obtain ⟨control', hcontrol', -, hcommand⟩ := henters.control e.control control hcontrol
    refine ⟨hname, e, control', (henvironment _).trans he, hcontrol', ?_⟩
    rw [hcommand, Option.isSome_or, hdeclared, Bool.or_true]

theorem Enters.continues (henters : Enters registered h h') : Continues h h' where
  size := Nat.le_of_eq henters.size.symm
  instances script env henv := by
    rw [environment?, henters.environments] at henv
    exact .inl henv
  owners n script _ howner _ _ := by
    rw [CommandTable.owner?, henters.commands]
    exact howner

/-! ## Leaving -/

theorem environment?_without (name : String) (number : ℕ) (n : String) :
    (h.without name number).environment? n = if name = n then none else h.environment? n :=
  NameMap.get?_erase h.environments name n

/-- A script that leaves takes its own commands with it, and nobody else's. -/
theorem Routed.without (hrouted : Routed past h) (hkeyed : h.commands.Keyed)
    (henv : h.environment? name = some env) : Routed past (h.without name env.control) := by
  have hcommands : ∀ n, (h.without name env.control).commands.get? n =
      (h.commands.get? n).filter fun c => c.owner != name := fun n =>
    (CommandTable.get?_sync _ n).trans (hkeyed.get?_withdraw_ownedBy n)
  -- control objects are apart, so only that of the script that leaves is cleared
  have hothers : ∀ n e, (h.without name env.control).environment? n = some e →
      h.environment? n = some e ∧ (h.without name env.control).control? e.control =
        h.control? e.control := by
    intro n e he
    rw [environment?_without] at he
    split at he
    · cases he
    · rename_i hne
      refine ⟨he, (control?_modify (h := h) env.control e.control Control.clear).trans (if_neg ?_)⟩
      exact fun hsame => hne (hrouted.apart name env n e henv he hsame)
  constructor
  case named => exact fun n e he => hrouted.named n e (hothers n e he).1
  case numbers =>
    show ∀ r ∈ past, r.1 < (h.controls.modify env.control Control.clear).size
    rw [Array.size_modify]
    exact hrouted.numbers
  case apart =>
    exact fun n e n' e' he he' => hrouted.apart n e n' e' (hothers n e he).1 (hothers n' e' he').1
  case current =>
    intro n e he
    obtain ⟨hold, hsame⟩ := hothers n e he
    rw [hsame]
    exact hrouted.current n e hold
  case distinct =>
    intro number c hc
    have hc' : ({ h with controls := h.controls.modify env.control Control.clear } :
        Host γ α).control? number = some c := hc
    rw [control?_modify] at hc'
    split at hc'
    · obtain ⟨c', -, rfl⟩ := Option.map_eq_some_iff.mp hc'
      exact List.nodup_nil
    · exact hrouted.distinct number c hc'
  case published =>
    intro n c hc
    rw [hcommands] at hc
    obtain ⟨hc, hne⟩ := Option.filter_eq_some_iff.mp hc
    obtain ⟨hname, e, control, he, hcontrol, hdeclared⟩ := hrouted.published n c hc
    have hstays : (h.without name env.control).environment? c.owner = some e := by
      rw [environment?_without, if_neg (Ne.symm (bne_iff_ne.mp hne))]
      exact he
    exact ⟨hname, e, control, hstays, (hothers _ e hstays).2.trans hcontrol, hdeclared⟩

theorem continues_without (hkeyed : h.commands.Keyed) (name : String) (number : ℕ) :
    Continues h (h.without name number) where
  size := Nat.le_of_eq Array.size_modify.symm
  instances script env henv := by
    rw [environment?_without] at henv
    split at henv
    · cases henv
    · exact .inl henv
  owners n script env howner _ hlast := by
    rw [environment?_without] at hlast
    split at hlast
    · cases hlast
    · rename_i hne
      obtain ⟨c, hc, rfl⟩ := Option.map_eq_some_iff.mp howner
      have hkept : (h.without name number).commands.get? n = some c := by
        refine (CommandTable.get?_sync _ n).trans ((hkeyed.get?_withdraw_ownedBy n).trans ?_)
        rw [hc]
        exact if_pos (bne_iff_ne.mpr (Ne.symm hne))
      rw [CommandTable.owner?, hkept]
      rfl

/-! ## Publishing -/

/-- What publishing makes of the table: first come, first served. -/
structure Publishes (name : String) (declared : List (DeclaredCommand α)) (t t' : CommandTable) :
    Prop where
  /-- What is new stands under a name that the script declares. -/
  fresh : ∀ n c, t'.get? n = some c → t.get? n = some c ∨
    c.name = n ∧ c.owner = name ∧ ∃ d ∈ declared, d.name = n
  owners : ∀ n script, t.owner? n = some script → t'.owner? n = some script
  /-- A name that the script declares is its own, unless another had published it. -/
  served : ∀ d ∈ declared, t'.owner? d.name = some ((t.owner? d.name).getD name)

theorem publishes_nil (name : String) (t : CommandTable) :
    Publishes name ([] : List (DeclaredCommand α)) t t :=
  ⟨fun _ _ hc => .inl hc, fun _ _ hn => hn, fun _ hd => nomatch hd⟩

/-- Another has published a command of the first name: it is refused. -/
theorem Publishes.cons_error {d : DeclaredCommand α} {ds : List (DeclaredCommand α)}
    {t t' : CommandTable} {e : HostError} (hpublishes : Publishes name ds t t')
    (herror : t.register ⟨d.name, name, d.description⟩ = .error e) :
    Publishes name (d :: ds) t t' where
  fresh n c hc := by
    refine (hpublishes.fresh n c hc).imp_right fun ⟨hname, howner, e, he, hn⟩ => ?_
    exact ⟨hname, howner, e, List.mem_cons_of_mem d he, hn⟩
  owners := hpublishes.owners
  served := by
    refine List.forall_mem_cons.mpr ⟨?_, hpublishes.served⟩
    obtain ⟨owner, howner⟩ := CommandTable.exists_owner_of_register_error herror
    have howner' : t.owner? d.name = some owner := howner
    rw [hpublishes.owners d.name owner howner', howner']
    rfl

theorem Publishes.cons_ok {d : DeclaredCommand α} {ds : List (DeclaredCommand α)}
    {t table t' : CommandTable} (hpublishes : Publishes name ds table t')
    (hok : t.register ⟨d.name, name, d.description⟩ = .ok table) :
    Publishes name (d :: ds) t t' := by
  obtain ⟨hmine, hbefore⟩ := CommandTable.owner?_of_register_ok hok
  have hothers : ∀ n, n ≠ d.name → table.get? n = t.get? n := fun n hn =>
    (CommandTable.get?_of_register_ok hok n).resolve_right fun hnew => hn hnew.1
  -- a command that is registered was the script's own or nobody's
  have howners : ∀ n, (table.owner? n).getD name = (t.owner? n).getD name := by
    intro n
    by_cases hn : n = d.name
    · subst hn
      exact (congrArg (·.getD name) hmine).trans hbefore.symm
    · rw [CommandTable.owner?, hothers n hn]
      rfl
  constructor
  case fresh =>
    intro n c hc
    rcases hpublishes.fresh n c hc with hold | ⟨hname, howner, e, he, hn⟩
    · rcases CommandTable.get?_of_register_ok hok n with hsame | ⟨hname, hnew⟩
      · exact .inl (hsame.symm.trans hold)
      · obtain rfl := Option.some.inj (hnew.symm.trans hold)
        exact .inr ⟨hname.symm, rfl, d, List.mem_cons_self, hname.symm⟩
    · exact .inr ⟨hname, howner, e, List.mem_cons_of_mem d he, hn⟩
  case owners =>
    intro n script hn
    refine hpublishes.owners n script ?_
    by_cases hname : n = d.name
    · subst hname
      have hmine' : table.owner? d.name = some name := hmine
      have hsame := howners d.name
      rw [hmine', hn] at hsame
      exact hmine'.trans (congrArg some hsame)
    · rw [CommandTable.owner?, hothers n hname]
      exact hn
  case served =>
    refine List.forall_mem_cons.mpr ⟨?_, fun e he => ?_⟩
    · have hmine' : table.owner? d.name = some name := hmine
      rw [hpublishes.owners d.name name hmine']
      exact congrArg some hbefore.symm
    · rw [hpublishes.served e he, howners]

theorem publishAll_publishes (name : String) (declared : List (DeclaredCommand α)) (h : Host γ α) :
    ∃ commands records,
      publishAll name declared h = ((), { h with commands := commands, records := records }) ∧
      Publishes name declared h.commands commands := by
  induction declared generalizing h with
  | nil => exact ⟨h.commands, h.records, rfl, publishes_nil name h.commands⟩
  | cons d ds ih =>
    rw [publishAll, read_bind]
    cases hregister : h.commands.register ⟨d.name, name, d.description⟩ with
    | error e =>
      obtain ⟨commands, records, heq, hpublishes⟩ := ih ((log (scriptRecord .warn name
        s!"command '{d.name}' not registered: {e.message}") : HostM γ α Unit) h).2
      exact ⟨commands, records, heq, hpublishes.cons_error hregister⟩
    | ok table =>
      obtain ⟨commands, records, heq, hpublishes⟩ := ih { h with commands := table }
      exact ⟨commands, records, heq, hpublishes.cons_ok hregister⟩

/-- A loaded script publishes the commands it declares now. -/
theorem publish_publishes (henv : h.environment? name = some env) :
    ∃ commands records, (publish name h).2 = { h with commands := commands, records := records } ∧
      Publishes name (h.declared env) h.commands commands := by
  obtain ⟨commands, records, heq, hpublishes⟩ := publishAll_publishes name (h.declared env) h
  obtain ⟨records', hsync⟩ := syncCommands_eq { h with commands := commands, records := records }
  refine ⟨commands.sync.2, records', ?_, fun n c hc => ?_, fun n script hn => ?_, fun d hd => ?_⟩
  · rw [publish, read_bind, henv]
    dsimp only
    rw [bind_run, heq]
    exact congrArg Prod.snd hsync
  · rw [CommandTable.get?_sync] at hc
    exact hpublishes.fresh n c hc
  · rw [CommandTable.owner?, CommandTable.get?_sync]
    exact hpublishes.owners n script hn
  · rw [CommandTable.owner?, CommandTable.get?_sync]
    exact hpublishes.served d hd

theorem publish_of_out (hout : h.environment? name = none) : publish name h = ((), h) := by
  rw [publish, read_bind, hout]
  rfl

/-- A command that is declared is found under its name. -/
theorem declares_of_mem (hrouted : Routed past h) {d : DeclaredCommand α}
    (henv : h.environment? name = some env) (hd : d ∈ h.declared env) : h.Declares name d.name := by
  obtain ⟨c, hc, -⟩ := hrouted.current name env henv
  rw [declared, hc] at hd
  refine ⟨env, c, henv, hc, ?_⟩
  rw [Control.command?, List.find?_isSome]
  exact ⟨d, hd, beq_self_eq_true _⟩

theorem Routed.publish (hrouted : Routed past h) (name : String) :
    Routed past (Host.publish name h).2 ∧ Continues h (Host.publish name h).2 := by
  cases henv : h.environment? name with
  | none =>
    rw [publish_of_out henv]
    exact ⟨hrouted, Nat.le_refl _, fun _ _ he => .inl he, fun _ _ _ howner _ _ => howner⟩
  | some env =>
    obtain ⟨commands, records, heq, hpublishes⟩ := publish_publishes henv
    rw [heq]
    constructor
    · refine ⟨hrouted.named, hrouted.numbers, hrouted.apart, hrouted.current, hrouted.distinct,
        fun n c hc => ?_⟩
      rcases hpublishes.fresh n c hc with hold | ⟨hname, rfl, d, hd, rfl⟩
      · exact hrouted.published n c hold
      · exact ⟨hname, declares_of_mem hrouted henv hd⟩
    · exact ⟨Nat.le_refl _, fun _ _ he => .inl he,
        fun n script _ howner _ _ => hpublishes.owners n script howner⟩

/-! ## Entering and failing -/

/-- A control object that was there is there when another has been made. -/
theorem control?_withControl {number : ℕ} (hlt : number < h.controls.size) :
    (h.withControl name origin).control? number = h.control? number := by
  show (h.controls.push _)[number]? = h.controls[number]?
  rw [Array.getElem?_push_lt hlt, Array.getElem?_eq_getElem hlt]

theorem control?_withControl_size :
    (h.withControl name origin).control? h.controls.size =
      some { name, folder := origin.folder? } :=
  Array.getElem?_push_size

theorem size_withControl : (h.withControl name origin).controls.size = h.controls.size + 1 :=
  Array.size_push _

/-- A new control object has no commands, and is nobody's. -/
theorem Routed.withControl (hrouted : Routed past h) (name : String) (origin : Origin) :
    Routed past (h.withControl name origin) where
  named := hrouted.named
  numbers r hr := by
    have hlt := hrouted.numbers r hr
    rw [size_withControl]
    omega
  apart := hrouted.apart
  current n e he := by
    rw [control?_withControl (hrouted.control_lt he)]
    exact hrouted.current n e he
  distinct number c hc := by
    have hlt : number < h.controls.size + 1 :=
      Nat.lt_of_lt_of_eq (Array.getElem?_eq_some_iff.mp hc).1 size_withControl
    -- an old control object is as it was; the new one has no commands
    rcases Nat.lt_succ_iff_lt_or_eq.mp hlt with hold | rfl
    · rw [control?_withControl hold] at hc
      exact hrouted.distinct number c hc
    · rw [control?_withControl_size] at hc
      obtain rfl := Option.some.inj hc
      exact List.nodup_nil
  published n c hc := by
    obtain ⟨hname, e, control, he, hcontrol, hdeclared⟩ := hrouted.published n c hc
    exact ⟨hname, e, control, he, (control?_withControl (hrouted.control_lt he)).trans hcontrol,
      hdeclared⟩

theorem environment?_entered (name : String) (env : Environment α) (n : String) :
    (h.entered name env).environment? n = if name = n then some env else h.environment? n :=
  NameMap.get?_insert h.environments name n env

/-- A script that enters the books has what was registered with its new control object. -/
theorem Routed.enter (hrouted : Routed past h) (hname : isScriptName name = true)
    (hout : h.environment? name = none) (hnumber : env.control = h.controls.size)
    (henters : Enters registered (h.withControl name origin) h') :
    Routed (past ++ registered) (h'.entered name env) := by
  have hran := henters.routed (hrouted.withControl name origin)
  have hsame : ∀ n, h'.environment? n = h.environment? n := fun n =>
    congrArg (·.get? n) henters.environments
  have hnew : ∀ n e, h'.environment? n = some e → e.control ≠ env.control := by
    intro n e he
    rw [hsame] at he
    rw [hnumber]
    exact Nat.ne_of_lt (hrouted.control_lt he)
  constructor
  case named =>
    intro n e he
    rw [environment?_entered] at he
    split at he
    · rename_i hn
      exact hn ▸ hname
    · exact hran.named n e he
  case numbers => exact hran.numbers
  case apart =>
    intro n e n' e' he he' hcontrol
    rw [environment?_entered] at he he'
    split at he <;> split at he'
    · rename_i hn hn'
      exact hn.symm.trans hn'
    · obtain rfl := Option.some.inj he
      exact absurd hcontrol.symm (hnew n' e' he')
    · obtain rfl := Option.some.inj he'
      exact absurd hcontrol (hnew n e he)
    · exact hran.apart n e n' e' he he' hcontrol
  case current =>
    intro n e he
    rw [environment?_entered] at he
    split at he
    · obtain rfl := Option.some.inj he
      obtain ⟨c, hc, -, hcommand⟩ := henters.control env.control { name, folder := origin.folder? }
        (hnumber ▸ control?_withControl_size)
      have hbefore : ∀ m, latest env.control m past = none := fun m =>
        latest_of_lt (fun r hr => hnumber ▸ hrouted.numbers r hr) m
      refine ⟨c, hc, fun m => ?_⟩
      rw [hcommand, latest_append, hbefore]
      rfl
    · exact hran.current n e he
  case distinct => exact hran.distinct
  case published =>
    intro n c hc
    obtain ⟨hkey, e, control, he, hcontrol, hdeclared⟩ := hran.published n c hc
    refine ⟨hkey, e, control, ?_, hcontrol, hdeclared⟩
    rw [environment?_entered, if_neg]
    · exact he
    · -- the script had no environment, and so nothing was published
      intro hentering
      rw [hsame, ← hentering, hout] at he
      cases he

theorem continues_enter (hnumber : env.control = h.controls.size)
    (henters : Enters registered (h.withControl name origin) h') :
    Continues h (h'.entered name env) where
  size := by
    show h.controls.size ≤ h'.controls.size
    rw [henters.size, size_withControl]
    omega
  instances script e he := by
    rw [environment?_entered] at he
    split at he
    · obtain rfl := Option.some.inj he
      exact .inr (Nat.le_of_eq hnumber.symm)
    · rw [environment?, henters.environments] at he
      exact .inl he
  owners n script _ howner _ _ := by
    show (h'.commands.get? n).map Command.owner = some script
    rw [henters.commands]
    exact howner

/-- A script that fails leaves an empty control object, which is nobody's. -/
theorem Routed.fail (hrouted : Routed past h)
    (henters : Enters registered (h.withControl name origin) h') :
    Routed (past ++ registered) (h'.discarded name h.controls.size) := by
  have hran := henters.routed (hrouted.withControl name origin)
  have hcontrols : ∀ number, (h'.discarded name h.controls.size).control? number =
      if h.controls.size = number then (h'.control? number).map Control.clear
      else h'.control? number := fun number => control?_modify (h := h') _ number Control.clear
  -- the control object is the newest, so no environment has it
  have hothers : ∀ n e, h'.environment? n = some e →
      (h'.discarded name h.controls.size).control? e.control = h'.control? e.control := by
    intro n e he
    rw [environment?, henters.environments] at he
    rw [hcontrols, if_neg (Nat.ne_of_gt (hrouted.control_lt he))]
  constructor
  case named => exact hran.named
  case numbers =>
    show ∀ r ∈ past ++ registered, r.1 < (h'.controls.modify h.controls.size Control.clear).size
    rw [Array.size_modify]
    exact hran.numbers
  case apart => exact hran.apart
  case current =>
    intro n e he
    rw [hothers n e he]
    exact hran.current n e he
  case distinct =>
    intro number c hc
    rw [hcontrols] at hc
    split at hc
    · obtain ⟨c', -, rfl⟩ := Option.map_eq_some_iff.mp hc
      exact List.nodup_nil
    · exact hran.distinct number c hc
  case published =>
    intro n c hc
    obtain ⟨hkey, e, control, he, hcontrol, hdeclared⟩ := hran.published n c hc
    exact ⟨hkey, e, control, he, (hothers _ e he).trans hcontrol, hdeclared⟩

theorem continues_fail (henters : Enters registered (h.withControl name origin) h') :
    Continues h (h'.discarded name h.controls.size) where
  size := by
    show h.controls.size ≤ (h'.controls.modify h.controls.size Control.clear).size
    rw [Array.size_modify, henters.size, size_withControl]
    omega
  instances script e he := by
    have he' : h'.environments.get? script = some e := he
    rw [henters.environments] at he'
    exact .inl he'
  owners n script _ howner _ _ := by
    show (h'.commands.get? n).map Command.owner = some script
    rw [henters.commands]
    exact howner

/-! ## Courses and runs -/

/-- Every course of the host's steps keeps the books fitting. -/
theorem Journey.routed (hjourney : Journey stints h h') (hregisters : Registers stints registered)
    (hrouted : Routed past h) : Routed (past ++ registered) h' ∧ Continues h h' := by
  induction hjourney generalizing past registered with
  | work hwork =>
    have henters := hwork.enters hregisters
    exact ⟨henters.routed hrouted, henters.continues⟩
  | leave hkeyed henv =>
    cases hregisters
    rw [List.append_nil]
    exact ⟨hrouted.without hkeyed henv, continues_without hkeyed _ _⟩
  | publish name h =>
    cases hregisters
    rw [List.append_nil]
    exact hrouted.publish name
  | enter hname hout hnumber hwork =>
    have henters := hwork.enters hregisters
    exact ⟨hrouted.enter hname hout hnumber henters, continues_enter hnumber henters⟩
  | fail hwork =>
    have henters := hwork.enters hregisters
    exact ⟨hrouted.fail henters, continues_fail henters⟩
  | trans _ _ ihfirst ihrest =>
    -- what is registered is divided between the two parts of the way
    obtain ⟨first, later, rfl, hfirst, hlater⟩ := hregisters.of_append
    obtain ⟨hmid, hcontinues⟩ := ihfirst hfirst hrouted
    obtain ⟨hlast, hcontinues'⟩ := ihrest hlater hmid
    rw [← List.append_assoc]
    exact ⟨hlast, hcontinues.trans hrouted hcontinues'⟩

/-- The invariant holds after any operations, whatever is registered in the stints of the guest. -/
theorem execAll_routed (hg : g.KeepsToApi) (ops : List (Operation α))
    (hspares : ∀ op ∈ ops, op.SparesCommands) (h₀ : Orderly none h) (hrouted : Routed past h)
    (hregisters : Registers (runStints g ops h) registered) :
    Routed (past ++ registered) (execAll g ops h) ∧ Continues h (execAll g ops h) := by
  induction ops generalizing h past registered with
  | nil =>
    cases hregisters
    have hsame : Enters [] h h := .of_sameBooks (sameBooks_with _ _ _ _ _)
    exact ⟨hsame.routed hrouted, hsame.continues⟩
  | cons op ops ih =>
    rw [List.forall_mem_cons] at hspares
    obtain ⟨first, later, rfl, hfirst, hlater⟩ := hregisters.of_append
    have hjourney := op.exec_journey hg hspares.1 hrouted.named h₀
    obtain ⟨hmid, hcontinues⟩ := hjourney.routed hfirst hrouted
    obtain ⟨hlast, hcontinues'⟩ := ih hspares.2 (op.exec_orderly hg h₀) hmid hlater
    rw [← List.append_assoc]
    exact ⟨hlast, hcontinues.trans hrouted hcontinues'⟩

end Host
end ScriptHost
