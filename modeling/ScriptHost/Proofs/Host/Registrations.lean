import ScriptHost.Proofs.Host.Journey

/-!
# Registering commands

A script registers commands with its control object at any time. The control object keeps one command for each
name, the one registered last.

* `Registers`: the commands that are registered in stints of the guest, in order, each with the number of the
  control object that it is registered with.
* `latest`: the command registered last with a control object under a name.
* `Work.enters`: while the guest and the host are at work, what a control object has under a name is what was
  registered last, or what it had before.
-/

namespace ScriptHost

variable {γ α : Type}

/-! ## Control objects -/

namespace Control

variable {c : Control α}

/-- The declared commands have different names. -/
def Distinct (c : Control α) : Prop := (c.commands.map DeclaredCommand.name).Nodup

theorem command?_addCommand (c : Control α) (command : DeclaredCommand α) (name : String) :
    (c.addCommand command).command? name =
      if command.name = name then some command else c.command? name := by
  unfold command? addCommand
  rw [List.find?_append]
  split
  · rename_i hname
    have hnone : (c.commands.filter fun d => d.name != command.name).find?
        (fun d => d.name == name) = none := by
      refine List.find?_eq_none.mpr fun d hd hfound => ?_
      have hne := bne_iff_ne.mp (List.mem_filter.mp hd).2
      exact hne ((beq_iff_eq.mp hfound).trans hname.symm)
    rw [hnone]
    simp [hname]
  · rename_i hname
    -- none of the commands that give way has the other name
    have hsame : (c.commands.filter fun d => d.name != command.name).find?
        (fun d => d.name == name) = c.commands.find? fun d => d.name == name := by
      rw [List.find?_filter]
      congr 1
      funext d
      by_cases hd : d.name = name
      · simp [hd, Ne.symm hname]
      · simp [hd]
    rw [hsame]
    simp [hname]

theorem Distinct.addCommand (hdistinct : c.Distinct) (command : DeclaredCommand α) :
    (c.addCommand command).Distinct := by
  unfold Distinct Control.addCommand at *
  rw [List.map_append, List.nodup_append]
  refine ⟨(hdistinct.sublist (List.filter_sublist.map _)), List.nodup_singleton _, ?_⟩
  intro name hname other hother
  obtain ⟨d, hd, rfl⟩ := List.mem_map.mp hname
  rw [List.mem_singleton.mp hother]
  exact bne_iff_ne.mp (List.mem_filter.mp hd).2

end Control

/-! ## Registrations -/

/-- The command that an act registers with a control object, if it does. -/
def Act.registration? (h : Host γ α) : Act γ α → Option (ℕ × DeclaredCommand α)
  | .declare number command => if number < h.controls.size then some (number, command) else none
  | _ => none

/-- The commands that acts register, in order. -/
def Act.registrations : List (Act γ α) → Host γ α → List (ℕ × DeclaredCommand α)
  | [], _ => []
  | act :: acts, h => (act.registration? h).toList ++ registrations acts (act.perform h)

namespace Host

variable {g : Guest γ α} {h h' h'' : Host γ α} {flying : Option (ℕ × Submission α)}
  {stints stints' : List (Stint γ α)} {name : String} {number : ℕ}
  {registered later : List (ℕ × DeclaredCommand α)}

/-- The commands that are registered in stints of the guest, in order. -/
inductive Registers : List (Stint γ α) → List (ℕ × DeclaredCommand α) → Prop
  | none : Registers [] []
  | stint {st : Stint γ α} {stints : List (Stint γ α)} {later : List (ℕ × DeclaredCommand α)}
      (acts : List (Act γ α)) (hacts : st.after = Act.performAll acts st.before)
      (hrest : Registers stints later) :
      Registers (st :: stints) (Act.registrations acts st.before ++ later)

theorem Registers.of_append (hregisters : Registers (stints ++ stints') registered) :
    ∃ first later, registered = first ++ later ∧ Registers stints first ∧ Registers stints' later := by
  induction stints generalizing registered with
  | nil => exact ⟨[], registered, rfl, .none, hregisters⟩
  | cons st stints ih =>
    cases hregisters with
    | stint acts hacts hrest =>
      obtain ⟨first, later, rfl, hfirst, hlater⟩ := ih hrest
      exact ⟨_, later, (List.append_assoc ..).symm, .stint acts hacts hfirst, hlater⟩

theorem Registers.append (hfirst : Registers stints registered) (hlater : Registers stints' later) :
    Registers (stints ++ stints') (registered ++ later) := by
  induction hfirst with
  | none => exact hlater
  | stint acts hacts _ ih =>
    rw [List.append_assoc]
    exact .stint acts hacts ih

/-- The command registered last under a name with a control object. -/
def latest (number : ℕ) (name : String) (registered : List (ℕ × DeclaredCommand α)) :
    Option (DeclaredCommand α) :=
  (registered.reverse.find? fun r => r.1 == number && r.2.name == name).map Prod.snd

theorem latest_append (number : ℕ) (name : String) (registered later : List (ℕ × DeclaredCommand α)) :
    latest number name (registered ++ later) =
      (latest number name later).or (latest number name registered) := by
  unfold latest
  rw [List.reverse_append, List.find?_append, Option.map_or]

/-- What is registered last under a name has that name. -/
theorem name_of_latest {command : DeclaredCommand α}
    (hlatest : latest number name registered = some command) : command.name = name := by
  obtain ⟨r, hfound, rfl⟩ := Option.map_eq_some_iff.mp hlatest
  have hr := List.find?_some hfound
  simp only [Bool.and_eq_true, beq_iff_eq] at hr
  exact hr.2

/-- Nothing is registered with a control object that is not there yet. -/
theorem latest_of_lt (hnumbers : ∀ r ∈ registered, r.1 < number) (name : String) :
    latest number name registered = none := by
  refine Option.map_eq_none_iff.mpr (List.find?_eq_none.mpr fun r hr => ?_)
  have hlt := hnumbers r (List.mem_reverse.mp hr)
  simp [Nat.ne_of_lt hlt]

/-! ## What work does to control objects -/

/-- From one moment to another the books stay, but for commands that are registered. -/
structure Enters (registered : List (ℕ × DeclaredCommand α)) (h h' : Host γ α) : Prop where
  commands : ∀ n, h'.commands.get? n = h.commands.get? n
  environments : h'.environments = h.environments
  size : h'.controls.size = h.controls.size
  numbers : ∀ r ∈ registered, r.1 < h.controls.size
  control : ∀ number c, h.control? number = some c → ∃ c', h'.control? number = some c' ∧
    (c.Distinct → c'.Distinct) ∧
    ∀ n, c'.command? n = (latest number n registered).or (c.command? n)

theorem Enters.of_sameBooks (hsame : SameBooks h h') : Enters [] h h' where
  commands := hsame.commands
  environments := hsame.environments
  size := congrArg Array.size hsame.controls
  numbers r hr := nomatch hr
  control number c hc := by
    refine ⟨c, ?_, id, fun n => rfl⟩
    rw [control?, hsame.controls]
    exact hc

theorem Enters.trans (hfirst : Enters registered h h') (hrest : Enters later h' h'') :
    Enters (registered ++ later) h h'' where
  commands n := (hrest.commands n).trans (hfirst.commands n)
  environments := hrest.environments.trans hfirst.environments
  size := hrest.size.trans hfirst.size
  numbers := by
    refine List.forall_mem_append.mpr ⟨hfirst.numbers, fun r hr => ?_⟩
    rw [← hfirst.size]
    exact hrest.numbers r hr
  control number c hc := by
    obtain ⟨c', hc', hdistinct, hcommand⟩ := hfirst.control number c hc
    obtain ⟨c'', hc'', hdistinct', hcommand'⟩ := hrest.control number c' hc'
    refine ⟨c'', hc'', hdistinct' ∘ hdistinct, fun n => ?_⟩
    rw [hcommand', hcommand, latest_append, Option.or_assoc]

/-- A hook is no command. -/
theorem enters_hook (number : ℕ) (f : Control α → Control α) (hf : ∀ c, (f c).commands = c.commands) :
    Enters [] h { h with controls := h.controls.modify number f } where
  commands _ := rfl
  environments := rfl
  size := Array.size_modify
  numbers r hr := nomatch hr
  control m c hc := by
    rw [control?_modify, hc]
    split
    · refine ⟨f c, rfl, fun hdistinct => ?_, fun n => ?_⟩
      · rw [Control.Distinct, hf]
        exact hdistinct
      · rw [Control.command?, hf]
        rfl
    · exact ⟨c, rfl, id, fun n => rfl⟩

theorem enters_declare (number : ℕ) (command : DeclaredCommand α) :
    Enters ((Act.registration? h (.declare number command)).toList) h
      ((Act.declare number command).perform h) where
  commands _ := rfl
  environments := rfl
  size := Array.size_modify
  numbers r hr := by
    rw [Act.registration?] at hr
    split at hr
    · rw [List.mem_singleton.mp hr]
      assumption
    · exact nomatch hr
  control m c hc := by
    have hlt : m < h.controls.size := (Array.getElem?_eq_some_iff.mp hc).1
    show ∃ c', ({ h with controls := h.controls.modify number fun c => c.addCommand command } :
      Host γ α).control? m = some c' ∧ _
    rw [control?_modify, hc]
    by_cases hnumber : number = m
    · subst hnumber
      rw [if_pos rfl, Act.registration?, if_pos hlt]
      refine ⟨c.addCommand command, rfl, fun hdistinct => hdistinct.addCommand command, fun n => ?_⟩
      rw [Control.command?_addCommand]
      -- the command is the latest of its name, and hides none of another
      by_cases hname : command.name = n
      · simp [latest, hname]
      · simp [latest, hname]
    · rw [if_neg hnumber, Act.registration?]
      refine ⟨c, rfl, id, fun n => ?_⟩
      split <;> simp [latest, hnumber]

/-- What an act does to the books is to register a command, if it registers one. -/
theorem Act.perform_enters (act : Act γ α) (h₀ : Orderly flying h) :
    Enters (act.registration? h).toList h (act.perform h) := by
  cases act with
  | think state => exact .of_sameBooks (sameBooks_with _ _ _ _ _)
  | report record => exact .of_sameBooks (sameBooks_with _ _ _ _ _)
  | onLoad number hook => exact enters_hook number _ fun _ => rfl
  | onUnload number hook => exact enters_hook number _ fun _ => rfl
  | declare number command => exact enters_declare number command
  | share number object value =>
    obtain ⟨objects, records, -, heq⟩ :=
      share_eq (h := h) (.script (h.controlName number)) object value
    rw [Act.perform, heq]
    exact .of_sameBooks (sameBooks_with _ _ _ _ _)
  | unshare number object =>
    obtain ⟨objects, -, heq⟩ := unshare_eq (h := h) (.script (h.controlName number)) object
    rw [Act.perform, heq]
    exact .of_sameBooks (sameBooks_with _ _ _ _ _)
  | schedule script callable lane mode =>
    obtain ⟨record, heq⟩ := schedule_eq h₀.tasks.balances script callable lane mode
    rw [Act.perform, heq]
    exact .of_sameBooks (sameBooks_with _ _ _ _ _)
  | cancel script id =>
    rw [Act.perform, cancelTask_eq h₀.tasks.balances]
    split <;> exact .of_sameBooks (sameBooks_with _ _ _ _ _)

theorem Act.performAll_enters (acts : List (Act γ α)) (h₀ : Orderly flying h) :
    Enters (Act.registrations acts h) h (Act.performAll acts h) := by
  induction acts generalizing h with
  | nil => exact .of_sameBooks (sameBooks_with _ _ _ _ _)
  | cons act acts ih => exact (Act.perform_enters act h₀).trans (ih (act.perform_orderly h₀).1)

/-- While the guest and the host are at work, the books stay but for the commands that are registered. -/
theorem Work.enters (hwork : Work stints h h') (hregisters : Registers stints registered) :
    Enters registered h h' := by
  induction hwork generalizing registered with
  | aside hsame =>
    cases hregisters
    exact .of_sameBooks hsame
  | stint h₀ _ =>
    cases hregisters with
    | stint acts hacts hrest =>
      cases hrest
      dsimp only at hacts
      rw [hacts, List.append_nil]
      exact Act.performAll_enters acts h₀
  | trans _ _ ihfirst ihrest =>
    obtain ⟨first, later, rfl, hfirst, hlater⟩ := hregisters.of_append
    exact (ihfirst hfirst).trans (ihrest hlater)

/-- Each stint registers something or other, if only nothing. -/
theorem Work.exists_registers (hwork : Work stints h h') : ∃ registered, Registers stints registered := by
  induction hwork with
  | aside _ => exact ⟨[], .none⟩
  | stint _ hacts =>
    obtain ⟨acts, rfl⟩ := hacts
    exact ⟨_, .stint acts rfl .none⟩
  | trans _ _ ihfirst ihrest =>
    obtain ⟨first, hfirst⟩ := ihfirst
    obtain ⟨later, hlater⟩ := ihrest
    exact ⟨_, hfirst.append hlater⟩

theorem Journey.exists_registers (hjourney : Journey stints h h') :
    ∃ registered, Registers stints registered := by
  induction hjourney with
  | work hwork => exact hwork.exists_registers
  | leave _ _ => exact ⟨[], .none⟩
  | publish _ _ => exact ⟨[], .none⟩
  | enter _ _ _ hwork => exact hwork.exists_registers
  | fail hwork => exact hwork.exists_registers
  | trans _ _ ihfirst ihrest =>
    obtain ⟨first, hfirst⟩ := ihfirst
    obtain ⟨later, hlater⟩ := ihrest
    exact ⟨_, hfirst.append hlater⟩

end Host
end ScriptHost
