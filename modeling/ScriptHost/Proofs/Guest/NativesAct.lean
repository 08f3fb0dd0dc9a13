import ScriptHost.Proofs.Guest.LibraryActs

/-!
# All native functions act

The methods of control objects, loggers, schedulers and tasks are the acts that there are. With them, every native
function acts (`Acting.apply`).
-/

namespace ScriptHost.Guest

namespace Acting

variable {α : Type}

/-! ## Conversion -/

@[grind ←] theorem hostFault (e : GuestError) : Acting (Library.hostFault e : NativeM α) := .failWith _

@[grind ←] theorem accept (method : Option String) (args : Args) (i : ℕ) (take : Value → Except GuestError α) :
    Acting (Library.accept method args i take) := by
  unfold Library.accept
  grind

@[grind ←] theorem checkSelf (typeName method : String) (args : Args) (take : HostObject → Option α) :
    Acting (Library.checkSelf typeName method args take) := by
  unfold Library.checkSelf
  grind

@[grind ←] theorem answer {x : WorldM (Except HostError α)} (hx : ActsOnly x) : Acting (Library.answer x) := by
  refine .bind (.inWorld hx) fun r => ?_
  cases r with
  | ok a => exact .pure a
  | error e => exact .hostFault _

/-! ## The objects of scripts -/

/-- What is done in the name of a control object. -/
theorem asOwner {β : Type} (number : ℕ) {x : Owner → WorldM (Except HostError α)} {f : α → NativeM β}
    (act : Act Heap Value) (hx : ∀ w : World, (x (.script (w.controlName number)) w).2 = act.perform w)
    (hf : ∀ a, Acting (f a)) :
    Acting (do f (← Library.answer (x (← Library.controlOwner number)))) := by
  -- nothing happens between the question for the name and what is done in it
  have hsame : (do f (← Library.answer (x (← Library.controlOwner number)))) =
      Library.answer (fun w => x (.script (w.controlName number)) w) >>= f := rfl
  rw [hsame]
  exact .bind (.answer (.of_act (fun _ => act) hx)) hf

@[grind ←] theorem control (m : ControlMethod) (args : Args) : Acting (Library.control m args) := by
  unfold Library.control
  refine .bind (.checkSelf _ _ args _) fun number => ?_
  cases m with
  | onLoad =>
    refine .bind (.accept _ args 2 _) fun hook => .bind (.inWorld ?_) fun _ => .results []
    exact .of_act (fun _ => .onLoad number hook) fun _ => rfl
  | onUnload =>
    refine .bind (.accept _ args 2 _) fun hook => .bind (.inWorld ?_) fun _ => .results []
    exact .of_act (fun _ => .onUnload number hook) fun _ => rfl
  | registerCommand =>
    refine .bind (.accept _ args 2 _) fun command => .bind (.accept _ args 3 _) fun handler => ?_
    refine .bind (.accept _ args 4 _) fun description => ?_
    split
    · refine .bind (.inWorld ?_) fun _ => .results []
      exact .of_act (fun _ => .declare number ⟨command, description, handler⟩) fun _ => rfl
    · exact .hostFault _
  | share =>
    refine .bind (.accept _ args 2 _) fun object => ?_
    exact .asOwner number (.share number object _) (fun _ => rfl) fun _ => .results []
  | unshare =>
    refine .bind (.accept _ args 2 _) fun object => ?_
    exact .asOwner number (.unshare number object) (fun _ => rfl) fun _ => .result _

@[grind ←] theorem logValues (level : Level) (script : String) (vs : List Value) :
    Acting (Library.logValues level script vs) :=
  .bind (.inWorld (.of_act (fun _ => .report _) fun _ => rfl)) fun _ => .results []

@[grind ←] theorem logger (m : LoggerMethod) (args : Args) : Acting (Library.logger m args) := by
  unfold Library.logger
  grind

@[grind ←] theorem scheduleTask (script : String) (f : Value) (lane : Lane) (mode : Mode) :
    Acting (Library.scheduleTask script f lane mode) :=
  .bind (.answer (.of_act (fun _ => .schedule script f lane mode) fun _ => rfl)) fun _ => .result _

@[grind ←] theorem cancelTask (script : String) (id : TaskId) : Acting (Library.cancelTask script id) :=
  .bind (.answer (.of_act (fun _ => .cancel script id) fun _ => rfl)) fun _ => .result _

@[grind ←] theorem scheduler (m : SchedulerMethod) (args : Args) : Acting (Library.scheduler m args) := by
  unfold Library.scheduler
  cases m <;> grind

@[grind ←] theorem taskCancel (args : Args) : Acting (Library.taskCancel args) := by
  unfold Library.taskCancel
  grind

@[grind ←] theorem readModule (folder : Option String) (args : Args) : Acting (Library.readModule folder args) := by
  unfold Library.readModule
  grind

/-! ## The frozen environment -/

@[grind ←] theorem frozenLength (behind : Ref) : Acting (Library.frozenLength behind) :=
  .bind .getHeap fun _ => .result _

@[grind ←] theorem frozenPairs (behind : Ref) : Acting (Library.frozenPairs behind) := .results _

@[grind ←] theorem refuseWrite (args : Args) : Acting (Library.refuseWrite args) := .hostFault _

@[grind ←] theorem resolve (args : Args) : Acting (Library.resolve args) := by
  unfold Library.resolve
  grind

@[grind ←] theorem util (f : UtilFn) (args : Args) : Acting (Library.util f args) := by
  unfold Library.util
  cases f <;> grind

/-! ## All of them -/

/-- **Native functions act.** Whatever a native function does to its world, it does by acts. -/
theorem apply (n : Native) (args : Args) : Acting (n.apply args) := by
  unfold Native.apply
  cases n <;> grind

end Acting

end ScriptHost.Guest
