import ScriptHost.Guest.Machine
import ScriptHost.Proofs.Guest.NativesAct

/-!
# The machine acts

Of all steps of the machine only calls of native functions reach the host; every other step changes at most the heap
(`HeapOnly`). So a step changes the world by acts (`step_byActs`), and with it every run of guest code does
(`runSteps_byActs`), whatever the code is.
-/

namespace ScriptHost.Guest

/-! ## Steps that stay within the guest -/

/-- At most the heap has changed. -/
def HeapOnly (w w' : World) : Prop := ∃ guest, w' = { w with guest }

theorem HeapOnly.byActs {w w' : World} (h : HeapOnly w w') : ByActs w w' := by
  obtain ⟨guest, rfl⟩ := h
  exact .think w guest

theorem execute_heapOnly (a : Activation) (s : CallStack) (i : Instr) (w : World) :
    HeapOnly w (execute a s i w).2 := by
  unfold execute
  dsimp only
  -- each branch of each instruction tells the world that it leaves
  repeat' split
  all_goals exact ⟨_, rfl⟩

theorem give_heapOnly (vs : List Value) (s : CallStack) (w : World) : HeapOnly w (give vs s w).2 := by
  unfold give
  repeat' split
  all_goals exact ⟨_, rfl⟩

theorem raise_heapOnly (e : Value) (s : CallStack) (w : World) : HeapOnly w (raise e s w).2 := by
  unfold raise
  repeat' split
  all_goals exact ⟨_, rfl⟩

theorem yieldValues_heapOnly (vs : List Value) (s : CallStack) (w : World) : HeapOnly w (yieldValues vs s w).2 := by
  unfold yieldValues
  repeat' split
  all_goals exact ⟨_, rfl⟩

theorem resumeThread_heapOnly (thread : Ref) (args : List Value) (wrapped : Bool) (s : CallStack) (w : World) :
    HeapOnly w (resumeThread thread args wrapped s w).2 := by
  unfold resumeThread
  repeat' split
  all_goals exact ⟨_, rfl⟩

theorem settle_heapOnly (f : Native) (what : Option Described) (o : Outcome) (s : CallStack) (w : World) :
    HeapOnly w (settle f what o s w).2 := by
  cases o with
  | resume thread args wrapped => exact resumeThread_heapOnly thread args wrapped s w
  | yield vs => exact yieldValues_heapOnly vs s w
  | _ => exact ⟨_, rfl⟩

/-! ## Steps -/

section

variable {nested : Value → List Value → World → RunResult × World}

/-- A call of a native function is told how deeply it is nested, which is a matter of the heap. -/
theorem callValue_byActs (hnested : ∀ f args w, ByActs w (nested f args w).2) (f : Value) (args : List Value)
    (what : Option Described) (s : CallStack) (w : World) : ByActs w (callValue nested f args what s w).2 := by
  unfold callValue
  extract_lets refuse isDeep depth nesting level call
  split
  · exact .refl w
  split
  · -- a closure starts to run, if the stack is not too deep for it
    split
    · exact .refl w
    · split <;> exact .refl w
  · next n =>
    have hcall : CallContext.Acting ⟨call, s.frames, what⟩ := fun g args w =>
      (ByActs.think w _).trans ((hnested g args _).trans (.think _ _))
    have happly := Acting.apply n args ⟨call, s.frames, what⟩ w hcall
    rcases hrun : n.apply args ⟨call, s.frames, what⟩ w with ⟨o, w'⟩
    rw [hrun] at happly
    cases o <;> exact happly.trans (settle_heapOnly n what _ s w').byActs
  · split <;> exact .refl w

theorem step_byActs (hnested : ∀ f args w, ByActs w (nested f args w).2) (s : State) (w : World) :
    ByActs w (step nested s w).2 := by
  obtain ⟨focus, waiting⟩ := s
  cases focus with
  | run a =>
    unfold step
    dsimp only
    split
    · exact (execute_heapOnly _ waiting _ w).byActs
    · exact .refl w
  | call f args what => exact callValue_byActs hnested f args what waiting w
  | give vs =>
    unfold step
    dsimp only
    split
    · exact .refl w
    · exact (give_heapOnly vs waiting w).byActs
  | raise e =>
    unfold step
    dsimp only
    split
    · exact .refl w
    · exact (raise_heapOnly e waiting w).byActs
  | halt => exact .refl w

end

/-! ## Runs -/

/-- **Runs of guest code act.** From any state of the machine, a run changes the world by acts. -/
theorem runSteps_byActs (fuel : ℕ) (s : State) (w : World) : ByActs w (runSteps fuel s w).2 := by
  induction fuel generalizing s w with
  | zero => exact .refl w
  | succ fuel ih =>
    -- calls that native functions wait for are runs with the steps that are left
    have hstep := step_byActs (fun f args w => ih ⟨.call f args none, {}⟩ w) s w
    rw [runSteps]
    rcases hrun : step (fun f args w => runSteps fuel ⟨.call f args none, {}⟩ w) s w with ⟨next, w'⟩
    rw [hrun] at hstep
    cases next with
    | done r => exact hstep
    | next s' => exact hstep.trans (ih s' w')

theorem callFunction_byActs (f : Value) (args : List Value) (w : World) :
    ByActs w (callFunction f args w).2 := runSteps_byActs stepLimit _ w

end ScriptHost.Guest
