import ScriptHost.Proofs.Guest.InterpreterActs
import ScriptHost.Proofs.Guest.Names

/-!
# Calls of methods

What a run of guest code comes to, told by how far each piece of the code leads. A statement such as
`script:on_load(f)` looks up a global object and a method of it, and calls the method with a function.

* `Advances`: some steps lead from one state to another, whatever fuel is left.
* `Code.HasAt`: where a piece of code stands.
* `advances_methodCall`: a statement that calls a method does what the method does.
* `callGuestFunction_of_advances`: what a call from outside gives.
* `apply_onLoad`, `apply_onUnload`, `apply_run`: methods that do what acts do.
-/

namespace ScriptHost.Guest

variable {α β : Type} {m n : ℕ} {p q r : State × World} {a : Activation} {s : CallStack} {w w' : World}

/-! ## Steps -/

/-- A number of steps leads from one state to another, whatever fuel there is for more. -/
def Advances (n : ℕ) (p q : State × World) : Prop :=
  ∀ fuel, runSteps (fuel + n) p.1 p.2 = runSteps fuel q.1 q.2

theorem Advances.trans (h : Advances m p q) (h' : Advances n q r) : Advances (n + m) p r := fun fuel => by
  rw [← Nat.add_assoc, h, h']

theorem Advances.step (h : ∀ nested, Guest.step nested p.1 p.2 = (.next q.1, q.2)) : Advances 1 p q :=
  fun fuel => by rw [runSteps, h]

/-- An activation that has come some instructions further, over the frames below it. -/
def Activation.at (a : Activation) (s : CallStack) (w : World) (k : ℕ) (stack : List Value) : State × World :=
  (⟨.run { a with pc := a.pc + k, stack }, s⟩, w)

/-- One instruction of an activation. -/
theorem Advances.execute {i : Instr} {k : ℕ} {stack : List Value} (hi : a.code.instrs[a.pc + k]? = some i)
    (h : Guest.execute { a with pc := a.pc + k + 1, stack } s i w = q) : Advances 1 (a.at s w k stack) q :=
  .step fun nested => by simp only [Activation.at, Guest.step, hi, h]

/-! ## Pieces of code -/

/-- Some instructions stand in the code of a function, at a place. -/
def Code.HasAt (c : Code) (pc : ℕ) (is : List Instr) : Prop :=
  ∀ (k : ℕ) i, is[k]? = some i → c.instrs[pc + k]? = some i

theorem Code.hasAt_instrs (c : Code) : c.HasAt 0 c.instrs.toList := fun k i hi => by
  rw [Nat.zero_add, ← Array.getElem?_toList, hi]

theorem Code.HasAt.append {c : Code} {pc : ℕ} {is is' : List Instr} (h : c.HasAt pc (is ++ is')) :
    c.HasAt pc is ∧ c.HasAt (pc + is.length) is' := by
  refine ⟨fun k i hi => h k i ?_, fun k i hi => ?_⟩
  · rw [List.getElem?_append_left (List.getElem?_eq_some_iff.mp hi).1, hi]
  · rw [Nat.add_assoc]
    refine h _ i ?_
    rw [List.getElem?_append_right (Nat.le_add_right _ _), Nat.add_sub_cancel_left, hi]

/-! ## A call of a method -/

/-- The code of a statement that calls a method of a global object with the first local. -/
def methodCall (object method : String) : List Instr :=
  [.getUpvalue 0, .push (.ofText object), .index (some ⟨"upvalue", "_ENV"⟩), .dup, .push (.ofText method),
    .index (some ⟨"global", object⟩), .swap, .getLocal 0, .call 2 false (some 0) (some ⟨"method", method⟩)]

/-- **A call of a method** does what the method does, and goes on behind the statement. -/
theorem advances_methodCall {object method : String} {o : HostObject} {f : Native} {arg : Value} {g : Ref}
    {vs : List Value} (hcode : a.code.HasAt a.pc (methodCall object method))
    (hlocal : a.locals.getD 0 .nil = arg) (henv : w.guest.cell (a.upvalues.getD 0 0) = .table g)
    (hobject : w.guest.rawGet g (.ofText object) = .object o)
    (hmethod : objectField w o (.ofText method) = .native f)
    (hcall : ∀ context, f.apply [.object o, arg] context w = (.ok (.values vs), w')) :
    Advances 11 (a.at s w 0 []) ({ a with want := some 0, beside := [] }.at s w' 9 []) := by
  have hown : (w.guest.rawGet g (.ofText object)).isNil = false := by rw [hobject]; rfl
  have hindex : w.guest.index (.table g) (.ofText object) = .value (.object o) :=
    (index_own hown).trans (congrArg _ hobject)
  have hfield : w.guest.index (.object o) (.ofText method) = .field o := by
    cases o <;> first | rfl | cases hmethod
  -- the object is looked up among the globals, and the method in the object
  have hglobals : Advances 1 (a.at s w 0 []) (a.at s w 1 [.table g]) :=
    .execute (hcode 0 _ rfl) (by simp only [Guest.execute, Activation.at, henv])
  have hname : Advances 1 (a.at s w 1 [.table g]) (a.at s w 2 [.ofText object, .table g]) :=
    .execute (hcode 1 _ rfl) rfl
  have hself : Advances 1 (a.at s w 2 [.ofText object, .table g]) (a.at s w 3 [.object o]) :=
    .execute (hcode 2 _ rfl) (by simp only [Guest.execute, Activation.at, hindex])
  have hdup : Advances 1 (a.at s w 3 [.object o]) (a.at s w 4 [.object o, .object o]) := .execute (hcode 3 _ rfl) rfl
  have hkey : Advances 1 (a.at s w 4 [.object o, .object o]) (a.at s w 5 [.ofText method, .object o, .object o]) :=
    .execute (hcode 4 _ rfl) rfl
  have hfunction : Advances 1 (a.at s w 5 [.ofText method, .object o, .object o])
      (a.at s w 6 [.native f, .object o]) :=
    .execute (hcode 5 _ rfl) (by simp only [Guest.execute, Activation.at, hfield, hmethod])
  have hswap : Advances 1 (a.at s w 6 [.native f, .object o]) (a.at s w 7 [.object o, .native f]) :=
    .execute (hcode 6 _ rfl) rfl
  have harg : Advances 1 (a.at s w 7 [.object o, .native f]) (a.at s w 8 [arg, .object o, .native f]) :=
    .execute (hcode 7 _ rfl) (by simp only [Guest.execute, Activation.at, hlocal])
  -- the method runs above the activation, which waits for no results
  let waiting : CallStack :=
    ⟨.guest { a with pc := a.pc + 9, stack := [], want := some 0, beside := [] } :: s.frames, s.level⟩
  have hcalled : Advances 1 (a.at s w 8 [arg, .object o, .native f])
      (⟨.call (.native f) [.object o, arg] (some ⟨"method", method⟩), waiting⟩, w) :=
    .execute (hcode 8 _ rfl) rfl
  have happlied : Advances 1 (⟨.call (.native f) [.object o, arg] (some ⟨"method", method⟩), waiting⟩, w)
      (⟨.give vs, waiting⟩, w') := .step fun nested => by
    simp only [Guest.step, callValue, waiting, Frame.isNative, Bool.false_and, hcall, settle]
    rfl
  have hreturned : Advances 1 (⟨.give vs, waiting⟩, w') ({ a with want := some 0, beside := [] }.at s w' 9 []) :=
    .step fun _ => rfl
  exact (((((hglobals.trans hname).trans hself).trans ((hdup.trans hkey).trans hfunction)).trans
    (hswap.trans harg)).trans hcalled).trans (happlied.trans hreturned)

/-! ## Calls from outside -/

/-- A closure is called from outside, and its code comes to give results. -/
theorem callGuestFunction_of_advances {f : Ref} {c : Closure} {args vs : List Value}
    (hclosure : w.guest.closures[f]? = some c)
    (h : Advances n ((c.activate args 1).at {} w 0 []) (⟨.give vs, {}⟩, w')) (hn : n + 2 ≤ stepLimit) :
    callGuestFunction (.closure f) args w = (.ok vs, w') := by
  obtain ⟨fuel, hfuel⟩ : ∃ fuel, stepLimit = fuel + 1 + n + 1 := ⟨stepLimit - (n + 2), by omega⟩
  have hstart : callFunction (.closure f) args w = runSteps (fuel + 1 + n) ⟨.run (c.activate args 1), {}⟩ w := by
    rw [callFunction, hfuel, runSteps]
    simp only [step, callValue, depthOf, hclosure]
    rfl
  have hcall : callFunction (.closure f) args w = (.finished vs, w') := hstart.trans (h (fuel + 1))
  rw [callGuestFunction, hcall]

/-- A call without arguments, of which only the end matters. -/
theorem run_of_advances {f : Ref} {c : Closure} {vs : List Value} (hclosure : w.guest.closures[f]? = some c)
    (h : Advances n ((c.activate [] 1).at {} w 0 []) (⟨.give vs, {}⟩, w')) (hn : n + 2 ≤ stepLimit) :
    interpreter.run (.closure f) w = (.ok (), w') := by
  show (do pure ((← callGuestFunction (.closure f) []).map fun _ => ()) : WorldM _) w = _
  rw [Host.bind_run, callGuestFunction_of_advances hclosure h hn]
  rfl

/-! ## Methods of a script's objects -/

theorem apply_onLoad (number : ℕ) (f : Ref) (context : CallContext) :
    Native.apply (.control .onLoad) [.object (.control number), .closure f] context w =
      (.ok (.values []), (Act.onLoad number (.closure f)).perform w) := rfl

theorem apply_onUnload (number : ℕ) (f : Ref) (context : CallContext) :
    Native.apply (.control .onUnload) [.object (.control number), .closure f] context w =
      (.ok (.values []), (Act.onUnload number (.closure f)).perform w) := rfl

theorem bind_of_ok {x : NativeM α} {f : α → NativeM β} {context : CallContext} {v : α}
    (h : x context w = (.ok v, w')) : (x >>= f) context w = f v context w' := by
  rw [Looks.bind_eq, h]

theorem answer_of_ok {x : WorldM (Except HostError α)} {context : CallContext} {v : α} (h : x w = (.ok v, w')) :
    Library.answer x context w = (.ok v, w') := by
  have hasked : inWorld x context w = (.ok (.ok v), w') := by rw [inWorld, h]
  rw [Library.answer, bind_of_ok hasked]
  rfl

/-- What is submitted is a task of the script's. -/
theorem apply_run (hbalances : Scheduler.Balances [] w.scheduler) (name : String) (number : ℕ) (f : Ref) :
    ∃ task, ∀ context, Native.apply (.scheduler .run) [.object (.scheduler name number), .closure f] context w =
      (.ok (.values [task]), (Act.schedule name (.closure f) .sync .immediate).perform w) := by
  obtain ⟨record, hscheduled⟩ := Host.schedule_eq hbalances name (.closure f : Value) .sync .immediate
  refine ⟨.object (.task (w.runner.issued + 1) name), fun context => ?_⟩
  show (Library.answer (Host.schedule name (.closure f) .sync .immediate) >>= fun id =>
    result (.object (.task id.raw name)) : NativeM Outcome) context w = _
  rw [bind_of_ok (answer_of_ok hscheduled), Act.perform, hscheduled]
  rfl

end ScriptHost.Guest
