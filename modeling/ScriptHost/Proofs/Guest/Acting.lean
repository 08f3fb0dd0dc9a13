import ScriptHost.Proofs.Guest.Moves
import ScriptHost.Proofs.Host.ByActs

/-!
# Native functions that act

A native function may change the heap, call guest functions, and use what the host offers. `Acting` says that
whatever it does to its world it does by acts, if those whom it calls do so too. The property goes through the
whole of a function step by step, so that each function's lemma follows from the lemmas of those that it uses;
`grind` puts them together.
-/

namespace ScriptHost.Guest

/-- Calls of guest functions change the world by acts. -/
def CallContext.Acting (context : CallContext) : Prop :=
  ∀ f args w, ByActs w (context.call f args w).2

/-- The function changes the world by acts, if those whom it calls do so. -/
def Acting {α : Type} (x : NativeM α) : Prop :=
  ∀ context w, context.Acting → ByActs w (x context w).2

namespace Acting

variable {α β : Type}

/-! ## Steps -/

@[grind ←] theorem pure (a : α) : Acting (Pure.pure a : NativeM α) := fun _ w _ => .refl w

@[grind ←] theorem bind {x : NativeM α} {f : α → NativeM β} (hx : Acting x) (hf : ∀ a, Acting (f a)) :
    Acting (x >>= f) := by
  intro context w hcontext
  have hfirst := hx context w hcontext
  rw [Looks.bind_eq]
  rcases hrun : x context w with ⟨o, w'⟩
  rw [hrun] at hfirst
  cases o with
  | ok a => exact hfirst.trans (hf a context w' hcontext)
  | error o => exact hfirst

@[grind ←] theorem failWith (o : Outcome) : Acting (Guest.failWith o : NativeM α) := fun _ w _ => .refl w

@[grind ←] theorem read : Acting (MonadReader.read : NativeM CallContext) := fun _ w _ => .refl w

@[grind ←] theorem getHeap : Acting Guest.getHeap := fun _ w _ => .refl w

@[grind ←] theorem modifyHeap (f : Heap → Heap) : Acting (Guest.modifyHeap f) := fun _ w _ => .think w _

@[grind ←] theorem allocate (f : Heap → α × Heap) : Acting (Guest.allocate f) := fun _ w _ => .think w _

@[grind ←] theorem inWorld {x : WorldM α} (hx : ActsOnly x) : Acting (Guest.inWorld x) := fun _ w _ => hx w

@[grind ←] theorem callGuest (f : Value) (args : List Value) : Acting (Guest.callGuest f args) := by
  intro context w hcontext
  have hcall := hcontext f args w
  unfold Guest.callGuest
  rcases hrun : context.call f args w with ⟨r, w'⟩
  rw [hrun] at hcall
  cases r <;> exact hcall

@[grind ←] theorem fault (message : String) : Acting (Guest.fault message : NativeM α) := .failWith _

@[grind ←] theorem bareFault (message : String) : Acting (Guest.bareFault message : NativeM α) := .failWith _

@[grind ←] theorem badArgument (i : ℕ) (message : String) :
    Acting (Guest.badArgument i message : NativeM α) := .failWith _

@[grind ←] theorem results (vs : List Value) : Acting (Guest.results vs) := .pure _

@[grind ←] theorem result (v : Value) : Acting (Guest.result v) := .pure _

/-! ## Arguments -/

@[grind ←] theorem wrongType (args : Args) (i : ℕ) (expected : String) :
    Acting (Guest.wrongType args i expected : NativeM α) := by
  unfold Guest.wrongType argumentTitle
  grind

@[grind ←] theorem checkAny (args : Args) (i : ℕ) : Acting (Guest.checkAny args i) := by
  unfold Guest.checkAny
  grind

@[grind ←] theorem checkTable (args : Args) (i : ℕ) : Acting (Guest.checkTable args i) := by
  unfold Guest.checkTable
  grind

@[grind ←] theorem checkInt (args : Args) (i : ℕ) : Acting (Guest.checkInt args i) := by
  unfold Guest.checkInt
  grind

@[grind ←] theorem optInt (args : Args) (i : ℕ) (default : Int64) : Acting (Guest.optInt args i default) := by
  unfold Guest.optInt
  grind

@[grind ←] theorem checkNumber (args : Args) (i : ℕ) : Acting (Guest.checkNumber args i) := by
  unfold Guest.checkNumber
  grind

@[grind ←] theorem checkFloat (args : Args) (i : ℕ) : Acting (Guest.checkFloat args i) := by
  unfold Guest.checkFloat
  grind

@[grind ←] theorem checkBytes (args : Args) (i : ℕ) : Acting (Guest.checkBytes args i) := by
  unfold Guest.checkBytes
  grind

@[grind ←] theorem optBytes (args : Args) (i : ℕ) (default : ByteArray) :
    Acting (Guest.optBytes args i default) := by
  unfold Guest.optBytes
  grind

@[grind ←] theorem checkFunction (args : Args) (i : ℕ) : Acting (Guest.checkFunction args i) := by
  unfold Guest.checkFunction
  grind

/-! ## Metamethods -/

@[grind ←] theorem getField (v k : Value) : Acting (Guest.getField v k) := by
  refine .bind .getHeap fun h => ?_
  cases h.index v k with
  | value found => exact .pure found
  | call f object => exact .bind (.callGuest f _) fun vs => .pure _
  | field o => exact fun _ w _ => .refl w
  | fault u => exact .bind .getHeap fun h => .bareFault _
  | endless => exact .bareFault _

@[grind ←] theorem setField (v k x : Value) : Acting (Guest.setField v k x) := by
  refine .bind .getHeap fun h => ?_
  cases h.assign v k with
  | set r key => exact .modifyHeap _
  | call f object => exact .bind (.callGuest f _) fun _ => .pure ()
  | fault u => exact .bind .getHeap fun h => .bareFault _
  | badKey name => exact .bareFault _
  | endless => exact .bareFault _

@[grind ←] theorem lengthOf (v : Value) : Acting (Guest.lengthOf v) := by
  unfold Guest.lengthOf
  grind

end Acting

end ScriptHost.Guest
