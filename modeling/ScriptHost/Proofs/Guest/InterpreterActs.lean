import ScriptHost.Guest.Sandbox
import ScriptHost.Proofs.Guest.MachineActs
import ScriptHost.Proofs.Host.Reach

/-!
# The interpreter keeps to the host's API

What the host asks of the guest interpreter is made of runs of guest code, of native functions, and of work on the
heap. So the interpreter keeps to the host's API (`interpreter_keepsToApi`), and whatever the theory of the host says
of a guest holds for it.
-/

namespace ScriptHost.Guest

variable {α β : Type}

/-! ## Calls from the host -/

theorem errorOf_actsOnly (retries : ℕ) (e : Value) : ActsOnly (errorOf retries e) := by
  induction retries generalizing e with
  | zero => exact .pure _
  | succ retries ih =>
    intro w
    unfold errorOf
    split
    · exact .refl w
    · exact .refl w
    · -- the text is what `tostring` writes; if that fails, its error takes the place of this one
      have hcall := callFunction_byActs (.native (.base .tostring)) [e] w
      rcases hrun : callFunction (.native (.base .tostring)) [e] w with ⟨r, w'⟩
      rw [hrun] at hcall
      cases r with
      | finished vs =>
        dsimp only
        split <;> exact hcall
      | failed e' => exact hcall.trans (ih e' w')
      | exhausted => exact hcall

theorem callGuestFunction_actsOnly (f : Value) (args : List Value) : ActsOnly (callGuestFunction f args) := by
  intro w
  have hcall := callFunction_byActs f args w
  unfold callGuestFunction
  rcases hrun : callFunction f args w with ⟨r, w'⟩
  rw [hrun] at hcall
  cases r with
  | finished vs => exact hcall
  | failed e => exact hcall.trans (errorOf_actsOnly maxRetries e w')
  | exhausted => exact hcall

theorem runNative_actsOnly {x : NativeM α} (hx : Acting x) : ActsOnly (runNative x) := by
  intro w
  have hrun := hx ⟨fun f args w => callFunction f args w, [], none⟩ w callFunction_byActs
  unfold runNative
  dsimp only
  rcases heq : x ⟨fun f args w => callFunction f args w, [], none⟩ w with ⟨o, w'⟩
  rw [heq] at hrun
  cases o with
  | ok a => exact hrun
  | error o =>
    cases o with
    | raise e => exact hrun.trans (errorOf_actsOnly maxRetries e w')
    | _ => exact hrun

/-! ## Variables -/

theorem resolveName_actsOnly (globals : Value) (name : String) : ActsOnly (resolveName globals name) := by
  refine .bind .read fun w => ?_
  extract_lets own
  split
  · exact .pure _
  · split <;> exact .pure _

theorem readPart_actsOnly (t : Value) (part : String) : ActsOnly (readPart t part) := by
  refine .bind (runNative_actsOnly (.getField t _)) fun r => ?_
  cases r with
  | error e => exact .pure _
  | ok v =>
    dsimp only
    split
    · exact runNative_actsOnly (.getField t _)
    · exact .pure _

theorem followParts_actsOnly (v : Value) (parts : List String) : ActsOnly (followParts v parts) := by
  induction parts generalizing v with
  | nil => exact .pure _
  | cons part rest ih =>
    unfold followParts
    split
    · refine .bind (readPart_actsOnly _ part) fun r => ?_
      split
      · exact .pure _
      · exact .pure _
      · exact ih _
    · exact .pure _

theorem readPath_actsOnly (globals : Value) (path : String) : ActsOnly (readPath globals path) := by
  unfold readPath
  split
  · exact .pure _
  · split
    · exact .pure _
    · refine .bind (resolveName_actsOnly globals _) fun v => ?_
      split
      · exact .pure _
      · exact followParts_actsOnly _ _

/-! ## Values as JSON -/

theorem iterate_actsOnly (next state : Value) (found : List (Value × Value)) (left : ℕ) (k : Value) :
    ActsOnly (iterate next state found left k) := by
  induction left generalizing found k with
  | zero => exact .pure _
  | succ left ih =>
    refine .bind (callGuestFunction_actsOnly next _) fun r => ?_
    cases r with
    | error e => exact .pure _
    | ok vs =>
      dsimp only
      split
      · exact .pure _
      · exact ih _ _

theorem visibleEntries_actsOnly (t : Value) : ActsOnly (visibleEntries t) := by
  refine .bind (callGuestFunction_actsOnly _ _) fun r => ?_
  cases r with
  | error e => exact .pure _
  | ok vs =>
    dsimp only
    split
    · exact .pure _
    · refine .bind (iterate_actsOnly _ _ _ _ _) fun entries => ?_
      cases entries with
      | error e => exact .pure _
      | ok entries =>
        refine .bind (runNative_actsOnly (.lengthOf t)) fun n => ?_
        cases n <;> exact .pure _

/-- Steps of a conversion, which counts the tables. -/
theorem run_bind_actsOnly {x : RenderM α} {f : α → RenderM β} (hx : ∀ n, ActsOnly (x.run n))
    (hf : ∀ a n, ActsOnly ((f a).run n)) (n : ℕ) : ActsOnly ((x >>= f).run n) := by
  rw [StateT.run_bind]
  exact .bind (hx n) fun r => hf r.1 r.2

theorem run_lift_actsOnly {x : WorldM α} (hx : ActsOnly x) (n : ℕ) : ActsOnly ((liftM x : RenderM α).run n) :=
  fun w => hx w

theorem convertEntries_actsOnly {convert : Value → RenderM Json} (hconvert : ∀ v n, ActsOnly ((convert v).run n))
    (entries : List (Value × Value)) (n : ℕ) : ActsOnly ((convertEntries convert entries).run n) := by
  induction entries generalizing n with
  | nil => exact .pure _
  | cons entry rest ih =>
    refine run_bind_actsOnly (hconvert entry.2) (fun j => run_bind_actsOnly ih fun rest n => ?_) n
    exact .pure _

theorem convert_actsOnly (left : ℕ) (path : List Ref) (v : Value) (n : ℕ) :
    ActsOnly ((convert left path v).run n) := by
  induction left generalizing path v n with
  | zero =>
    unfold convert
    split
    · split <;> exact .pure _
    · exact .pure _
  | succ left ih =>
    unfold convert
    split
    · next r =>
      split
      · exact .pure _
      · refine run_bind_actsOnly (fun n => .pure _) (fun count n => ?_) n
        split
        · exact .pure _
        · refine run_bind_actsOnly (run_lift_actsOnly (visibleEntries_actsOnly _)) (fun found n => ?_) n
          cases found with
          | error e => exact .pure _
          | ok found =>
            refine run_bind_actsOnly (fun n => .pure _) (fun _ n => ?_) n
            refine run_bind_actsOnly (convertEntries_actsOnly (ih (r :: _)) _) (fun converted n => ?_) n
            split <;> exact .pure _
    · exact .pure _

theorem toJson_actsOnly (v : Value) : ActsOnly (toJson v) :=
  .bind (convert_actsOnly maxNesting [] v 0) fun _ => .pure _

/-! ## Globals -/

theorem makeObject_actsOnly (f : Heap → α × Heap) : ActsOnly (makeObject f) := fun w => .think w _

theorem setName_actsOnly (r : Ref) (name : String) (v : Value) : ActsOnly (setName r name v) := fun w => .think w _

theorem createImport_actsOnly (globals : Value) (folder : Option String) (number : ℕ) :
    ActsOnly (createImport globals folder number) := by
  refine .bind (makeObject_actsOnly _) fun maker => .bind (callGuestFunction_actsOnly _ _) fun r => ?_
  cases r <;> exact .pure _

theorem newGlobals_actsOnly (name : String) (folder : Option String) (number : ℕ) :
    ActsOnly (newGlobals name folder number) := by
  refine .bind (makeObject_actsOnly _) fun metatable => .bind (makeObject_actsOnly _) fun r => ?_
  refine .bind (setName_actsOnly r _ _) fun _ => .bind (setName_actsOnly r _ _) fun _ => ?_
  refine .bind (setName_actsOnly r _ _) fun _ => .bind (setName_actsOnly r _ _) fun _ => ?_
  refine .bind (setName_actsOnly r _ _) fun _ => .bind (createImport_actsOnly _ folder number) fun f => ?_
  exact .bind (setName_actsOnly r _ f) fun _ => .pure _

theorem compileSource_actsOnly (title : String) (globals : Value) (source : String) :
    ActsOnly (compileSource title globals source) := by
  unfold compileSource
  split
  · exact .pure _
  · exact .bind (makeObject_actsOnly _) fun _ => .pure _

/-! ## The interpreter -/

/-- **The interpreter keeps to the host's API.** Whatever code guests run, and whatever the host asks of them, the
host changes by acts alone. -/
theorem interpreter_keepsToApi : interpreter.KeepsToApi where
  createGlobals := newGlobals_actsOnly
  compile name globals source := compileSource_actsOnly ("=" ++ name) globals source
  call := callGuestFunction_actsOnly
  readVariable globals path := by
    refine ActsOnly.bind (readPath_actsOnly globals path) fun found => ?_
    cases found with
    | none => exact .pure _
    | some v => exact .bind (toJson_actsOnly v) fun _ => .pure _

/-- **Guest code leaves the books alone.** Whatever code runs, from whatever state of the machine: the host's invariant
holds afterwards if it held before, and the host has the scripts, commands, phases, settings and files that it had. -/
theorem runSteps_orderly {flying : Option (ℕ × Submission Value)} {w : World} (h₀ : Host.Orderly flying w) (fuel : ℕ)
    (s : State) : Host.Orderly flying (runSteps fuel s w).2 ∧ Host.KeepsBooks w (runSteps fuel s w).2 := by
  obtain ⟨acts, heq⟩ := runSteps_byActs fuel s w
  rw [heq]
  exact Act.performAll_orderly acts h₀

/-- The states that a host with the interpreter comes to are in order between operations. -/
theorem orderly_of_reachable {w : World} (hreach : Host.Reachable interpreter w) : Host.Orderly none w :=
  hreach.orderly interpreter_keepsToApi

end ScriptHost.Guest
