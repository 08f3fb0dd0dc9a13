import ScriptHost.Guest.Sandbox
import ScriptHost.Lifecycle
import ScriptHost.Proofs.Guest.Heap

/-!
# New sandboxes

The globals of a new script are a new table over a new metatable. What is there already is left alone, also by the
guest code that makes the script's import function: it only makes new objects.

* `Enlarged`: a world in which nothing that was there has changed, but there may be more in the heap.
* `Instr.isQuiet`, `runSteps_quiet`: code that makes new objects and does nothing else.
* `Heap.IsSandbox`: a table that is the globals of a script.
* `newGlobals_spec`: the main result.
-/

namespace ScriptHost.Guest

/-! ## Larger worlds -/

/-- A heap after another one, with all that was there and perhaps more. -/
structure Heap.Grows (h h' : Heap) : Prop where
  size : h.tables.size ≤ h'.tables.size
  tables : ∀ r < h.tables.size, h'.table r = h.table r
  cells : ∀ (r : ℕ) v, h.cells[r]? = some v → h'.cells[r]? = some v
  closures : ∀ (r : ℕ) c, h.closures[r]? = some c → h'.closures[r]? = some c
  shared : h'.shared = h.shared

/-- A world after another one: the heap has grown, and nothing else has happened. -/
structure Enlarged (w w' : World) : Prop extends w.guest.Grows w'.guest where
  rest : w' = { w with guest := w'.guest }

variable {w w' w'' : World} {a : Activation} {s : CallStack} {i : Instr} {r : ℕ}

namespace Heap.Grows

variable {h h' h'' : Heap}

theorem refl (h : Heap) : h.Grows h :=
  ⟨Nat.le_refl _, fun _ _ => rfl, fun _ _ hv => hv, fun _ _ hc => hc, rfl⟩

theorem trans (hg : h.Grows h') (hg' : h'.Grows h'') : h.Grows h'' where
  size := Nat.le_trans hg.size hg'.size
  tables r hr := (hg'.tables r (Nat.lt_of_lt_of_le hr hg.size)).trans (hg.tables r hr)
  cells r v hv := hg'.cells r v (hg.cells r v hv)
  closures r c hc := hg'.closures r c (hg.closures r c hc)
  shared := hg'.shared.trans hg.shared

theorem allocTable (h : Heap) (t : Table) : h.Grows (h.allocTable t).2 :=
  { refl h with
    size := by simp
    tables := fun _ hr => Heap.table_allocTable.trans (if_neg (Nat.ne_of_lt hr)) }

/-- What an array holds it still holds when there is one more. -/
theorem getElem?_push_of_some {α : Type} {xs : Array α} {x y : α} {i : ℕ} (hx : xs[i]? = some x) :
    (xs.push y)[i]? = some x := by
  obtain ⟨hlt, rfl⟩ := Array.getElem?_eq_some_iff.mp hx
  rw [Array.getElem?_push_lt hlt]

theorem allocCell (h : Heap) (v : Value) : h.Grows (h.allocCell v).2 :=
  { refl h with cells := fun _ _ hv => getElem?_push_of_some hv }

theorem allocClosure (h : Heap) (c : Closure) : h.Grows (h.allocClosure c).2 :=
  { refl h with closures := fun _ _ hc => getElem?_push_of_some hc }

theorem closeChunk (h : Heap) (code : Code) (globals : Value) : h.Grows (h.closeChunk code globals).2 :=
  (allocCell h globals).trans (allocClosure _ _)

/-- What a table holds. -/
theorem rawGet (hg : h.Grows h') (hr : r < h.tables.size) (k : Value) : h'.rawGet r k = h.rawGet r k := by
  unfold Heap.rawGet
  rw [hg.tables r hr]

/-- A table that was not there may change. -/
theorem rawSetText (hg : h.Grows h') (hr : h.tables.size ≤ r) (name : String) (v : Value) :
    h.Grows (h'.rawSetText r name v) :=
  { hg with
    size := by
      rw [Heap.rawSetText, Heap.size_modifyTable]
      exact hg.size
    tables := fun q hq => by
      rw [Heap.rawSetText, Heap.table_modifyTable_of_ne _ (Nat.ne_of_lt (Nat.lt_of_lt_of_le hq hr))]
      exact hg.tables q hq }

end Heap.Grows

namespace Enlarged

theorem refl : Enlarged w w := ⟨.refl _, rfl⟩

theorem trans (h : Enlarged w w') (h' : Enlarged w' w'') : Enlarged w w'' where
  toGrows := h.toGrows.trans h'.toGrows
  rest := by rw [h'.rest, h.rest]

/-- The heap grows. -/
theorem of_grows {guest : Heap} (h : w.guest.Grows guest) : Enlarged w { w with guest } := ⟨h, rfl⟩

end Enlarged

/-! ## Quiet code -/

/-- An instruction that moves values or makes a new object: it writes to no table, calls nothing and does not
fail. -/
def Instr.isQuiet : Instr → Bool
  | .push _ | .getLocal _ | .setLocal _ | .getBox _ | .getUpvalue _ => true
  | .box _ | .newTable _ | .closure _ | .vararg _ | .ret _ _ => true
  | _ => false

/-- A function all of whose instructions are quiet. -/
def Code.IsQuiet (c : Code) : Prop := c.instrs.all Instr.isQuiet = true

theorem Code.IsQuiet.isQuiet {c : Code} {pc : ℕ} (h : c.IsQuiet) (hi : c.instrs[pc]? = some i) :
    i.isQuiet = true := by
  obtain ⟨hlt, rfl⟩ := Array.getElem?_eq_some_iff.mp hi
  exact Array.all_eq_true.mp h pc hlt

/-- A quiet instruction goes on in the same function, or gives its results. -/
theorem execute_quiet (hi : i.isQuiet = true) (a : Activation) (s : CallStack) (w : World) :
    Enlarged w (execute a s i w).2 ∧
      ((∃ a', (execute a s i w).1 = ⟨.run a', s⟩ ∧ a'.code = a.code) ∨
        ∃ vs, (execute a s i w).1 = ⟨.give vs, s⟩) := by
  unfold execute
  extract_lets next stop
  cases i <;> try cases hi
  case newTable hint => exact ⟨.of_grows (.allocTable _ { hint }), .inl ⟨_, rfl, rfl⟩⟩
  case closure child => exact ⟨.of_grows (.allocClosure _ _), .inl ⟨_, rfl, rfl⟩⟩
  case ret count isOpen => exact ⟨.refl, .inr ⟨_, rfl⟩⟩
  -- an instruction that pops a value does nothing on an empty stack
  case setLocal id => cases a.stack <;> exact ⟨.refl, .inl ⟨_, rfl, rfl⟩⟩
  case box id =>
    cases a.stack with
    | nil => exact ⟨.refl, .inl ⟨_, rfl, rfl⟩⟩
    | cons v _ => exact ⟨.of_grows (.allocCell _ v), .inl ⟨_, rfl, rfl⟩⟩
  case vararg want => cases want <;> exact ⟨.refl, .inl ⟨_, rfl, rfl⟩⟩
  all_goals exact ⟨.refl, .inl ⟨_, rfl, rfl⟩⟩

/-- A run that has its results. -/
theorem runSteps_give (fuel : ℕ) (vs : List Value) :
    (runSteps fuel ⟨.give vs, {}⟩ w).2 = w ∧
      ∀ e, (runSteps fuel ⟨.give vs, {}⟩ w).1 ≠ .failed e := by
  cases fuel <;> exact ⟨rfl, fun e he => nomatch he⟩

/-- **Quiet code** changes nothing that is there, and does not fail. -/
theorem runSteps_quiet (fuel : ℕ) (hcode : a.code.IsQuiet) :
    Enlarged w (runSteps fuel ⟨.run a, {}⟩ w).2 ∧
      ∀ e, (runSteps fuel ⟨.run a, {}⟩ w).1 ≠ .failed e := by
  induction fuel generalizing a w with
  | zero => exact ⟨.refl, fun e he => nomatch he⟩
  | succ fuel ih =>
    rw [runSteps]
    cases hi : a.code.instrs[a.pc]? with
    | none =>
      simp only [step, hi]
      obtain ⟨hw, hnot⟩ := runSteps_give (w := w) fuel []
      exact ⟨hw.symm ▸ .refl, hnot⟩
    | some i =>
      obtain ⟨hmore, hnext⟩ := execute_quiet (hcode.isQuiet hi) { a with pc := a.pc + 1 } {} w
      simp only [step, hi]
      rcases hnext with ⟨a', hrun, hcode'⟩ | ⟨vs, hgive⟩
      · rw [hrun]
        obtain ⟨hrest, hnot⟩ := ih (a := a') (hcode'.symm ▸ hcode)
        exact ⟨hmore.trans hrest, hnot⟩
      · rw [hgive]
        obtain ⟨hw, hnot⟩ := runSteps_give (w := (execute { a with pc := a.pc + 1 } {} i w).2) fuel vs
        exact ⟨hw.symm ▸ hmore, hnot⟩

/-- A call of a quiet function from outside. -/
theorem callGuestFunction_quiet {c : Closure} {args : List Value}
    (hclosure : w.guest.closures[r]? = some c) (hcode : c.code.IsQuiet) :
    Enlarged w (callGuestFunction (.closure r) args w).2 := by
  obtain ⟨fuel, hfuel⟩ : ∃ fuel, stepLimit = fuel + 1 := ⟨999999999999999, rfl⟩
  have hcall : callFunction (.closure r) args w =
      runSteps fuel ⟨.run (c.activate args 1), {}⟩ w := by
    rw [callFunction, hfuel, runSteps]
    simp only [step, callValue, depthOf, hclosure]
    rfl
  obtain ⟨hmore, hnot⟩ := runSteps_quiet (w := w) (a := c.activate args 1) fuel hcode
  rw [← hcall] at hmore hnot
  unfold callGuestFunction
  rcases hrun : callFunction (.closure r) args w with ⟨result, w'⟩
  rw [hrun] at hmore hnot
  cases result with
  | failed e => exact absurd rfl (hnot e)
  | _ => exact hmore

/-! ## The import function -/

theorem importCode_isQuiet : importCode.IsQuiet := by
  unfold Code.IsQuiet
  decide +kernel

theorem makeObject_bind {α β : Type} (make : Heap → α × Heap) (f : α → WorldM β) :
    (makeObject make >>= f) w =
      f (make w.guest).1 { w with guest := (make w.guest).2 } := rfl

/-- What only looks at a result changes nothing. -/
theorem snd_bind_of_looks {α β : Type} {act : WorldM α} {f : α → WorldM β}
    (hf : ∀ x w', (f x w').2 = w') : ((act >>= f) w).2 = (act w).2 :=
  hf (act w).1 (act w).2

/-- A chunk of quiet code is closed and called. -/
theorem callChunk_enlarged {code : Code} (hcode : code.IsQuiet) (globals : Value) (args : List Value) :
    Enlarged w (callGuestFunction (.closure (w.guest.closeChunk code globals).1) args
      { w with guest := (w.guest.closeChunk code globals).2 }).2 := by
  have hclosure : (w.guest.closeChunk code globals).2.closures[(w.guest.closeChunk code globals).1]? =
      some ⟨code, #[w.guest.cells.size]⟩ := Array.getElem?_push_size
  have hstart : Enlarged w { w with guest := (w.guest.closeChunk code globals).2 } :=
    .of_grows (.closeChunk _ _ _)
  exact hstart.trans (callGuestFunction_quiet hclosure hcode)

/-- Making an import function changes nothing that is there. -/
theorem createImport_enlarged (globals : Value) (folder : Option String) (number : ℕ) :
    Enlarged w (createImport globals folder number w).2 := by
  rw [createImport, makeObject_bind, snd_bind_of_looks fun result w' => by cases result <;> rfl]
  exact callChunk_enlarged importCode_isQuiet _ _

/-! ## Sandboxes -/

/-- A table that is the globals of a script: what it lacks is looked up by the host. -/
structure Heap.IsSandbox (h : Heap) (r : Ref) : Prop where
  lt : r < h.tables.size
  indexed : (h.table r).Indexed
  resolver : ∃ m < h.tables.size, (h.table r).metatable = some m ∧ h.table m = namedTable resolverFields

namespace Heap.IsSandbox

variable {h h' : Heap}

theorem metamethod (hr : h.IsSandbox r) (event : String) :
    h.metamethod (.table r) event = (resolverFields.reverse.lookup event).getD .nil := by
  obtain ⟨m, -, hmeta, hm⟩ := hr.resolver
  simp only [Heap.metamethod, metatable?, hmeta, hm, Table.getText_namedTable]

/-- The metatable of a sandbox is none. -/
theorem ne_resolver {m : Ref} (hr : h.IsSandbox r) (hm : h.table m = namedTable resolverFields) :
    m ≠ r := by
  rintro rfl
  obtain ⟨m', -, hmeta, -⟩ := hr.resolver
  rw [hm, Table.metatable_namedTable] at hmeta
  cases hmeta

theorem congr (hr : h.IsSandbox r) (hsize : h.tables.size ≤ h'.tables.size)
    (hsame : ∀ q < h.tables.size, h'.table q = h.table q) : h'.IsSandbox r := by
  obtain ⟨m, hlt, hmeta, hm⟩ := hr.resolver
  refine ⟨Nat.lt_of_lt_of_le hr.lt hsize, ?_, m, Nat.lt_of_lt_of_le hlt hsize, ?_, ?_⟩
  · rw [hsame r hr.lt]
    exact hr.indexed
  · rw [hsame r hr.lt, hmeta]
  · rw [hsame m hlt, hm]

/-- Setting a global of a sandbox. -/
theorem rawSet {q : Ref} (hr : h.IsSandbox r) (hq : h.IsSandbox q) (k : Key) (v : Value) :
    (h.rawSet q k v).IsSandbox r := by
  obtain ⟨m, hlt, hmeta, hm⟩ := hr.resolver
  have hmq := hq.ne_resolver hm
  have hsize : (h.rawSet q k v).tables.size = h.tables.size := size_modifyTable _
  have htable : (h.rawSet q k v).table r = if q = r then (h.table r).set k v else h.table r :=
    table_modifyTable _ hq.lt
  refine ⟨hsize ▸ hr.lt, ?_, m, hsize ▸ hlt, ?_, ?_⟩
  · rw [htable]
    split
    · exact hr.indexed.set k v
    · exact hr.indexed
  · rw [htable]
    split
    · rw [Table.metatable_set, hmeta]
    · exact hmeta
  · rw [Heap.rawSet, table_modifyTable_of_ne _ hmq, hm]

end Heap.IsSandbox

/-- An assignment to a global sets one entry of the sandbox's own table. -/
theorem rawGet_rawSet {h : Heap} {q : Ref} (hr : h.IsSandbox r) (key : Key) (v k : Value) :
    (h.rawSet r key v).rawGet q k = if r = q ∧ k.toKey? = some key then v else h.rawGet q k := by
  have htable : (h.rawSet r key v).table q = if r = q then (h.table q).set key v else h.table q :=
    Heap.table_modifyTable _ hr.lt
  unfold Heap.rawGet
  cases hkey : k.toKey? with
  | none => simp
  | some key' =>
    simp only [htable]
    by_cases hq : r = q
    · subst hq
      rw [if_pos rfl, Table.get_set hr.indexed]
      simp [eq_comm]
    · simp [hq]

/-! ## New sandboxes -/

/-- What holds while the globals `r` of a new script are made in the world `w₀`: `named` lists the names that are set
so far, with their values. -/
structure NewSandbox (w₀ : World) (r : Ref) (named : List (String × Value)) (w : World) : Prop where
  new : w₀.guest.tables.size ≤ r
  enlarged : Enlarged w₀ w
  sandbox : w.guest.IsSandbox r
  value : ∀ entry ∈ named, w.guest.rawGet r (.ofText entry.1) = entry.2

namespace NewSandbox

variable {w₀ : World} {named : List (String × Value)}

theorem enlarge (h : NewSandbox w₀ r named w) (hmore : Enlarged w w') : NewSandbox w₀ r named w' where
  new := h.new
  enlarged := h.enlarged.trans hmore
  sandbox := h.sandbox.congr hmore.size hmore.tables
  value entry hentry := (hmore.rawGet h.sandbox.lt _).trans (h.value entry hentry)

theorem setName (h : NewSandbox w₀ r named w) {name : String} (hname : name ∉ named.map Prod.fst) (v : Value) :
    NewSandbox w₀ r ((name, v) :: named) (setName r name v w).2 where
  new := h.new
  enlarged :=
    ⟨h.enlarged.toGrows.rawSetText h.new name v, congrArg (fun w : World =>
      { w with guest := ((Guest.setName r name v) w).2.guest }) h.enlarged.rest⟩
  sandbox := h.sandbox.rawSet h.sandbox _ v
  value entry hentry := by
    refine (rawGet_rawSet h.sandbox (.str name.toUTF8) v _).trans ?_
    rcases List.mem_cons.mp hentry with rfl | hentry
    · exact if_pos ⟨rfl, rfl⟩
    · -- the name is new, so the others mean what they meant
      have hne : entry.1 ≠ name := fun heq => hname (heq ▸ List.mem_map_of_mem hentry)
      rw [if_neg fun hboth => hne (String.toByteArray_inj.mp (Key.str.inj (Option.some.inj hboth.2)))]
      exact h.value entry hentry

/-- A new table over a new metatable. -/
theorem create (w : World) {h₁ : Heap} (hh₁ : (w.guest.allocTable (namedTable resolverFields)).2 = h₁) :
    NewSandbox w h₁.tables.size []
      { w with guest := (h₁.allocTable { metatable := some w.guest.tables.size }).2 } := by
  have hsize : h₁.tables.size = w.guest.tables.size + 1 := by rw [← hh₁, Heap.size_allocTable]
  have hlt : w.guest.tables.size < h₁.tables.size := hsize ▸ Nat.lt_succ_self _
  have hsize' := Heap.size_allocTable (h := h₁) (t := { metatable := some w.guest.tables.size })
  have hmore : w.guest.Grows h₁ := hh₁ ▸ .allocTable _ _
  refine ⟨Nat.le_of_lt hlt, .of_grows (hmore.trans (.allocTable h₁ _)), ?_, by simp⟩
  refine ⟨hsize' ▸ Nat.lt_succ_self _, ?_, w.guest.tables.size, hsize' ▸ Nat.lt_succ_of_lt hlt, ?_, ?_⟩
  · rw [Heap.table_allocTable, if_pos rfl]
    exact Table.indexed_empty
  · rw [Heap.table_allocTable, if_pos rfl]
  · rw [Heap.table_allocTable, if_neg (Nat.ne_of_lt hlt), ← hh₁, Heap.table_allocTable, if_pos rfl]

end NewSandbox

/-- Globals for a new script in which names are set, and the world with them. -/
def Furnishes (w₀ : World) (named : List (String × Value)) (made : Value × World) : Prop :=
  ∃ r, made.1 = .table r ∧ NewSandbox w₀ r named made.2

theorem NewSandbox.setName_bind {w₀ : World} {named named' : List (String × Value)} {f : Unit → WorldM Value}
    (h : NewSandbox w₀ r named w) {name : String} (hname : name ∉ named.map Prod.fst) (v : Value)
    (hf : ∀ w', NewSandbox w₀ r ((name, v) :: named) w' → Furnishes w₀ named' (f () w')) :
    Furnishes w₀ named' ((Guest.setName r name v >>= f) w) :=
  hf _ (h.setName hname v)

theorem NewSandbox.bind {w₀ : World} {named named' : List (String × Value)} {act : WorldM Value}
    {f : Value → WorldM Value} (h : NewSandbox w₀ r named w) (hact : Enlarged w (act w).2)
    (hf : ∀ v w', NewSandbox w₀ r named w' → Furnishes w₀ named' (f v w')) :
    Furnishes w₀ named' ((act >>= f) w) :=
  hf _ _ (h.enlarge hact)

theorem NewSandbox.create_bind {named : List (String × Value)} {f : Ref → WorldM Value}
    (hf : ∀ r w', NewSandbox w r [] w' → Furnishes w named (f r w')) :
    Furnishes w named ((makeObject (fun h => h.allocTable (namedTable resolverFields)) >>= fun metatable =>
      makeObject (fun h => h.allocTable { metatable := some metatable }) >>= f) w) :=
  hf _ _ (.create w rfl)

/-- What a script finds under the names of its control object, its logger and its scheduler. -/
def ownObjects (name : String) (number : ℕ) : List (String × Value) :=
  [("scheduler", .object (.scheduler name number)), ("logger", .object (.logger name number)),
    ("script", .object (.control number))]

theorem Furnishes.mono {w₀ : World} {named named' : List (String × Value)} {made : Value × World}
    (h : Furnishes w₀ named made) (hsub : named' ⊆ named) : Furnishes w₀ named' made := by
  obtain ⟨r, hr, hnew⟩ := h
  exact ⟨r, hr, hnew.new, hnew.enlarged, hnew.sandbox, fun entry hentry => hnew.value entry (hsub hentry)⟩

/-- **The globals of a new script** are a new sandbox with the script's own objects, and nothing that was there
changes. -/
theorem newGlobals_spec (name : String) (folder : Option String) (number : ℕ) :
    Furnishes w (ownObjects name number) (newGlobals name folder number w) := by
  rw [newGlobals]
  refine NewSandbox.create_bind fun r _ hr => ?_
  refine hr.setName_bind (by simp) _ fun _ hr => ?_
  refine hr.setName_bind (by simp) _ fun _ hr => ?_
  refine hr.setName_bind (by simp) _ fun _ hr => ?_
  refine hr.setName_bind (by simp) _ fun _ hr => ?_
  refine hr.setName_bind (by simp) _ fun _ hr => ?_
  refine hr.bind (createImport_enlarged (.table r) folder number) fun v _ hr => ?_
  refine hr.setName_bind (by simp) v fun _ hr => ?_
  exact Furnishes.mono ⟨r, rfl, hr⟩ (by simp [ownObjects])

/-- New surroundings are made around the globals that the guest makes. -/
theorem createEnvironment_eq (g : ScriptHost.Guest Heap Value) (name : String) (origin : Origin) :
    ∃ made record, made = g.createGlobals name origin.folder? w.controls.size
        { w with controls := w.controls.push { name, folder := origin.folder? } } ∧
      Host.createEnvironment g name origin w =
        (⟨name, origin, made.2.now, made.1, w.controls.size⟩,
          { made.2 with records := made.2.records.push record }) :=
  ⟨_, _, rfl, rfl⟩

/-- The surroundings of a new script hold such globals. -/
theorem createEnvironment_spec (name : String) (origin : Origin) :
    ∃ env r guest records, Host.createEnvironment interpreter name origin w =
        (env, { w with
          controls := w.controls.push { name, folder := origin.folder? }, guest := guest, records := records }) ∧
      env.origin = origin ∧ env.control = w.controls.size ∧ env.globals = .table r ∧
      w.guest.tables.size ≤ r ∧ w.guest.Grows guest ∧ guest.IsSandbox r ∧
      ∀ entry ∈ ownObjects name w.controls.size, guest.rawGet r (.ofText entry.1) = entry.2 := by
  obtain ⟨made, record, hmade, heq⟩ := createEnvironment_eq (w := w) interpreter name origin
  have hmakes : Furnishes { w with controls := w.controls.push { name, folder := origin.folder? } }
      (ownObjects name w.controls.size) made := hmade ▸ newGlobals_spec name origin.folder? w.controls.size
  obtain ⟨r, hr, hnew⟩ := hmakes
  refine ⟨_, r, made.2.guest, made.2.records.push record, heq.trans (Prod.ext rfl ?_), rfl, rfl, hr, hnew.new,
    hnew.enlarged.toGrows, hnew.sandbox, hnew.value⟩
  exact congrArg (fun w' : World => { w' with records := made.2.records.push record }) hnew.enlarged.rest

end ScriptHost.Guest
