import ScriptHost.Guest.Inspect
import ScriptHost.Proofs.Guest.Moves
import ScriptHost.Proofs.Guest.Sandboxes
import ScriptHost.Proofs.Host.Steps

/-!
# What names mean in sandboxes

A name that guest code reads is one of the sandbox's own globals, a shared object or a name of the shared
environment, in this order; nil is no value, and false is one. The host looks names up by the same rule, in code of
its own, and the two agree in every world that sharing, new sandboxes and assignments to globals can lead to.

* `meaning`: the rule.
* `Reads`, `Assigns`: guest code that reads or assigns a global.
* `Populated`: the worlds that can be reached from a new host, with their sandboxes.
* `Populated.names_agree`: the main result.
-/

namespace ScriptHost

namespace Guest

/-! ## The rule -/

/-- The first of several values that is not nil. -/
def firstOf : List Value → Value
  | [] => .nil
  | v :: vs => if v.isNil then firstOf vs else v

/-- The shared object under a key, if there is one. -/
def sharedObject? (w : World) (k : Value) : Option Value :=
  match k with
  | .str b =>
    match Text.decode? b with
    | .ok name => w.objects.get? name
    | .error _ => none
  | _ => none

/-- The shared object under a key; nil if there is none. -/
def sharedObject (w : World) (k : Value) : Value := (sharedObject? w k).getD .nil

/-- The value of a key in the shared environment. -/
def environmentValue (w : World) (k : Value) : Value :=
  match w.guest.index (.table w.guest.shared) k with
  | .value v => v
  | _ => .nil

/-- What a key means below a sandbox's own globals. -/
def meaningBelow (w : World) (k : Value) : Value := firstOf [sharedObject w k, environmentValue w k]

/-- What a key means in a sandbox. -/
def meaning (w : World) (r : Ref) (k : Value) : Value :=
  firstOf [w.guest.rawGet r k, sharedObject w k, environmentValue w k]

variable {w w' start : World} {r : Ref} {k v : Value} {b : ByteArray} {a : Activation} {s : CallStack}
  {sandboxes : List Ref}

theorem firstOf_cons (v : Value) (vs : List Value) :
    firstOf (v :: vs) = if v.isNil then firstOf vs else v := rfl

theorem lookupShared_of_sharedObject (w : World) (k : Value) :
    lookupShared w k =
      if (sharedObject w k).isNil then w.guest.index (.table w.guest.shared) k
      else .value (sharedObject w k) := by
  have hobject : sharedObject w k =
      match k with
      | .str b =>
        match Text.decode? b with
        | .ok name => (w.objects.get? name).getD .nil
        | .error _ => .nil
      | _ => .nil := by
    unfold sharedObject sharedObject?
    cases k with
    | str b => cases hname : Text.decode? b <;> simp only [hname, Option.getD_none]
    | _ => rfl
  rw [hobject]
  rfl

/-- What the host's function gives to guest code. -/
theorem resolved_eq (w : World) (k : Value) : resolved w k = meaningBelow w k := by
  rw [resolved, lookupShared_of_sharedObject, meaningBelow, firstOf_cons, firstOf_cons]
  cases (sharedObject w k).isNil with
  | false => rfl
  | true =>
    cases hvalue : (environmentValue w k).isNil with
    | true => exact Value.isNil_iff.mp hvalue
    | false => rfl

theorem meaning_eq (w : World) (r : Ref) (k : Value) :
    meaning w r k = if (w.guest.rawGet r k).isNil then meaningBelow w k else w.guest.rawGet r k := rfl

/-- **The host** looks names up by the rule. -/
theorem resolveName_eq (r : Ref) (name : String) (w : World) :
    resolveName (.table r) name w = (meaning w r (.ofText name), w) := by
  have hread : resolveName (.table r) name w =
      (if !((w.guest.table r).getText name).isNil then pure ((w.guest.table r).getText name)
        else match lookupShared w (.ofText name) with
          | .value v => pure v
          | _ => pure .nil : WorldM Value) w := rfl
  have hown : (w.guest.table r).getText name = w.guest.rawGet r (.ofText name) := rfl
  rw [hread, meaning_eq, hown]
  cases (w.guest.rawGet r (.ofText name)).isNil with
  | false => rfl
  | true =>
    rw [if_pos rfl, ← resolved_eq, resolved]
    cases lookupShared w (.ofText name) <;> rfl

/-! ## Guest code at its globals -/

/-- Guest code that reads a key in a table, with room for one more native function, gets a value and goes on. -/
def Reads (w : World) (r : Ref) (k v : Value) : Prop :=
  ∀ (a : Activation) (s : CallStack) (what : Option Described) (stack : List Value),
    a.code.instrs[a.pc]? = some (.index what) → a.stack = k :: .table r :: stack →
    s.level + 1 + w.guest.nesting < maxLevel →
    ∃ n want, ∀ fuel, runSteps (fuel + n) ⟨.run a, s⟩ w =
      runSteps fuel ⟨.run { a with pc := a.pc + 1, stack := v :: stack, want }, s⟩ w

/-- An activation that is about to assign a value to a name in a table; `rest` is the stack without the value. -/
structure Assigns (a : Activation) (depth : ℕ) (r : Ref) (b : ByteArray) (v : Value)
    (rest : List Value) : Prop where
  stack : a.stack = v :: rest
  key : rest.getD depth .nil = .str b
  object : rest.getD (depth + 1) .nil = .table r

/-- A sandbox's own global is read directly. -/
theorem index_own (hown : (w.guest.rawGet r k).isNil = false) :
    w.guest.index (.table r) k = .value (w.guest.rawGet r k) := by
  show w.guest.indexLoop k (1999 + 1) (.table r) = _
  rw [Heap.indexLoop_table, hown]
  rfl

/-- For a name that a sandbox lacks the host's function is called. -/
theorem index_missing (hr : w.guest.IsSandbox r) (hown : (w.guest.rawGet r k).isNil = true) :
    w.guest.index (.table r) k = .call (.native .resolve) (.table r) := by
  show w.guest.indexLoop k (1999 + 1) (.table r) = _
  rw [Heap.indexLoop_table, hown, hr.metamethod "__index"]
  rfl

theorem runSteps_next {state state' : State} (fuel : ℕ)
    (h : ∀ nested, step nested state w = (.next state', w')) :
    runSteps (fuel + 1) state w = runSteps fuel state' w' := by
  rw [runSteps, h]

/-- The call of the host's function takes four steps: the instruction, the call, and the way of its result through
the two frames of the instruction. -/
theorem runSteps_resolve {what : Option Described} {stack : List Value} (fuel : ℕ)
    (hinstr : a.code.instrs[a.pc]? = some (.index what)) (hstack : a.stack = k :: .table r :: stack)
    (hroom : s.level + 1 + w.guest.nesting < maxLevel)
    (hindex : w.guest.index (.table r) k = .call (.native .resolve) (.table r)) :
    runSteps (fuel + 4) ⟨.run a, s⟩ w =
      runSteps fuel ⟨.run { a with pc := a.pc + 1, stack := resolved w k :: stack, want := some 1 }, s⟩
        w := by
  let reader : Activation := { a with pc := a.pc + 1, stack, want := some 1 }
  let waiting : CallStack := ⟨.adapt .event :: .guest reader :: s.frames, s.level + 1⟩
  have hdeep : decide (maxLevel ≤ s.level + 1 + w.guest.nesting) = false :=
    decide_eq_false (Nat.not_le.mpr hroom)
  have hexecute : ∀ nested, step nested ⟨.run a, s⟩ w =
      (.next ⟨.call (.native .resolve) [.table r, k] (eventWhat "__index"), waiting⟩, w) := fun _ => by
    simp only [step, hinstr, execute, hstack, hindex]
    rfl
  have hcall : ∀ nested, step nested ⟨.call (.native .resolve) [.table r, k] (eventWhat "__index"),
      waiting⟩ w = (.next ⟨.give [resolved w k], waiting⟩, w) := fun _ => by
    simp only [step, callValue, waiting, Frame.isNative, hdeep, apply_resolve, settle]
    rfl
  rw [runSteps_next (fuel + 3) hexecute, runSteps_next (fuel + 2) hcall,
    runSteps_next (fuel + 1) fun _ => rfl, runSteps_next fuel fun _ => rfl]
  rfl

/-- **Guest code** looks names up by the rule. -/
theorem reads_meaning (hr : w.guest.IsSandbox r) (k : Value) :
    Reads w r k (meaning w r k) := by
  intro a s what stack hinstr hstack hroom
  rw [meaning_eq]
  cases hown : (w.guest.rawGet r k).isNil with
  | true =>
    refine ⟨4, some 1, fun fuel => ?_⟩
    rw [if_pos rfl, ← resolved_eq]
    exact runSteps_resolve fuel hinstr hstack hroom (index_missing hr hown)
  | false =>
    refine ⟨1, a.want, fun fuel => ?_⟩
    rw [if_neg Bool.false_ne_true, runSteps]
    simp only [step, hinstr, execute, hstack, index_own hown]

/-- **An assignment** to a global sets it in the sandbox's own table. -/
theorem execute_store {depth : ℕ} {rest : List Value} (hr : w.guest.IsSandbox r)
    (ha : Assigns a depth r b v rest) (what : Option Described) :
    execute a s (.store depth what) w =
      (⟨.run { a with stack := rest }, s⟩, { w with guest := w.guest.rawSet r (.str b) v }) := by
  have hassign : w.guest.assign (.table r) (.str b) = .set r (.str b) := by
    show w.guest.assignLoop (.str b) (1999 + 1) (.table r) = _
    rw [Heap.assignLoop_table, hr.metamethod "__newindex"]
    rfl
  simp only [execute, ha.stack, ha.key, ha.object, hassign]

/-! ## Worlds with sandboxes -/

/-- A world that can be reached from `start`, and the globals of its sandboxes: sandboxes are made, the host and
scripts share and unshare values, and guest code assigns globals. -/
inductive Populated (start : World) : World → List Ref → Prop where
  | start : Populated start start []
  | create {w : World} {r : Ref} {sandboxes : List Ref} (h : Populated start w sandboxes)
      (name : String) (origin : Origin)
      (hr : (Host.createEnvironment interpreter name origin w).1.globals = .table r) :
      Populated start (Host.createEnvironment interpreter name origin w).2 (r :: sandboxes)
  | share {w : World} {sandboxes : List Ref} (h : Populated start w sandboxes) (owner : Owner)
      (name : String) (v : Value) :
      Populated start (Host.share owner name (if v.isNil then none else some v) w).2 sandboxes
  | unshare {w : World} {sandboxes : List Ref} (h : Populated start w sandboxes) (owner : Owner)
      (name : String) : Populated start (Host.unshare owner name w).2 sandboxes
  | release {w : World} {sandboxes : List Ref} (h : Populated start w sandboxes) (script : String) :
      Populated start (Host.releaseObjects script w).2 sandboxes
  | assign {w : World} {r : Ref} {sandboxes : List Ref} {a : Activation} {depth : ℕ} {b : ByteArray}
      {v : Value} {rest : List Value} (h : Populated start w sandboxes) (hr : r ∈ sandboxes)
      (ha : Assigns a depth r b v rest) (s : CallStack) (what : Option Described) :
      Populated start (execute a s (.store depth what) w).2 sandboxes

/-- What holds of a populated world: the tables that were there at the start are as they were, and the sandboxes are
others. -/
structure Settled (start w : World) (sandboxes : List Ref) : Prop where
  size : start.guest.tables.size ≤ w.guest.tables.size
  tables : ∀ q < start.guest.tables.size, w.guest.table q = start.guest.table q
  shared : w.guest.shared = start.guest.shared
  sandbox : ∀ r ∈ sandboxes, w.guest.IsSandbox r
  new : ∀ r ∈ sandboxes, start.guest.tables.size ≤ r

namespace Settled

/-- Sharing changes no table. -/
theorem of_guest (h : Settled start w sandboxes) (hguest : w'.guest = w.guest) :
    Settled start w' sandboxes where
  size := hguest ▸ h.size
  tables := hguest ▸ h.tables
  shared := hguest ▸ h.shared
  sandbox := hguest ▸ h.sandbox
  new := h.new

theorem create (h : Settled start w sandboxes) (hr : w.guest.tables.size ≤ r) (hsandbox : w'.guest.IsSandbox r)
    (hgrows : w.guest.Grows w'.guest) : Settled start w' (r :: sandboxes) where
  size := Nat.le_trans h.size hgrows.size
  tables q hq := (hgrows.tables q (Nat.lt_of_lt_of_le hq h.size)).trans (h.tables q hq)
  shared := hgrows.shared.trans h.shared
  sandbox q hq := by
    rcases List.mem_cons.mp hq with rfl | hq
    · exact hsandbox
    · exact (h.sandbox q hq).congr hgrows.size hgrows.tables
  new q hq := by
    rcases List.mem_cons.mp hq with rfl | hq
    · exact Nat.le_trans h.size hr
    · exact h.new q hq

theorem assign (h : Settled start w sandboxes) (hr : r ∈ sandboxes) (key : Key) (v : Value) :
    Settled start { w with guest := w.guest.rawSet r key v } sandboxes where
  size := Nat.le_trans h.size (Nat.le_of_eq (Heap.size_modifyTable _).symm)
  tables q hq := by
    have hne : q ≠ r := Nat.ne_of_lt (Nat.lt_of_lt_of_le hq (h.new r hr))
    exact (Heap.table_modifyTable_of_ne _ hne).trans (h.tables q hq)
  shared := h.shared
  sandbox q hq := (h.sandbox q hq).rawSet (h.sandbox r hr) key v
  new := h.new

end Settled

/-- The invariant holds of every populated world. -/
theorem Populated.settled (h : Populated start w sandboxes) : Settled start w sandboxes := by
  induction h with
  | start => exact ⟨Nat.le_refl _, fun _ _ => rfl, rfl, by simp, by simp⟩
  | create _ name origin hr ih =>
    obtain ⟨env, r, guest, records, heq, -, -, hglobals, hnew, hgrows, hsandbox, -⟩ :=
      createEnvironment_spec name origin
    rw [heq] at hr ⊢
    cases hr.symm.trans hglobals
    exact ih.create hnew hsandbox hgrows
  | share _ owner name v ih =>
    obtain ⟨objects, records, -, heq⟩ := Host.share_eq owner name (if v.isNil then none else some v)
    exact ih.of_guest (by rw [heq])
  | unshare _ owner name ih =>
    obtain ⟨objects, -, heq⟩ := Host.unshare_eq owner name
    exact ih.of_guest (by rw [heq])
  | release _ script ih =>
    exact ih.of_guest rfl
  | assign _ hr ha s what ih =>
    rw [execute_store (ih.sandbox _ hr) ha]
    exact ih.assign hr _ _

/-! ## What an assignment changes -/

/-- The shared environment is as it was at the start. -/
theorem Settled.index_shared {heap : Heap} {bindings : List Binding} (hheap : heap.Closed)
    (hbindings : ∀ b ∈ bindings, b.2.Within (· < heap.tables.size))
    (h : Settled (newHost heap bindings) w sandboxes) (k : Value) :
    w.guest.index (.table w.guest.shared) k =
      (newHost heap bindings).guest.index (.table (newHost heap bindings).guest.shared) k := by
  obtain ⟨vault, -, hb, -, -⟩ := hheap.buildShared hbindings
  rw [h.shared]
  refine hb.index_congr hb.root (fun r hr => h.tables r ?_) k
  rw [Vault.Outside, not_or] at hr
  exact Nat.lt_of_lt_of_eq (Nat.not_le.mp hr.2) hb.last

/-- What an assignment of `v` to the global `b` of the sandbox `r` makes of a world: the name means `v` there, or what
it means below if `v` is nil, and nothing else changes for anybody. -/
structure Assigned (w : World) (sandboxes : List Ref) (r : Ref) (b : ByteArray) (v : Value)
    (w' : World) : Prop where
  here : meaning w' r (.str b) = if v.isNil then meaningBelow w (.str b) else v
  elsewhere : ∀ q ∈ sandboxes, ∀ k : Value, (q ≠ r ∨ k.toKey? ≠ some (.str b)) →
    meaning w' q k = meaning w q k
  objects : w'.objects = w.objects
  environment : ∀ k, w'.guest.index (.table w'.guest.shared) k =
    w.guest.index (.table w.guest.shared) k

/-- **Names mean the same to the host and to guest code**: in every world that a new host can come to, what the host
finds under a name is what guest code of the sandbox reads. An assignment to a global is seen in its own sandbox
only. -/
theorem Populated.names_agree {heap : Heap} {bindings : List Binding} (hheap : heap.Closed)
    (hbindings : ∀ b ∈ bindings, b.2.Within (· < heap.tables.size))
    (h : Populated (newHost heap bindings) w sandboxes) (hr : r ∈ sandboxes) :
    (∀ name, resolveName (.table r) name w = (meaning w r (.ofText name), w)) ∧
    (∀ k, Reads w r k (meaning w r k)) ∧
    ∀ (a : Activation) (depth : ℕ) (b : ByteArray) (v : Value) (rest : List Value),
      Assigns a depth r b v rest → ∀ s what, ∃ w',
        execute a s (.store depth what) w = (⟨.run { a with stack := rest }, s⟩, w') ∧
        Populated (newHost heap bindings) w' sandboxes ∧ Assigned w sandboxes r b v w' := by
  have hsettled := h.settled
  have hsandbox := hsettled.sandbox r hr
  refine ⟨fun name => resolveName_eq r name w, reads_meaning hsandbox, ?_⟩
  intro a depth b v rest ha s what
  have heq := execute_store (s := s) hsandbox ha what
  have hafter : Populated (newHost heap bindings)
      { w with guest := w.guest.rawSet r (.str b) v } sandboxes := by
    have hassign := h.assign hr ha s what
    rwa [heq] at hassign
  -- the shared environment gives what it gave: no guest code changes it
  have henvironment : ∀ k, (w.guest.rawSet r (.str b) v).index (.table w.guest.shared) k =
      w.guest.index (.table w.guest.shared) k := fun k =>
    (hafter.settled.index_shared hheap hbindings k).trans
      (hsettled.index_shared hheap hbindings k).symm
  have hbelow : ∀ k, meaningBelow { w with guest := w.guest.rawSet r (.str b) v } k =
      meaningBelow w k := fun k => by
    have hvalue : environmentValue { w with guest := w.guest.rawSet r (.str b) v } k =
        environmentValue w k := by
      unfold environmentValue
      rw [← henvironment k]
      rfl
    rw [meaningBelow, hvalue]
    rfl
  refine ⟨_, heq, hafter, ?_, fun q _ k hk => ?_, rfl, henvironment⟩
  · have hown : (w.guest.rawSet r (.str b) v).rawGet r (.str b) = v :=
      (rawGet_rawSet hsandbox ..).trans (if_pos ⟨rfl, rfl⟩)
    rw [meaning_eq, hbelow, hown]
  · -- another sandbox, or another key, is not written to
    have hother : ¬(r = q ∧ k.toKey? = some (.str b)) := fun hboth =>
      hk.elim (fun hq => hq hboth.1.symm) fun hkey => hkey hboth.2
    rw [meaning_eq, meaning_eq, hbelow, rawGet_rawSet hsandbox, if_neg hother]

/-- A sandbox assigns false to a name under which the host shares a number. -/
theorem Populated.names_agree_flag :
    ∃ w r w', Populated (newHost Heap.start []) w [r] ∧
      Assigned w [r] r "flag".toUTF8 (.bool false) w' ∧
      resolveName (.table r) "flag" w' = (.bool false, w') := by
  have hno : ∀ b ∈ ([] : List Binding), b.2.Within (· < Heap.start.tables.size) := by simp
  obtain ⟨env, r, _, _, heq, -, -, hglobals, -⟩ :=
    createEnvironment_spec (w := newHost Heap.start []) "a" (.inline "")
  have hcreated : (Host.createEnvironment interpreter "a" (.inline "") (newHost Heap.start [])).1.globals =
      .table r := by rw [heq, hglobals]
  have hmade := (Populated.start.create "a" (.inline "") hcreated).share .host "flag" (.int 5)
  have hr : r ∈ [r] := List.mem_singleton.mpr rfl
  obtain ⟨-, -, hassigns⟩ := names_agree Heap.closed_start hno hmade hr
  obtain ⟨w', -, hafter, hassigned⟩ := hassigns
    { code := default, upvalues := #[], locals := #[],
      stack := [.bool false, .str "flag".toUTF8, .table r] }
    0 "flag".toUTF8 (.bool false) [.str "flag".toUTF8, .table r] ⟨rfl, rfl, rfl⟩ {} none
  refine ⟨_, r, w', hmade, hassigned, ?_⟩
  obtain ⟨hresolve, -, -⟩ := names_agree Heap.closed_start hno hafter hr
  rw [hresolve "flag"]
  exact congrArg (fun v => (v, w')) hassigned.here

end Guest
end ScriptHost
