import ScriptHost.Proofs.Guest.Confined

/-!
# Accesses that only look

In a world around a vault, the accesses that write nothing change no table, and give what the guest may see.

* `Looks`: an operation that changes no table.
* `callFunction_values`, `callFunction_hostFault`: calls of the host's functions.
* `Looks.getField`, `Looks.lengthOf`: reading with metamethods.
* `Looks.base`, `Looks.ipairsStep`: the base functions.
-/

namespace ScriptHost.Guest

/-! ## Operations that change no table -/

/-- An operation that changes no table and gives what satisfies `Q`, if anything. -/
structure Looks {α : Type} (context : CallContext) (w : World) (act : NativeM α) (Q : α → Prop) :
    Prop where
  alike : Alike w (act context w).2
  result : ∀ x, (act context w).1 = .ok x → Q x

namespace Looks

variable {α β : Type} {context : CallContext} {w : World} {act : NativeM α} {f : α → NativeM β}
  {Q Q' : α → Prop} {R : β → Prop}

theorem of_eq {o : Except Outcome α} (heq : act context w = (o, w)) (h : ∀ x, o = .ok x → Q x) :
    Looks context w act Q where
  alike := by rw [heq]; exact Alike.refl
  result x hx := h x (by rw [← hx, heq])

protected theorem pure {x : α} (h : Q x) : Looks context w (pure x) Q :=
  of_eq rfl fun _ hy => Except.ok.inj hy ▸ h

theorem fails {o : Outcome} : Looks context w (failWith o : NativeM α) Q :=
  of_eq rfl fun _ hy => nomatch hy

theorem bind_eq : (act >>= f) context w =
    match act context w with
    | (.ok x, w') => f x context w'
    | (.error o, w') => (.error o, w') := by
  rcases hact : act context w with ⟨o, w'⟩
  have hbind : (act >>= f) context w =
      ExceptT.bindCont (fun x => f x context) (act context w).1 (act context w).2 := rfl
  rw [hbind, hact]
  cases o <;> rfl

protected theorem bind (h : Looks context w act Q)
    (hf : ∀ x w', Alike w w' → Q x → Looks context w' (f x) R) :
    Looks context w (act >>= f) R := by
  obtain ⟨halike, hresult⟩ := h
  rcases hact : act context w with ⟨o, w'⟩
  rw [hact] at halike hresult
  cases o with
  | ok x =>
    have hnext := hf x w' halike (hresult x rfl)
    refine ⟨?_, fun y hy => hnext.result y ?_⟩
    · rw [bind_eq, hact]
      exact halike.trans hnext.alike
    · rw [bind_eq, hact] at hy
      exact hy
  | error o =>
    refine ⟨?_, fun y hy => ?_⟩
    · rw [bind_eq, hact]
      exact halike
    · rw [bind_eq, hact] at hy
      cases hy

theorem heap {f : Heap → NativeM β} (h : Looks context w (f w.guest) R) :
    Looks context w (getHeap >>= f) R := by
  refine ⟨?_, fun y hy => h.result y ?_⟩
  · rw [bind_eq]
    exact h.alike
  · rw [bind_eq] at hy
    exact hy

end Looks

/-! ## Calls of the host's functions -/

section

variable {w : World} {n : Native} {args vs : List Value}

theorem exists_stepLimit : ∃ fuel, stepLimit = fuel + 2 := ⟨999999999999998, rfl⟩

/-- A call from outside of a function that gives values. -/
theorem callFunction_values (h : ∀ context, n.apply args context w = (.ok (.values vs), w)) :
    callFunction (.native n) args w = (.finished vs, w) := by
  obtain ⟨fuel, hfuel⟩ := exists_stepLimit
  rw [callFunction, hfuel, runSteps]
  simp only [step, callValue, h, settle]
  rw [runSteps]
  rfl

/-- A call from outside of a function that fails for the host's reasons: the error is a new object. -/
theorem callFunction_hostFault {e : GuestError}
    (h : ∀ context, n.apply args context w = (.error (.hostFault e), w)) :
    callFunction (.native n) args w =
      (.failed (.object (.failure w.guest.failures.size)),
        { w with guest := (w.guest.allocFailure (.callback tracebackHeading e)).2 }) := by
  obtain ⟨fuel, hfuel⟩ := exists_stepLimit
  rw [callFunction, hfuel, runSteps]
  simp only [step, callValue, h, settle]
  rw [runSteps]
  rfl

/-- The error of a refused write, and the world in which it is raised. -/
def Refused (k : Value) (w : World) : RunResult × World :=
  (.failed (.object (.failure w.guest.failures.size)),
    { w with guest := (w.guest.allocFailure
      (.callback tracebackHeading (.raised (.violation k.keyText)))).2 })

theorem callAlong_hosts (answer : List Value) (hn : n.isHosts = true) :
    callAlong answer (.native n) args w = callFunction (.native n) args w :=
  if_pos hn

theorem callAlong_refuseWrite (answer : List Value) :
    callAlong answer (.native .refuseWrite) args w = Refused (Args.get args 2) w := by
  rw [callAlong_hosts answer rfl]
  exact callFunction_hostFault fun _ => rfl

theorem callAlong_frozenLength (answer : List Value) (b : Ref) :
    callAlong answer (.native (.frozenLength b)) args w =
      (.finished [.int (Int64.ofNat (w.guest.table b).border)], w) := by
  rw [callAlong_hosts answer rfl]
  exact callFunction_values fun _ => rfl

theorem callAlong_frozenPairs (answer : List Value) (b : Ref) :
    callAlong answer (.native (.frozenPairs b)) args w =
      (.finished [.native (.base .next), .table b, .nil], w) := by
  rw [callAlong_hosts answer rfl]
  exact callFunction_values fun _ => rfl

/-- What a name means, where no object is shared. -/
theorem lookupShared_eq (hobjects : ∀ name, w.objects.get? name = none) (k : Value) :
    lookupShared w k = w.guest.index (.table w.guest.shared) k := by
  unfold lookupShared
  cases k with
  | str s =>
    cases hname : Text.decode? s with
    | ok name =>
      simp only [hname, hobjects]
      rfl
    | error e =>
      simp only [hname]
      rfl
  | _ => rfl

/-- What a name means, as a value. -/
def resolved (w : World) (k : Value) : Value :=
  match lookupShared w k with
  | .value v => v
  | _ => .nil

theorem apply_resolve (context : CallContext) :
    Native.resolve.apply args context w = (.ok (.values [resolved w (Args.get args 2)]), w) := by
  unfold resolved
  have heq : Native.resolve.apply args context w =
      (match lookupShared w (Args.get args 2) with
        | .value v => result v
        | _ => result .nil) context w := rfl
  rw [heq]
  cases lookupShared w (Args.get args 2) <;> rfl

theorem callAlong_resolve (answer : List Value) :
    callAlong answer (.native .resolve) args w =
      (.finished [resolved w (Args.get args 2)], w) := by
  rw [callAlong_hosts answer rfl]
  exact callFunction_values fun context => apply_resolve context

/-- What a call on the way comes to within a native function. -/
theorem callGuest_eq (answer : List Value) (f : Value) :
    callGuest f args (along answer) w =
      match callAlong answer f args w with
      | (.finished vs, w) => (.ok vs, w)
      | (.failed e, w) => (.error (.raise e), w)
      | (.exhausted, w) => (.error .exhausted, w) := rfl

end

/-! ## Reading accesses -/

/-- All of some values are in sight. -/
def Vault.Sees (a : Vault) (handed : List Ref) (vs : List Value) : Prop :=
  ∀ v ∈ vs, v.Within (a.Sight handed)

section

variable {a : Vault} {h₀ : Heap} {handed : List Ref} {w : World} {answer args vs : List Value}
  {v k x f : Value} {α : Type} {Q : α → Prop}

theorem sees_nil : a.Sees handed [] := fun v hv => absurd hv (by simp)

theorem sees_cons : a.Sees handed (v :: vs) ↔ v.Within (a.Sight handed) ∧ a.Sees handed vs :=
  List.forall_mem_cons

theorem sees_headD (h : a.Sees handed vs) : (vs.headD .nil).Within (a.Sight handed) := by
  cases vs with
  | nil => exact Value.within_of_none rfl
  | cons v vs => exact h v (by simp)

theorem sees_get (h : a.Sees handed args) (i : ℕ) : (Args.get args i).Within (a.Sight handed) := by
  unfold Args.get
  cases hget : args[i - 1]? with
  | none => exact Value.within_of_none rfl
  | some v => exact h v (List.mem_of_getElem? hget)

theorem sees_takeValues (h : a.Sees handed vs) (n : ℕ) : a.Sees handed (takeValues n vs) := by
  induction n generalizing vs with
  | zero => exact sees_nil
  | succ n ih =>
    cases vs with
    | nil => exact sees_cons.mpr ⟨Value.within_of_none rfl, ih sees_nil⟩
    | cons v vs => exact sees_cons.mpr ⟨h v (by simp), ih fun u hu => h u (by simp [hu])⟩

theorem Looks.wrongType {context : CallContext} (i : ℕ) (expected : String) :
    Looks context w (wrongType args i expected : NativeM α) Q := by
  refine Looks.bind (Q := fun _ => True) ?_ fun _ _ _ _ => Looks.fails
  unfold argumentTitle
  split
  · split
    · exact Looks.pure trivial
    · exact Looks.heap (Looks.pure trivial)
  · exact Looks.pure trivial

theorem Looks.checkAny {context : CallContext} (h : a.Sees handed args) (i : ℕ) :
    Looks context w (checkAny args i) fun v => v = Args.get args i ∧ v.Within (a.Sight handed) := by
  unfold Guest.checkAny
  split
  · exact Looks.pure ⟨rfl, sees_get h i⟩
  · exact Looks.fails

theorem Looks.checkTable {context : CallContext} (i : ℕ) :
    Looks context w (checkTable args i) fun r => Args.get args i = .table r := by
  unfold Guest.checkTable
  split
  · next hget => exact Looks.pure hget
  · exact Looks.wrongType i "table"

/-- Fields of the host's objects refer to no table. -/
theorem objectField_within {S : Ref → Prop} (o : HostObject) : (objectField w o k).Within S := by
  have htext : ∀ s : Option String, (Value.ofText? s).Within S := fun s => by
    cases s <;> exact Value.within_of_none rfl
  unfold objectField
  split
  · split <;> first | exact htext _ | exact Value.within_of_none rfl
  · exact Value.within_of_none rfl

variable (hb : a.Built h₀) (hc : Confined a h₀ handed w)
include hb hc

theorem Confined.resolved (k : Value) : (resolved w k).Within (a.Sight handed) := by
  have hroot : (Value.table w.guest.shared).Within (a.Sight handed) :=
    Value.within_table.mpr (.inl (.inr (hc.shared ▸ hb.root)))
  have hindex := hc.index hb hroot k
  unfold Guest.resolved
  rw [lookupShared_eq hc.objects]
  cases hread : w.guest.index (.table w.guest.shared) k with
  | value v =>
    rw [hread] at hindex
    exact hindex
  | _ => exact Value.within_of_none rfl

/-- Calls of functions in sight give what is in sight; so does the length of a frozen table. -/
theorem Looks.callGuest (hanswer : a.Sees handed answer)
    (hf : f.Within (a.Sight handed) ∨ ∃ b, f = .native (.frozenLength b)) :
    Looks (along answer) w (callGuest f args) (a.Sees handed) := by
  have hdone : ∀ vs, callAlong answer f args w = (.finished vs, w) → a.Sees handed vs →
      Looks (along answer) w (Guest.callGuest f args) (a.Sees handed) := by
    intro vs heq hvs
    refine Looks.of_eq (o := .ok vs) ?_ fun _ hx => Except.ok.inj hx ▸ hvs
    rw [callGuest_eq, heq]
  -- the host's functions run, and the guest's have an answer
  cases f with
  | native n =>
    cases n with
    | refuseWrite =>
      have heq : Guest.callGuest (.native .refuseWrite) args (along answer) w =
          (.error (.raise (.object (.failure w.guest.failures.size))),
            (Refused (Args.get args 2) w).2) := by
        rw [callGuest_eq, callAlong_refuseWrite]
        rfl
      refine ⟨?_, fun vs hvs => ?_⟩
      · rw [heq]
        exact ⟨rfl, rfl, rfl, rfl⟩
      · rw [heq] at hvs
        cases hvs
    | frozenLength b =>
      exact hdone _ (callAlong_frozenLength answer b)
        (sees_cons.mpr ⟨Value.within_of_none rfl, sees_nil⟩)
    | frozenPairs b =>
      have hb' : a.Sight handed b := by
        rcases hf with hf | ⟨b', hb'⟩
        · exact hf b rfl
        · cases hb'
      refine hdone _ (callAlong_frozenPairs answer b) ?_
      simp only [sees_cons]
      exact ⟨Value.within_of_none rfl, Value.within_table.mpr hb', Value.within_of_none rfl, sees_nil⟩
    | resolve =>
      exact hdone _ (callAlong_resolve answer) (sees_cons.mpr ⟨hc.resolved hb _, sees_nil⟩)
    | _ => exact hdone answer rfl hanswer
  | _ => exact hdone answer rfl hanswer

theorem Looks.getField (hanswer : a.Sees handed answer) (hv : v.Within (a.Sight handed)) :
    Looks (along answer) w (getField v k) (Value.Within (a.Sight handed)) := by
  have hindex := hc.index hb hv k
  unfold Guest.getField
  refine Looks.heap ?_
  cases hread : w.guest.index v k with
  | value found =>
    rw [hread] at hindex
    exact Looks.pure hindex
  | call f object =>
    rw [hread] at hindex
    refine Looks.bind (Looks.callGuest hb hc hanswer (.inl hindex.1)) fun vs _ _ hvs => ?_
    exact Looks.pure (sees_headD hvs)
  | field o => exact Looks.of_eq rfl fun _ hy => Except.ok.inj hy ▸ objectField_within o
  | fault v => exact Looks.heap Looks.fails
  | endless => exact Looks.fails

/-- The metamethods of a value in sight that are not of the environment's own making. -/
theorem Confined.metamethod_cases (hv : v.Within (a.Sight handed)) (event : String) :
    (w.guest.metamethod v event).Within (a.Sight handed) ∨
      ∃ p m b, v = .table p ∧ a.proxy p ∧ a.Shuts w.guest p m b ∧
        w.guest.metamethod v event = ((proxyFields b).reverse.lookup event).getD .nil := by
  by_cases hproxy : ∃ p, v = .table p ∧ a.proxy p
  · obtain ⟨p, rfl, hp⟩ := hproxy
    obtain ⟨m, b, -, hs⟩ := hc.shuts hb hp
    exact .inr ⟨p, m, b, rfl, hp, hs, hs.guards.metamethod event⟩
  · exact .inl (hc.metamethod_within hb hv (fun p heq hp => hproxy ⟨p, heq, hp⟩) event)

/-- Asking a function for a length only looks. -/
theorem Looks.callForLength (hanswer : a.Sees handed answer)
    (hf : f.Within (a.Sight handed) ∨ ∃ b, f = .native (.frozenLength b)) :
    Looks (along answer) w (do
      match ((← Guest.callGuest f [v]).headD .nil).toInteger? with
      | some n => pure n
      | none => fault "object length is not an integer") fun _ => True := by
  refine Looks.bind (Looks.callGuest hb hc hanswer hf) fun vs _ _ _ => ?_
  split
  · exact Looks.pure trivial
  · exact Looks.fails

theorem Looks.lengthOf (hanswer : a.Sees handed answer) (hv : v.Within (a.Sight handed)) :
    Looks (along answer) w (lengthOf v) fun _ => True := by
  -- a proxy has a function that tells the length of what is behind it
  have hmeta : (w.guest.metamethod v "__len").Within (a.Sight handed) ∨
      ∃ b, w.guest.metamethod v "__len" = .native (.frozenLength b) := by
    rcases hc.metamethod_cases hb hv "__len" with hmeta | ⟨p, m, b, -, -, -, hmeta⟩
    · exact .inl hmeta
    · exact .inr ⟨b, hmeta⟩
  have hrest := Looks.callForLength hb hc (v := v) hanswer hmeta
  unfold Guest.lengthOf
  refine Looks.heap ?_
  split
  · exact Looks.pure trivial
  · split
    · exact Looks.pure trivial
    · exact Looks.fails
    · exact hrest

/-! ## Base functions -/

/-- Values that are the results of a native function. -/
def Outcome.Gives (P : List Value → Prop) : Outcome → Prop
  | .values vs => P vs
  | _ => False

omit hb hc in
theorem Looks.results {context : CallContext} {o : Outcome} {P : List Value → Prop}
    (h : o.Gives P) : Looks context w (Access.results o) P := by
  cases o with
  | values vs => exact Looks.pure h
  | _ => exact h.elim

omit hb hc in
theorem Looks.values {context : CallContext} {P : List Value → Prop} (h : P vs) :
    Looks context w (Guest.results vs) (Outcome.Gives P) :=
  Looks.pure h

theorem Looks.nextEntry {context : CallContext} {r : Ref} (hr : a.Sight handed r) :
    Looks context w (Library.nextEntry r k) (Outcome.Gives (a.Sees handed)) := by
  unfold Library.nextEntry
  refine Looks.heap ?_
  have hentry : ∀ key e, (w.guest.table r).entryAfter key = .ok (some e) →
      a.Sees handed [e.1.toValue, e.2] := by
    intro key e he
    obtain ⟨hkey, hvalue⟩ := (hc.holds hb (.inl hr)).entryAfter key he
    exact sees_cons.mpr ⟨hkey, sees_cons.mpr ⟨hvalue, sees_nil⟩⟩
  extract_lets t found
  have hfound : ∀ e, found = .ok (some e) → a.Sees handed [e.1.toValue, e.2] := by
    intro e he
    simp only [found] at he
    split at he
    · exact hentry _ e he
    · cases he
    · exact hentry _ e he
  cases hcase : found with
  | error _ => exact Looks.fails
  | ok o =>
    cases o with
    | none => exact Looks.values (sees_cons.mpr ⟨Value.within_of_none rfl, sees_nil⟩)
    | some e => exact Looks.values (hfound e hcase)

theorem Looks.getmetatable {context : CallContext} (hargs : a.Sees handed args) :
    Looks context w (Library.getmetatable args) (Outcome.Gives (a.Sees handed)) := by
  unfold Library.getmetatable
  refine Looks.bind (Looks.checkAny hargs 1) fun v w' halike ⟨_, hv⟩ => ?_
  have hc' := hc.alike halike
  have hone : ∀ u : Value, u.Within (a.Sight handed) → a.Sees handed [u] := fun u hu =>
    sees_cons.mpr ⟨hu, sees_nil⟩
  split
  · exact Looks.values (hone _ (Value.within_of_none rfl))
  · refine Looks.heap ?_
    -- a proxy names a value that stands for its metatable; all others have metatables in sight
    by_cases hproxy : ∃ p, v = .table p ∧ a.proxy p
    · obtain ⟨p, rfl, hp⟩ := hproxy
      obtain ⟨m, b, -, hs⟩ := hc'.shuts hb hp
      have hm : w'.guest.metatable? (.table p) = some m := by
        show (w'.guest.table p).metatable = some m
        rw [hs.guards.1]
      have hfield : (w'.guest.table m).getText "__metatable" = .bool false := by
        rw [hs.guards.2, Table.getText_namedTable]
        rfl
      rw [hm]
      simp only [hfield]
      exact Looks.values (hone _ (Value.within_of_none rfl))
    · have hp : ∀ p, v = .table p → ¬a.proxy p := fun p heq hp => hproxy ⟨p, heq, hp⟩
      split
      · exact Looks.values (hone _ (Value.within_of_none rfl))
      · next m hm =>
        have hsight := hc'.metatable_within hb hv hp hm
        split
        · exact Looks.values (hone _ (Value.within_table.mpr hsight))
        · exact Looks.values (hone _ ((hc'.holds hb (.inl hsight)).get _))

/-- The base functions that only look at tables. -/
theorem Looks.base {context : CallContext} (hargs : a.Sees handed args) {f : BaseFn}
    (hf : f ∈ tableFunctions) (hpairs : f ≠ .pairs) (hset : f ≠ .setmetatable) :
    Looks context w ((Native.base f).apply args) (Outcome.Gives (a.Sees handed)) := by
  show Looks context w (Library.base f args) _
  have hone : ∀ u : Value, u.Within (a.Sight handed) → a.Sees handed [u] := fun u hu =>
    sees_cons.mpr ⟨hu, sees_nil⟩
  simp only [tableFunctions, List.mem_cons, List.not_mem_nil, or_false] at hf
  rcases hf with rfl | rfl | rfl | rfl | rfl | rfl | rfl
  · exact Looks.getmetatable hb hc hargs
  · refine Looks.bind (Looks.checkAny hargs 1) fun v _ _ ⟨_, hv⟩ => Looks.values ?_
    simp only [sees_cons]
    exact ⟨Value.within_of_none rfl, hv, Value.within_of_none rfl, sees_nil⟩
  · refine Looks.bind (Looks.checkTable 1) fun r w' halike hr => ?_
    have hsight : a.Sight handed r := Value.within_table.mp (hr ▸ sees_get hargs 1)
    exact Looks.nextEntry hb (hc.alike halike) hsight
  · exact absurd rfl hpairs
  · refine Looks.bind (Looks.checkTable 1) fun r w' halike hr => ?_
    refine Looks.bind (Looks.checkAny hargs 2) fun k w'' halike' _ => Looks.heap ?_
    have hsight : a.Sight handed r := Value.within_table.mp (hr ▸ sees_get hargs 1)
    exact Looks.values (hone _ (((hc.alike halike).alike halike').rawGet_within hb (.inl hsight) k))
  · unfold Library.base
    simp only
    split
    · exact Looks.heap (Looks.values (hone _ (Value.within_of_none rfl)))
    · exact Looks.values (hone _ (Value.within_of_none rfl))
    · exact Looks.wrongType 1 _
  · exact absurd rfl hset

/-- A step of `ipairs` reads a field. -/
theorem Looks.ipairsStep (hanswer : a.Sees handed answer) (hargs : a.Sees handed args) :
    Looks (along answer) w (Native.ipairsStep.apply args) (Outcome.Gives (a.Sees handed)) := by
  show Looks _ w (Library.ipairsStep args) _
  have hint : Looks (along answer) w (checkInt args 2) fun _ => True := by
    unfold checkInt
    split
    · exact Looks.wrongType 2 _
    · split
      · exact Looks.pure trivial
      · exact Looks.fails
  refine Looks.bind hint fun i w' halike _ => ?_
  refine Looks.bind (Looks.getField hb (hc.alike halike) hanswer (sees_get hargs 1))
    fun v _ _ hv => ?_
  split
  · exact Looks.values (sees_cons.mpr ⟨Value.within_of_none rfl, sees_nil⟩)
  · exact Looks.values (sees_cons.mpr ⟨Value.within_of_none rfl, sees_cons.mpr ⟨hv, sees_nil⟩⟩)

end

end ScriptHost.Guest
