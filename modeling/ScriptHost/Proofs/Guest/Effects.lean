import ScriptHost.Proofs.Guest.Moves

/-!
# The effect of an access

What one access does to a world around a vault. At most one table that is there changes, the access's target. A guest
that writes to nothing that `pairs` handed out of the vault changes only tables outside.

* `Keeps`: a world stays confined, and its tables stay as they are, the target apart.
* `Keeps.assign`, `Keeps.setmetatable`: the accesses that write.
* `Confined.effect`: every access keeps a world.
-/

namespace ScriptHost.Guest

/-- What an access leads to from a confined world. -/
structure Keeps (a : Vault) (h₀ : Heap) (handed : List Ref) (w : World) (access : Access)
    (result : Except Outcome (List Value) × World) : Prop where
  confined : Confined a h₀ handed result.2
  frame : ∀ r, r < w.guest.tables.size → access.target? w.guest ≠ some r →
    result.2.guest.table r = w.guest.table r
  target : ∀ r, access.target? w.guest = some r → a.Outside r
  sees : ∀ vs, result.1 = .ok vs → a.Sees (access.handed vs ++ handed) vs

/-- What `pairs` comes to: values, or a call of a function that gives them. -/
inductive Iteration (a : Vault) (handed : List Ref) (args : Args) : Outcome → Prop where
  | values {vs : List Value} (h : a.Sees handed vs) : Iteration a handed args (.values vs)
  | call {f : Value} {vs : List Value} (h : f.Within (a.Sight handed)) :
    Iteration a handed args (.call f vs [.adapt (.exactly 3)])
  | frozen {p b : Ref} {vs : List Value} (hp : args.get 1 = .table p) (hne : p ≠ b)
    (hb : a.behind b) :
    Iteration a handed args (.call (.native (.frozenPairs b)) vs [.adapt (.exactly 3)])

section

variable {a : Vault} {h₀ : Heap} {handed more : List Ref} {w : World} {answer args vs : List Value}
  {v k x : Value} {access : Access} {context : CallContext}

theorem sees_append (h : a.Sees handed vs) : a.Sees (more ++ handed) vs :=
  fun v hv => (h v hv).mono fun _ hr => hr.imp_right fun hr => ⟨hr.1, List.mem_append_right _ hr.2⟩

/-- An access that changes no table. -/
theorem Keeps.of_looks (hc : Confined a h₀ handed w) (htarget : access.target? w.guest = none)
    (h : Looks context w access.run fun vs => a.Sees (access.handed vs ++ handed) vs) :
    Keeps a h₀ handed w access (access.run context w) where
  confined := hc.alike h.alike
  frame r _ _ := h.alike.table r
  target r hr := by
    rw [htarget] at hr
    cases hr
  sees := h.result

/-! ## Calls of `pairs` -/

variable (hb : a.Built h₀) (hc : Confined a h₀ handed w)
include hb hc

theorem Looks.pairs (hargs : a.Sees handed args) :
    Looks context w ((Native.base .pairs).apply args) (Iteration a handed args) := by
  show Looks context w (Library.base .pairs args) _
  refine Looks.bind (Looks.checkAny hargs 1) fun v w' halike ⟨hget, hv⟩ => Looks.heap ?_
  have hnext : a.Sees handed [.native (.base .next), v, .nil] := by
    simp only [sees_cons]
    exact ⟨Value.within_of_none rfl, hv, Value.within_of_none rfl, sees_nil⟩
  have hcases := (hc.alike halike).metamethod_cases hb hv "__pairs"
  cases hmeta : w'.guest.metamethod v "__pairs" with
  | nil => exact Looks.pure (.values hnext)
  | native n =>
    rw [hmeta] at hcases
    rcases hcases with hn | ⟨p, m, b, rfl, hp, hs, heq⟩
    · exact Looks.pure (.call hn)
    · -- the function of a proxy
      cases Value.native.inj heq
      refine Looks.pure (.frozen hget.symm ?_ hs.behind)
      rintro rfl
      exact (hb.proxy p hp).2.1 hs.behind
  | _ =>
    rw [hmeta] at hcases
    rcases hcases with hn | ⟨p, m, b, rfl, hp, hs, heq⟩
    · exact Looks.pure (.call hn)
    · cases heq

/-- A call of `pairs` gives what is in sight, and it may hand out the table behind a proxy. -/
theorem Keeps.pairs (hargs : a.Sees handed args) (hanswer : a.Sees handed answer) :
    Keeps a h₀ handed w (.call .pairs args) ((Access.call .pairs args).run (along answer) w) := by
  refine Keeps.of_looks hc rfl (Looks.bind (Looks.pairs hb hc hargs) fun o w' halike ho => ?_)
  -- values are in sight already; the function of a proxy hands one more table out
  cases ho with
  | values h => exact Looks.pure (sees_append h)
  | call hf =>
    refine Looks.bind (Looks.callGuest hb (hc.alike halike) hanswer (.inl hf))
      fun vs _ _ hvs => Looks.pure ?_
    exact sees_append (sees_takeValues hvs 3)
  | @frozen p b us hp hne hbehind =>
    have hcall : Guest.callGuest (.native (.frozenPairs b)) us (along answer) w' =
        (.ok [.native (.base .next), .table b, .nil], w') := by
      rw [callGuest_eq, callAlong_frozenPairs]
    refine Looks.bind (Q := (· = [.native (.base .next), .table b, .nil]))
      (Looks.of_eq hcall fun _ hvs => (Except.ok.inj hvs).symm) ?_
    rintro _ w'' - rfl
    refine Looks.pure ?_
    have hhanded : (Access.call .pairs args).handed [.native (.base .next), .table b, .nil] = [b] := by
      cases args with
      | nil => rfl
      | cons u rest =>
        cases (show u = .table p from hp)
        exact if_neg hne
    show a.Sees ((Access.call .pairs args).handed [.native (.base .next), .table b, .nil] ++ handed)
      [.native (.base .next), .table b, .nil]
    rw [hhanded]
    simp only [sees_cons]
    exact ⟨Value.within_of_none rfl, Value.within_table.mpr (.inr ⟨hbehind, by simp⟩),
      Value.within_of_none rfl, sees_nil⟩

/-! ## Writes -/

omit hb hc in
/-- A table that is written to is outside, if it was not handed out from behind a proxy. -/
theorem Vault.Sight.outside {r : Ref} (hr : a.Sight handed r) (hp : ¬a.proxy r)
    (hspared : a.behind r → r ∉ handed) : a.Outside r := by
  rcases hr with (hr | hr) | ⟨hr, hin⟩
  · exact hr
  · exact absurd hr hp
  · exact absurd hin (hspared hr)

omit hb in
/-- An access that changes its target, a table outside. -/
theorem Keeps.of_change {r : ℕ} (htarget : access.target? w.guest = some r) (hr : a.Outside r)
    {f : Table → Table} (hf : (w.guest.table r).Within (a.Sight handed) →
      (f (w.guest.table r)).Within (a.Sight handed)) (hvs : a.Sees handed vs)
    (heq : access.run context w = (.ok vs, { w with guest := w.guest.modifyTable r f })) :
    Keeps a h₀ handed w access (access.run context w) := by
  rw [heq]
  refine ⟨hc.modifyTable hr hf, fun q hq hne => ?_, fun q hq => ?_, fun us hus => ?_⟩
  · refine Heap.table_modifyTable_of_ne f ?_
    rintro rfl
    exact hne htarget
  · rw [htarget] at hq
    exact Option.some.inj hq ▸ hr
  · cases hus
    exact sees_append hvs

/-- An assignment that a function decides, or that fails. -/
theorem Looks.setField (hv : v.Within (a.Sight handed)) (hanswer : a.Sees handed answer)
    (hnone : ∀ r key, w.guest.assign v k ≠ .set r key) :
    Looks (along answer) w (setField v k x) fun _ => True := by
  have hassign := hc.assign hb hv k
  unfold Guest.setField
  refine Looks.heap ?_
  cases hwrite : w.guest.assign v k with
  | set r key => exact absurd hwrite (hnone r key)
  | call f o =>
    rw [hwrite] at hassign
    exact Looks.bind (Looks.callGuest hb hc hanswer (.inl hassign.1)) fun _ _ _ _ =>
      Looks.pure trivial
  | fault u => exact Looks.heap Looks.fails
  | badKey name => exact Looks.fails
  | endless => exact Looks.fails

omit hb hc in
theorem run_assign_set {r : Ref} {key : Key} (hwrite : w.guest.assign v k = .set r key) :
    (Access.assign v k x).run context w =
      (.ok [], { w with guest := w.guest.modifyTable r fun t => t.set key x }) := by
  show (Guest.setField v k x >>= fun _ => pure []) context w = _
  simp only [Guest.setField, Looks.bind_eq, getHeap, hwrite]
  rfl

theorem Keeps.assign (hv : v.Within (a.Sight handed)) (hk : k.Within (a.Sight handed))
    (hx : x.Within (a.Sight handed)) (hanswer : a.Sees handed answer)
    (hspared : ∀ r, (Access.assign v k x).target? w.guest = some r → a.behind r → r ∉ handed) :
    Keeps a h₀ handed w (.assign v k x) ((Access.assign v k x).run (along answer) w) := by
  -- either a table in sight is written to, or nothing changes
  by_cases hset : ∃ r key, w.guest.assign v k = .set r key
  · obtain ⟨r, key, hwrite⟩ := hset
    have hassign := hc.assign hb hv k
    rw [hwrite] at hassign
    obtain ⟨hr, hp, hkey⟩ := hassign
    have htarget : (Access.assign v k x).target? w.guest = some r := by
      simp only [Access.target?, hwrite]
    exact Keeps.of_change hc htarget (hr.outside hp (hspared r htarget))
      (fun h => h.set (hk.key hkey) hx) sees_nil (run_assign_set hwrite)
  · have hnone : ∀ r key, w.guest.assign v k ≠ .set r key := fun r key h => hset ⟨r, key, h⟩
    refine Keeps.of_looks hc ?_ (Looks.bind (Looks.setField hb hc hv hanswer hnone)
      fun _ _ _ _ => Looks.pure sees_nil)
    simp only [Access.target?]

omit hb hc in
/-- A table with a metatable that says otherwise keeps it. -/
theorem setmetatable_eq (r : Ref) (rest : List Value) (context : CallContext)
    (hv : Access.takesMetatable v = true) :
    Library.setmetatable (.table r :: v :: rest) context w =
      if (w.guest.metamethod (.table r) "__metatable").isNil then
        (.ok (.values [.table r]),
          { w with guest := w.guest.modifyTable r fun t => { t with metatable := v.ref? } })
      else (.error (.fault "cannot change a protected metatable"), w) := by
  have heq : Library.setmetatable (.table r :: v :: rest) context w =
      (if !(w.guest.metamethod (.table r) "__metatable").isNil then
        fault "cannot change a protected metatable"
      else do
        modifyHeap fun h => h.modifyTable r fun t => { t with metatable := v.ref? }
        result (.table r)) context w := by
    cases v with
    | nil => rfl
    | table m => rfl
    | _ => cases hv
  rw [heq]
  cases (w.guest.metamethod (.table r) "__metatable").isNil <;> rfl

omit hb hc in
theorem run_setmetatable {r : Ref} {rest : List Value} (hv : Access.takesMetatable v = true)
    (hlock : (w.guest.metamethod (.table r) "__metatable").isNil = true) :
    (Access.call .setmetatable (.table r :: v :: rest)).run context w = (.ok [.table r],
      { w with guest := w.guest.modifyTable r fun t => { t with metatable := v.ref? } }) := by
  show (Library.setmetatable (.table r :: v :: rest) >>= Access.results) context w = _
  rw [Looks.bind_eq, setmetatable_eq r rest context hv, if_pos hlock]
  rfl

omit hb hc in
/-- The arguments that `setmetatable` takes. -/
theorem exists_of_takes {r : Ref} (hr : Args.get args 1 = .table r)
    (hhas : Args.has args 2 = true) (htakes : Access.takesMetatable (Args.get args 2) = true) :
    ∃ v rest, args = .table r :: v :: rest ∧ Access.takesMetatable v = true := by
  match args with
  | [] => cases hr
  | [_] => cases hhas
  | u :: v :: rest =>
    cases (show u = .table r from hr)
    exact ⟨v, rest, rfl, htakes⟩

omit hb hc in
/-- With other arguments nothing changes. -/
theorem Looks.setmetatable {Q : Outcome → Prop}
    (hargs : ∀ r v rest, args = .table r :: v :: rest → Access.takesMetatable v = false) :
    Looks context w (Library.setmetatable args) Q := by
  have hnot : ∀ r, Args.get args 1 = .table r → Args.has args 2 = true →
      Access.takesMetatable (Args.get args 2) = false := by
    intro r hr hhas
    by_contra htakes
    obtain ⟨v, rest, heq, hv⟩ := exists_of_takes hr hhas (Bool.not_eq_false _ ▸ htakes)
    rw [hargs r v rest heq] at hv
    cases hv
  unfold Library.setmetatable
  refine Looks.bind (Looks.checkTable 1) fun r w' _ hr => ?_
  have hrest := hnot r hr
  extract_lets rest
  split
  · next hhas hnil =>
    rw [hnil] at hrest
    cases hrest hhas
  · next m hhas htable =>
    rw [htable] at hrest
    cases hrest hhas
  · exact Looks.bind (Q := fun _ => False) (Looks.wrongType 2 _) fun _ _ _ h => h.elim

theorem Keeps.setmetatable (hargs : a.Sees handed args)
    (hspared : ∀ r, (Access.call .setmetatable args).target? w.guest = some r → a.behind r →
      r ∉ handed) :
    Keeps a h₀ handed w (.call .setmetatable args)
      ((Access.call .setmetatable args).run context w) := by
  by_cases htakes : ∃ r v rest, args = .table r :: v :: rest ∧ Access.takesMetatable v = true
  · obtain ⟨r, v, rest, rfl, hv⟩ := htakes
    have hr : a.Sight handed r := Value.within_table.mp (sees_cons.mp hargs).1
    -- a proxy has its metatable locked
    cases hlock : (w.guest.metamethod (.table r) "__metatable").isNil with
    | true =>
      have htarget : (Access.call .setmetatable (.table r :: v :: rest)).target? w.guest = some r := by
        simp only [Access.target?, hv, hlock, Bool.and_self, if_true]
      have hproxy : ¬a.proxy r := by
        intro hp
        obtain ⟨m, b, -, hs⟩ := hc.shuts hb hp
        rw [hs.guards.metamethod "__metatable"] at hlock
        cases hlock
      refine Keeps.of_change (f := fun t => { t with metatable := v.ref? }) hc htarget
        (hr.outside hproxy (hspared r htarget)) (fun h => ⟨h.slots, ?_⟩)
        (sees_cons.mpr ⟨Value.within_table.mpr hr, sees_nil⟩) (run_setmetatable hv hlock)
      intro m hm
      exact (sees_cons.mp (sees_cons.mp hargs).2).1 m hm
    | false =>
      have hrun := setmetatable_eq (w := w) r rest context hv
      rw [if_neg (by simp [hlock])] at hrun
      refine Keeps.of_looks hc (by simp [Access.target?, hlock]) ?_
      exact Looks.bind (Q := fun _ => False) (Looks.of_eq hrun fun _ h => nomatch h)
        fun _ _ _ h => h.elim
  · have hnone : ∀ r v rest, args = .table r :: v :: rest → Access.takesMetatable v = false := by
      intro r v rest heq
      by_contra hv
      exact htakes ⟨r, v, rest, heq, Bool.not_eq_false _ ▸ hv⟩
    refine Keeps.of_looks hc ?_ (Looks.bind (Q := fun _ => False) (Looks.setmetatable hnone)
      fun _ _ _ h => h.elim)
    unfold Access.target?
    split
    · next heq => cases heq
    · next r v rest heq =>
      cases heq
      rw [hnone r v rest rfl]
      rfl
    · rfl

/-! ## Every access -/

/-- **One access.** A world stays confined, and at most the access's target changes, a table outside. -/
theorem Confined.effect (hoperands : a.Sees handed access.operands)
    (hanswer : a.Sees handed answer)
    (hshared : ∀ f args, access = .call f args → f ∈ tableFunctions)
    (hspared : ∀ r, access.target? w.guest = some r → a.behind r → r ∉ handed) :
    Keeps a h₀ handed w access (access.run (along answer) w) := by
  cases access with
  | create =>
    obtain ⟨hconfined, hnew⟩ := hc.allocTable hb
    refine ⟨hconfined, fun r hr _ => ?_, fun r hr => (nomatch hr), fun vs hvs => ?_⟩
    · exact Heap.table_allocTable.trans (if_neg (Nat.ne_of_lt hr))
    · cases hvs
      exact sees_cons.mpr ⟨Value.within_table.mpr (.inl (.inl hnew)), sees_nil⟩
  | name k =>
    refine Keeps.of_looks hc rfl (Looks.bind (Q := Outcome.Gives (a.Sees handed))
      (Looks.of_eq (apply_resolve _) fun o ho => ?_) fun o _ _ ho => ?_)
    · cases ho
      exact sees_cons.mpr ⟨hc.resolved hb k, sees_nil⟩
    · exact Looks.results ho
  | index v k =>
    have hv := (sees_cons.mp hoperands).1
    exact Keeps.of_looks hc rfl (Looks.bind (Looks.getField hb hc hanswer hv)
      fun x _ _ hx => Looks.pure (sees_cons.mpr ⟨hx, sees_nil⟩))
  | assign v k x =>
    simp only [Access.operands, sees_cons] at hoperands
    obtain ⟨hv, hk, hx, -⟩ := hoperands
    exact Keeps.assign hb hc hv hk hx hanswer hspared
  | length v =>
    have hv := (sees_cons.mp hoperands).1
    exact Keeps.of_looks hc rfl (Looks.bind (Looks.lengthOf hb hc hanswer hv)
      fun n _ _ _ => Looks.pure (sees_cons.mpr ⟨Value.within_of_none rfl, sees_nil⟩))
  | call f args =>
    -- two base functions do more than look: one hands out, the other writes
    by_cases hpairs : f = .pairs
    · subst hpairs
      exact Keeps.pairs hb hc hoperands hanswer
    by_cases hset : f = .setmetatable
    · subst hset
      exact Keeps.setmetatable hb hc hoperands hspared
    refine Keeps.of_looks hc ?_ (Looks.bind
      (Looks.base hb hc hoperands (hshared f args rfl) hpairs hset) fun o _ _ ho => ?_)
    · cases f <;> first | rfl | exact absurd rfl hset
    · have hhanded : ∀ vs, (Access.call f args).handed vs = [] := by
        intro vs
        cases f <;> first | rfl | exact absurd rfl hpairs
      simp only [hhanded]
      exact Looks.results ho
  | step args =>
    exact Keeps.of_looks hc rfl (Looks.bind (Looks.ipairsStep hb hc hanswer hoperands)
      fun o _ _ ho => Looks.results ho)

end

end ScriptHost.Guest
