import ScriptHost.Proofs.Guest.Access
import ScriptHost.Proofs.Guest.Vault

/-!
# Worlds around a vault

The invariant that keeps the shared environment as it was built: a guest sees tables outside, proxies, and those
tables behind proxies that `pairs` has handed to it; and what it sees refers to nothing else.

* `Vault.Sight`: the tables that a guest may see.
* `Confined`: the invariant of a world.
* `Confined.index`, `Confined.assign`: where reading and writing lead.
-/

namespace ScriptHost.Guest

/-- The tables that a guest may see when `pairs` has handed out some. -/
def Vault.Sight (a : Vault) (handed : List Ref) (r : Ref) : Prop :=
  a.Open r ∨ (a.behind r ∧ r ∈ handed)

/-- A world around a vault as it was built in the heap `h₀`. -/
structure Confined (a : Vault) (h₀ : Heap) (handed : List Ref) (w : World) : Prop where
  inside : ∀ r, ¬a.Outside r → w.guest.table r = h₀.table r
  outside : ∀ r, a.Outside r → (w.guest.table r).Within (a.Sight handed)
  size : h₀.tables.size ≤ w.guest.tables.size
  stringMeta : w.guest.stringMeta = h₀.stringMeta
  shared : w.guest.shared = h₀.shared
  objects : ∀ name, w.objects.get? name = none

/-- What reading comes to refers to tables of `S` only. -/
def Heap.Reading.Within (S : Ref → Prop) : Heap.Reading → Prop
  | .value v => v.Within S
  | .call f o => f.Within S ∧ o.Within S
  | _ => True

/-- What writing at a key comes to: a function and an object in sight, or a table in sight that is no proxy. -/
def Heap.Writing.Within (a : Vault) (handed : List Ref) (k : Value) : Heap.Writing → Prop
  | .set r key => a.Sight handed r ∧ ¬a.proxy r ∧ k.toKey? = some key
  | .call f o => f.Within (a.Sight handed) ∧ o.Within (a.Sight handed)
  | _ => True

/-- Two worlds that differ in no table. -/
structure Alike (w w' : World) : Prop where
  tables : w'.guest.tables = w.guest.tables
  stringMeta : w'.guest.stringMeta = w.guest.stringMeta
  shared : w'.guest.shared = w.guest.shared
  objects : w'.objects = w.objects

section

variable {a : Vault} {h₀ : Heap} {handed : List Ref} {w w' w'' : World} {r p : ℕ} {v k : Value}

theorem Alike.refl : Alike w w := ⟨rfl, rfl, rfl, rfl⟩

theorem Alike.trans (h : Alike w w') (h' : Alike w' w'') : Alike w w'' :=
  ⟨h'.tables.trans h.tables, h'.stringMeta.trans h.stringMeta, h'.shared.trans h.shared,
    h'.objects.trans h.objects⟩

theorem Alike.table (h : Alike w w') (r : Ref) : w'.guest.table r = w.guest.table r := by
  unfold Heap.table
  rw [h.tables]

namespace Confined

theorem alike (hc : Confined a h₀ handed w) (h : Alike w w') : Confined a h₀ handed w' where
  inside r hr := (h.table r).trans (hc.inside r hr)
  outside r hr := h.table r ▸ hc.outside r hr
  size := h.tables ▸ hc.size
  stringMeta := h.stringMeta.trans hc.stringMeta
  shared := h.shared.trans hc.shared
  objects := h.objects ▸ hc.objects

/-- More tables may be seen when more have been handed out. -/
theorem mono {handed' : List Ref} (hc : Confined a h₀ handed w) (hsub : handed ⊆ handed') :
    Confined a h₀ handed' w where
  inside := hc.inside
  outside r hr := (hc.outside r hr).mono fun _ h => h.imp_right fun h => ⟨h.1, hsub h.2⟩
  size := hc.size
  stringMeta := hc.stringMeta
  shared := hc.shared
  objects := hc.objects

/-! ## Tables in sight -/

variable (hb : a.Built h₀)
include hb

theorem shuts (hc : Confined a h₀ handed w) (hp : a.proxy p) :
    ∃ m b, a.Shuts h₀ p m b ∧ a.Shuts w.guest p m b := by
  obtain ⟨houtside, -, m, b, hs⟩ := hb.proxy p hp
  have hm : ¬a.Outside m := fun hm => hs.secret.1 (.inl hm)
  exact ⟨m, b, hs, hs.congr (hc.inside p houtside) (hc.inside m hm)⟩

theorem plain (hc : Confined a h₀ handed w) (hr : a.behind r) :
    (w.guest.table r).metatable = none := by
  rw [hc.inside r (hb.inside r hr)]
  exact hb.plain r hr

theorem behind (hc : Confined a h₀ handed w) (hr : a.behind r) :
    (w.guest.table r).Within a.Open := by
  rw [hc.inside r (hb.inside r hr)]
  exact (hb.behind r hr).mono fun _ h => h.isOpen

/-- Of the tables in sight only the proxies have metatables that are not in sight. -/
theorem table_within (hc : Confined a h₀ handed w) (hr : a.Sight handed r) (hp : ¬a.proxy r) :
    (w.guest.table r).Within (a.Sight handed) := by
  rcases hr with (hr | hr) | ⟨hr, -⟩
  · exact hc.outside r hr
  · exact absurd hr hp
  · exact (hc.behind hb hr).mono fun _ h => .inl h

theorem holds (hc : Confined a h₀ handed w) (hr : a.Sight handed r ∨ a.behind r) :
    (w.guest.table r).Holds (a.Sight handed) := by
  by_cases hp : a.proxy r
  · obtain ⟨m, b, -, hs⟩ := hc.shuts hb hp
    rw [hs.guards.1]
    exact Table.within_empty.slots
  · rcases hr with hr | hr
    · exact (hc.table_within hb hr hp).slots
    · exact ((hc.behind hb hr).mono fun _ h => .inl h).slots

theorem rawGet_within (hc : Confined a h₀ handed w) (hr : a.Sight handed r ∨ a.behind r)
    (k : Value) : (w.guest.rawGet r k).Within (a.Sight handed) := by
  unfold Heap.rawGet
  split
  · exact (hc.holds hb hr).get _
  · exact Value.within_of_none rfl

/-- The metatable of a value in sight is in sight, unless the value is a proxy. -/
theorem metatable_within (hc : Confined a h₀ handed w) (hv : v.Within (a.Sight handed))
    (hp : ∀ p, v = .table p → ¬a.proxy p) {m : Ref} (hm : w.guest.metatable? v = some m) :
    a.Sight handed m := by
  cases v with
  | table r => exact (hc.table_within hb (Value.within_table.mp hv) (hp r rfl)).metatable m hm
  | str s =>
    have hstrings : h₀.stringMeta = some m := hc.stringMeta ▸ hm
    exact .inl (.inl (hb.stringMeta m hstrings))
  | _ => cases hm

theorem metamethod_within (hc : Confined a h₀ handed w) (hv : v.Within (a.Sight handed))
    (hp : ∀ p, v = .table p → ¬a.proxy p) (event : String) :
    (w.guest.metamethod v event).Within (a.Sight handed) := by
  unfold Heap.metamethod
  cases hm : w.guest.metatable? v with
  | none => exact Value.within_of_none rfl
  | some m => exact (hc.holds hb (.inl (hc.metatable_within hb hv hp hm))).get _

/-! ## Reading -/

omit hb in
/-- What reading comes to by a metamethod in sight. -/
theorem within_index_event {f : Value} {fuel : ℕ} {missing : Heap.Reading}
    (hnext : ∀ v, v.Within (a.Sight handed) → (w.guest.indexLoop k fuel v).Within (a.Sight handed))
    (hv : v.Within (a.Sight handed)) (hf : f.Within (a.Sight handed))
    (hmissing : missing.Within (a.Sight handed)) :
    (match f with
      | .nil => missing
      | .closure c => .call (.closure c) v
      | .native n => .call (.native n) v
      | next => w.guest.indexLoop k fuel next).Within (a.Sight handed) := by
  cases f with
  | nil => exact hmissing
  | closure c => exact ⟨hf, hv⟩
  | native n => exact ⟨hf, hv⟩
  | _ => exact hnext _ hf

/-- Reading goes on at tables in sight or behind a proxy, and comes to what is in sight. -/
theorem indexLoop (hc : Confined a h₀ handed w) (fuel : ℕ)
    (hv : v.Within (a.Sight handed) ∨ ∃ b, a.behind b ∧ v = .table b) :
    (w.guest.indexLoop k fuel v).Within (a.Sight handed) := by
  induction fuel generalizing v with
  | zero => trivial
  | succ fuel ih =>
    by_cases htable : ∃ r, v = .table r
    · obtain ⟨r, rfl⟩ := htable
      have hsight : a.Sight handed r ∨ a.behind r := by
        rcases hv with hv | ⟨b, hbehind, heq⟩
        · exact .inl (Value.within_table.mp hv)
        · exact .inr (Value.table.inj heq ▸ hbehind)
      -- behind a proxy the search ends; a proxy leads it there; other tables are in sight
      by_cases hbehind : a.behind r
      · rw [Heap.index_plain (hc.plain hb hbehind)]
        exact hc.rawGet_within hb hsight k
      · have hr : a.Sight handed r := hsight.resolve_right hbehind
        rw [Heap.indexLoop_table]
        split
        · exact hc.rawGet_within hb hsight k
        · by_cases hp : a.proxy r
          · obtain ⟨m, b, -, hs⟩ := hc.shuts hb hp
            rw [hs.guards.metamethod "__index"]
            exact ih (.inr ⟨b, hs.behind, rfl⟩)
          · refine within_index_event (fun v hv => ih (.inl hv)) (Value.within_table.mpr hr) ?_
              (Value.within_of_none rfl)
            refine hc.metamethod_within hb (Value.within_table.mpr hr) (fun p heq => ?_) "__index"
            cases heq
            exact hp
    · have hv' : v.Within (a.Sight handed) := by
        rcases hv with hv | ⟨b, -, heq⟩
        · exact hv
        · exact absurd ⟨b, heq⟩ htable
      have hmeta := hc.metamethod_within hb hv' (fun p heq => absurd ⟨p, heq⟩ htable) "__index"
      have hnext := within_index_event (fun v hv => ih (.inl hv)) hv' hmeta
        (show (Heap.Reading.fault v).Within (a.Sight handed) from trivial)
      cases v with
      | table r => exact absurd ⟨r, rfl⟩ htable
      | object o => cases o <;> trivial
      | _ => exact hnext

theorem index (hc : Confined a h₀ handed w) (hv : v.Within (a.Sight handed)) (k : Value) :
    (w.guest.index v k).Within (a.Sight handed) :=
  hc.indexLoop hb _ (.inl hv)

/-! ## Writing -/

omit hb in
/-- What writing comes to by a metamethod in sight. -/
theorem within_assign_event {f : Value} {fuel : ℕ} {there missing : Heap.Writing} (has : Bool)
    (hnext : ∀ v, v.Within (a.Sight handed) → (w.guest.assignLoop k fuel v).Within a handed k)
    (hv : v.Within (a.Sight handed)) (hf : f.Within (a.Sight handed))
    (hthere : there.Within a handed k) (hmissing : missing.Within a handed k) :
    (match f with
      | .nil => missing
      | f =>
        if has then there
        else if f.isFunction then .call f v
        else w.guest.assignLoop k fuel f).Within a handed k := by
  cases f with
  | nil => exact hmissing
  | _ =>
    simp only
    split
    · exact hthere
    · split
      · exact ⟨hf, hv⟩
      · exact hnext _ hf

/-- Writing comes to a function in sight, or to the one that refuses, or to a table in sight that is no proxy. -/
theorem assignLoop (hc : Confined a h₀ handed w) (fuel : ℕ) (hv : v.Within (a.Sight handed)) :
    (w.guest.assignLoop k fuel v).Within a handed k := by
  induction fuel generalizing v with
  | zero => trivial
  | succ fuel ih =>
    by_cases htable : ∃ r, v = .table r
    · obtain ⟨r, rfl⟩ := htable
      have hr := Value.within_table.mp hv
      rw [Heap.assignLoop_table]
      -- a proxy holds nothing, so its function is asked for every key
      by_cases hp : a.proxy r
      · obtain ⟨m, b, -, hs⟩ := hc.shuts hb hp
        rw [hs.guards.metamethod "__newindex", hs.guards.rawGet]
        exact ⟨Value.within_of_none rfl, hv⟩
      · have hraw : (Heap.assignRaw r k).Within a handed k := by
          unfold Heap.assignRaw
          split
          · next hkey => exact ⟨hr, hp, hkey⟩
          · trivial
        refine within_assign_event _ (fun v hv => ih hv) hv ?_ hraw hraw
        refine hc.metamethod_within hb hv (fun p heq => ?_) "__newindex"
        cases heq
        exact hp
    · have hmeta := hc.metamethod_within hb hv (fun p heq => absurd ⟨p, heq⟩ htable) "__newindex"
      have hfault : (Heap.Writing.fault v).Within a handed k := trivial
      have hnext := within_assign_event false (fun v hv => ih hv) hv hmeta hfault hfault
      cases v with
      | table r => exact absurd ⟨r, rfl⟩ htable
      | _ => exact hnext

theorem assign (hc : Confined a h₀ handed w) (hv : v.Within (a.Sight handed)) (k : Value) :
    (w.guest.assign v k).Within a handed k :=
  hc.assignLoop hb _ hv

/-! ## Changes -/

omit hb in
/-- A table outside is changed. -/
theorem modifyTable (hc : Confined a h₀ handed w) (hr : a.Outside r) {f : Table → Table}
    (hf : (w.guest.table r).Within (a.Sight handed) →
      (f (w.guest.table r)).Within (a.Sight handed)) :
    Confined a h₀ handed { w with guest := w.guest.modifyTable r f } where
  inside q hq := by
    rw [← hc.inside q hq]
    refine Heap.table_modifyTable_of_ne f ?_
    rintro rfl
    exact hq hr
  outside q hq := by
    by_cases hqr : q = r
    · subst hqr
      by_cases hlt : q < w.guest.tables.size
      · show ((w.guest.modifyTable q f).table q).Within _
        rw [Heap.table_modifyTable f hlt, if_pos rfl]
        exact hf (hc.outside q hq)
      · -- a table that is not there has no entries
        rw [Heap.table_of_size_le]
        · exact Table.within_empty
        · exact Nat.le_trans (Nat.le_of_eq (Heap.size_modifyTable f)) (Nat.le_of_not_lt hlt)
    · show ((w.guest.modifyTable r f).table q).Within _
      rw [Heap.table_modifyTable_of_ne f hqr]
      exact hc.outside q hq
  size := Nat.le_trans hc.size (Nat.le_of_eq (Heap.size_modifyTable f).symm)
  stringMeta := hc.stringMeta
  shared := hc.shared
  objects := hc.objects

/-- A new table is outside. -/
theorem allocTable (hc : Confined a h₀ handed w) :
    Confined a h₀ handed { w with guest := (w.guest.allocTable {}).2 } ∧
      a.Outside w.guest.tables.size := by
  have hnew : a.Outside w.guest.tables.size := .inr (Nat.le_trans (Nat.le_of_eq hb.last) hc.size)
  -- the new table has a place after the last one of the vault, and refers to nothing
  refine ⟨⟨fun q hq => ?_, fun q hq => ?_, ?_, hc.stringMeta, hc.shared, hc.objects⟩, hnew⟩
  · show (w.guest.allocTable {}).2.table q = _
    rw [Heap.table_allocTable, if_neg, hc.inside q hq]
    rintro rfl
    exact hq hnew
  · show ((w.guest.allocTable {}).2.table q).Within _
    rw [Heap.table_allocTable]
    split
    · exact Table.within_empty
    · exact hc.outside q hq
  · show _ ≤ (w.guest.allocTable {}).2.tables.size
    rw [Heap.size_allocTable]
    exact Nat.le_succ_of_le hc.size

end Confined

end

end ScriptHost.Guest
