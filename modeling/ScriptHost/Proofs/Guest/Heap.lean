import ScriptHost.Proofs.Guest.Table

/-!
# Tables in the heap

What the operations of the heap do to its tables, and the heaps in which no table is missing.

* `Heap.table_allocTable`, `Heap.table_modifyTable`: the tables after an operation.
* `Heap.Closed`: every table that is referred to is there, and every table is a map.
* `Heap.closed_start`: the heap of a new interpreter is closed.
* `Heap.Frame`: only tables differ.
-/

namespace ScriptHost.Guest

namespace Heap

variable {h h' : Heap} {t : Table} {r q : ℕ}

/-! ## Tables after an operation -/

theorem table_of_size_le (hr : h.tables.size ≤ r) : h.table r = {} := by
  rw [table, Array.getElem?_eq_none hr]
  rfl

@[simp] theorem size_allocTable : (h.allocTable t).2.tables.size = h.tables.size + 1 :=
  Array.size_push t

theorem table_allocTable :
    (h.allocTable t).2.table r = if r = h.tables.size then t else h.table r := by
  unfold table
  show ((h.tables.push t)[r]?).getD {} = _
  rw [Array.getElem?_push]
  split <;> rfl

theorem table_allocTable_self : (h.allocTable t).2.table (h.allocTable t).1 = t :=
  table_allocTable.trans (if_pos rfl)

@[simp] theorem size_modifyTable (f : Table → Table) :
    (h.modifyTable r f).tables.size = h.tables.size :=
  Array.size_modify

theorem table_modifyTable (f : Table → Table) (hr : r < h.tables.size) :
    (h.modifyTable r f).table q = if r = q then f (h.table q) else h.table q := by
  unfold table modifyTable
  simp only [Array.getElem?_modify]
  split
  · next heq =>
    subst heq
    rw [Array.getElem?_eq_getElem hr]
    rfl
  · rfl

theorem table_modifyTable_of_ne (f : Table → Table) (hq : q ≠ r) :
    (h.modifyTable r f).table q = h.table q := by
  unfold table modifyTable
  rw [Array.getElem?_modify, if_neg (Ne.symm hq)]

/-! ## Frames -/

/-- Nothing but tables differs. -/
def Frame (h h' : Heap) : Prop := h' = { h with tables := h'.tables }

theorem Frame.refl : Frame h h := rfl

theorem Frame.trans {h'' : Heap} (h₁ : Frame h h') (h₂ : Frame h' h'') : Frame h h'' := by
  unfold Frame at *
  rw [h₂, h₁]

theorem Frame.stringMeta (hf : Frame h h') : h'.stringMeta = h.stringMeta := by rw [hf]

theorem frame_allocTable : Frame h (h.allocTable t).2 := rfl

theorem frame_modifyTable (f : Table → Table) : Frame h (h.modifyTable r f) := rfl

/-! ## Closed heaps -/

/-- A heap in which no table is missing. -/
structure Closed (h : Heap) : Prop where
  /-- What a table refers to is there. -/
  within : ∀ r, (h.table r).Within (· < h.tables.size)
  indexed : ∀ r, (h.table r).Indexed
  stringMeta : ∀ r, h.stringMeta = some r → r < h.tables.size

theorem Closed.allocTable (hc : h.Closed) (ht : t.Within (· < h.tables.size)) (hi : t.Indexed) :
    (h.allocTable t).2.Closed where
  within r := by
    have hle : ∀ r, r < h.tables.size → r < (h.allocTable t).2.tables.size := by
      intro r hr
      rw [size_allocTable]
      omega
    rw [table_allocTable]
    split
    · exact ht.mono hle
    · exact (hc.within r).mono hle
  indexed r := by
    rw [table_allocTable]
    split
    · exact hi
    · exact hc.indexed r
  stringMeta r hr := by
    rw [size_allocTable]
    exact Nat.lt_succ_of_lt (hc.stringMeta r hr)

theorem Closed.allocNamed (hc : h.Closed) {fields : List (String × Value)}
    (hf : ∀ f ∈ fields, f.2.Within (· < h.tables.size)) :
    (h.allocTable (namedTable fields)).2.Closed :=
  hc.allocTable (Table.within_namedTable hf) (Table.indexed_namedTable fields)

theorem Closed.rawSetText (hc : h.Closed) (r : Ref) (name : String) {v : Value}
    (hv : v.Within (· < h.tables.size)) : (h.rawSetText r name v).Closed where
  within q := by
    show ((h.modifyTable r fun t => t.setText name v).table q).Within _
    rw [Heap.rawSetText, size_modifyTable]
    by_cases hq : q = r
    · by_cases hr : r < h.tables.size
      · rw [table_modifyTable _ hr, if_pos hq.symm]
        exact (hc.within q).setText name hv
      · rw [hq, table_of_size_le (by rw [size_modifyTable]; exact Nat.le_of_not_lt hr)]
        exact Table.within_empty
    · rw [table_modifyTable_of_ne _ hq]
      exact hc.within q
  indexed q := by
    show ((h.modifyTable r fun t => t.setText name v).table q).Indexed
    by_cases hq : q = r
    · by_cases hr : r < h.tables.size
      · rw [table_modifyTable _ hr, if_pos hq.symm]
        exact (hc.indexed q).setText name v
      · rw [hq, table_of_size_le (by rw [size_modifyTable]; exact Nat.le_of_not_lt hr)]
        exact Table.indexed_empty
    · rw [table_modifyTable_of_ne _ hq]
      exact hc.indexed q
  stringMeta q hq := by
    rw [Heap.rawSetText, size_modifyTable]
    exact hc.stringMeta q hq

theorem Closed.rawGet (hc : h.Closed) (r : Ref) (k : Value) :
    (h.rawGet r k).Within (· < h.tables.size) := by
  unfold Heap.rawGet
  split
  · exact (hc.within r).get _
  · exact Value.within_of_none rfl

/-! ## The heap of a new interpreter -/

/-- The functions of a library refer to no table. -/
theorem natives_within {α : Type} {S : Ref → Prop} (make : α → Native)
    (hmake : ∀ f, (Value.native (make f)).ref? = none) (names : List (String × α)) :
    ∀ f ∈ natives make names, f.2.Within S := by
  intro f hf
  obtain ⟨⟨name, g⟩, -, rfl⟩ := List.mem_map.mp hf
  exact Value.within_of_none (hmake g)

theorem namespaces_within {S : Ref → Prop} :
    ∀ entry ∈ namespaces, ∀ f ∈ entry.2, f.2.Within S := by
  have hconstants : ∀ f ∈ mathConstants, f.2.Within S := by
    intro f hf
    simp only [mathConstants, List.mem_cons, List.not_mem_nil, or_false] at hf
    rcases hf with rfl | rfl | rfl | rfl <;> exact Value.within_of_none rfl
  intro entry hentry
  simp only [namespaces, List.mem_cons, List.not_mem_nil, or_false] at hentry
  rcases hentry with rfl | rfl | rfl | rfl | rfl | rfl
  · exact natives_within _ (fun _ => rfl) _
  · exact natives_within _ (fun _ => rfl) _
  · intro f hf
    rcases List.mem_append.mp hf with hf | hf
    · exact natives_within _ (fun _ => rfl) _ f hf
    · exact hconstants f hf
  · intro f hf
    rcases List.mem_append.mp hf with hf | hf
    · exact natives_within _ (fun _ => rfl) _ f hf
    · cases List.mem_singleton.mp hf
      exact Value.within_of_none rfl
  · exact natives_within _ (fun _ => rfl) _
  · exact natives_within _ (fun _ => rfl) _

theorem Closed.addNamespace (hc : h.Closed) (r : Ref) {entry : String × List (String × Value)}
    (hentry : ∀ f ∈ entry.2, f.2.Within (· < h.tables.size)) :
    (h.addNamespace r entry).Closed := by
  unfold Heap.addNamespace
  refine (hc.allocNamed hentry).rawSetText r entry.1 (Value.within_table.mpr ?_)
  show h.tables.size < _
  rw [size_allocTable]
  exact Nat.lt_succ_self _

theorem closed_empty : ({} : Heap).Closed where
  within r := by
    rw [table_of_size_le (Nat.zero_le r)]
    exact Table.within_empty
  indexed r := by
    rw [table_of_size_le (Nat.zero_le r)]
    exact Table.indexed_empty
  stringMeta r hr := nomatch hr

theorem Closed.addNamespaces (hc : h.Closed) (r : Ref)
    {entries : List (String × List (String × Value))}
    (hentries : ∀ entry ∈ entries, ∀ f ∈ entry.2, ∀ S, f.2.Within S) :
    (entries.foldl (fun h entry => h.addNamespace r entry) h).Closed := by
  induction entries generalizing h with
  | nil => exact hc
  | cons entry entries ih =>
    exact ih (hc.addNamespace r fun f hf => hentries entry (by simp) f hf _)
      fun e he => hentries e (by simp [he])

theorem Closed.addStringMeta (hc : h.Closed) : h.addStringMeta.Closed := by
  have hfields : ∀ f ∈ ("__index", h.rawGet h.globals (.ofText "string"))
      :: natives .stringArith stringArithNames, f.2.Within (· < h.tables.size) := by
    intro f hf
    rcases List.mem_cons.mp hf with rfl | hf
    · exact hc.rawGet h.globals (.ofText "string")
    · exact natives_within _ (fun _ => rfl) _ f hf
  have halloc := hc.allocNamed hfields
  refine ⟨halloc.within, halloc.indexed, fun r hr => ?_⟩
  cases hr
  exact Nat.lt_of_lt_of_eq (Nat.lt_succ_self _) size_allocTable.symm

theorem size_addNamespaces (r : Ref) (entries : List (String × List (String × Value))) :
    h.tables.size ≤ (entries.foldl (fun h entry => h.addNamespace r entry) h).tables.size := by
  induction entries generalizing h with
  | nil => exact Nat.le_refl _
  | cons entry entries ih =>
    refine Nat.le_trans ?_ ih
    have hsize : (h.addNamespace r entry).tables.size = h.tables.size + 1 :=
      (size_modifyTable _).trans size_allocTable
    exact hsize ▸ Nat.le_succ _

theorem closed_start : start.Closed := by
  have hbase : ∀ f ∈ natives .base baseNames, f.2.Within (· < ({} : Heap).tables.size) :=
    natives_within _ (fun _ => rfl) _
  have hglobals := closed_empty.allocNamed hbase
  have hnamespaces := (Closed.mk hglobals.within hglobals.indexed hglobals.stringMeta :
    { (({} : Heap).allocTable (namedTable (natives .base baseNames))).2 with
      globals := (0 : Ref) }.Closed).addNamespaces 0 fun entry hentry f hf _ =>
        namespaces_within entry hentry f hf
  refine Closed.addStringMeta (Closed.rawSetText (Closed.rawSetText hnamespaces _ _ ?_) _ _ ?_)
  · refine Value.within_table.mpr (Nat.lt_of_lt_of_le ?_ (size_addNamespaces _ _))
    exact Nat.zero_lt_one
  · exact Value.within_of_none rfl

end Heap

end ScriptHost.Guest
