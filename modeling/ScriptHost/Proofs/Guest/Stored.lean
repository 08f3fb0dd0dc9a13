import ScriptHost.Proofs.Guest.Contents

/-!
# How tables are stored

A table holds a value for each key. It also has an order, and a table can hold the same in any other one.

* `Table.Stores`: what a table without a metatable holds.
* `Table.stores_fresh`, `Table.Stores.set`: new tables, and setting an entry.
* `Table.Stores.arrange`: the entries in any order.
-/

namespace ScriptHost.Guest.Table

/-- A table without a metatable that holds what `c` says. In which order it does is left open, and so is what size a
constructor announced, as long as there are keys for it. -/
structure Stores (t : Table) (c : Key → Value) : Prop where
  indexed : t.Indexed
  keyed : t.Keyed
  hint : t.hint < maxKey
  metatable : t.metatable = none
  get : ∀ k, t.get k = c k

variable {t : Table} {c : Key → Value}

/-! ## What a table holds -/

theorem stores_fresh {hint : ℕ} (hhint : hint < maxKey) : Stores { hint := hint } fun _ => .nil where
  indexed := indexed_empty
  keyed := keyed_empty
  hint := hhint
  metatable := rfl
  get _ := get_empty

/-- Setting an entry changes what a table holds at its key, and nothing else. -/
theorem Stores.set (ht : t.Stores c) {u : Value} {k : Key} (hk : u.toKey? = some k) (v : Value) :
    (t.set k v).Stores fun a => if k = a then v else c a where
  indexed := ht.indexed.set k v
  keyed := ht.keyed.set ht.indexed hk v
  hint := by
    rw [hint_set]
    exact ht.hint
  metatable := by
    rw [metatable_set]
    exact ht.metatable
  get a := by rw [get_set ht.indexed, ht.get]

theorem Stores.mem_keys (ht : t.Stores c) (k : Key) : k ∈ t.entries.map Prod.fst ↔ (c k).isNil = false := by
  rw [List.mem_map]
  constructor
  · rintro ⟨⟨k, v⟩, hmem, rfl⟩
    obtain ⟨rfl, hv⟩ := (mem_entries ht.indexed).mp hmem
    rwa [ht.get] at hv
  · intro hk
    exact ⟨(k, t.get k), (mem_entries ht.indexed).mpr ⟨rfl, by rwa [ht.get]⟩, rfl⟩

theorem Stores.eq_of_mem (ht : t.Stores c) {e : Key × Value} (he : e ∈ t.entries) : e.2 = c e.1 := by
  rw [← ht.get]
  exact ((mem_entries ht.indexed).mp he).1.symm

/-! ## Orders -/

/-- A table with some entries, in their order. -/
def arrange (hint : ℕ) (es : List (Key × Value)) : Table :=
  es.foldl (fun t e => t.set e.1 e.2) { hint := hint }

theorem arrange_append (hint : ℕ) (es : List (Key × Value)) (e : Key × Value) :
    arrange hint (es ++ [e]) = (arrange hint es).set e.1 e.2 := by
  rw [arrange, List.foldl_append]
  rfl

theorem stores_arrange {hint : ℕ} (hhint : hint < maxKey) {es : List (Key × Value)}
    (hkeyed : ∀ e ∈ es, ∃ u : Value, u.toKey? = some e.1) : (arrange hint es).Stores (arrange hint es).get := by
  induction es using List.reverseRecOn with
  | nil => exact { stores_fresh hhint with get := fun _ => rfl }
  | append_singleton es e ih =>
    obtain ⟨u, hu⟩ := hkeyed e (by simp)
    have hrest := ih fun e' he' => hkeyed e' (List.mem_append_left _ he')
    rw [arrange_append]
    exact { hrest.set hu e.2 with get := fun _ => rfl }

/-- New entries are stored one after the other. -/
theorem slots_arrange {hint : ℕ} (hhint : hint < maxKey) {es : List (Key × Value)}
    (hkeyed : ∀ e ∈ es, ∃ u : Value, u.toKey? = some e.1) (hnodup : (es.map Prod.fst).Nodup)
    (hvalues : ∀ e ∈ es, e.2.isNil = false) : (arrange hint es).slots.toList = es := by
  induction es using List.reverseRecOn with
  | nil => rfl
  | append_singleton es e ih =>
    rw [List.map_append, List.nodup_append] at hnodup
    have hold : ∀ e' ∈ es, ∃ u : Value, u.toKey? = some e'.1 := fun e' he' => hkeyed e' (List.mem_append_left _ he')
    have hslots := ih hold hnodup.1 fun e' he' => hvalues e' (List.mem_append_left _ he')
    have hnew : e.1 ∉ (arrange hint es).keys := by
      rw [keys, hslots]
      exact fun hmem => hnodup.2.2 _ hmem _ (List.mem_singleton_self _) rfl
    have hindexed := (stores_arrange hhint hold).indexed
    rw [arrange_append, set_new (hindexed.index_eq_none.mpr hnew) (hvalues e (by simp))]
    simp [hslots]

theorem entries_arrange {hint : ℕ} (hhint : hint < maxKey) {es : List (Key × Value)}
    (hkeyed : ∀ e ∈ es, ∃ u : Value, u.toKey? = some e.1) (hnodup : (es.map Prod.fst).Nodup)
    (hvalues : ∀ e ∈ es, e.2.isNil = false) : (arrange hint es).entries = es := by
  rw [entries, slots_arrange hhint hkeyed hnodup hvalues]
  exact List.filter_eq_self.mpr fun e he => by rw [hvalues e he]; rfl

/-- The entries say what a table holds. -/
theorem get_eq_of_perm {t' : Table} (h : t.Indexed) (h' : t'.Indexed) (hperm : t'.entries.Perm t.entries) (k : Key) :
    t'.get k = t.get k := by
  have hsame (v : Value) : t'.get k = v ∧ v.isNil = false ↔ t.get k = v ∧ v.isNil = false := by
    rw [← mem_entries h, ← mem_entries h', hperm.mem_iff]
  cases hnil : (t'.get k).isNil with
  | false => exact ((hsame _).mp ⟨rfl, hnil⟩).1.symm
  | true =>
    cases hnil' : (t.get k).isNil with
    | false => exact ((hsame _).mpr ⟨rfl, hnil'⟩).1
    | true => rw [Value.isNil_iff.mp hnil, Value.isNil_iff.mp hnil']

/-- The entries of a table can be stored in every order. -/
theorem Stores.arrange (ht : t.Stores c) {es : List (Key × Value)} (hperm : es.Perm t.entries) :
    (Table.arrange t.hint es).Stores c ∧ (Table.arrange t.hint es).entries = es := by
  have hkeyed : ∀ e ∈ es, ∃ u : Value, u.toKey? = some e.1 := fun e he =>
    ht.keyed _ (List.mem_map_of_mem (List.mem_of_mem_filter (hperm.mem_iff.mp he)))
  have hnodup : (es.map Prod.fst).Nodup := (hperm.map Prod.fst).nodup_iff.mpr ht.indexed.nodup_entries
  have hvalues : ∀ e ∈ es, e.2.isNil = false := fun e he =>
    ((mem_entries ht.indexed).mp (hperm.mem_iff.mp he)).2
  have hentries := entries_arrange ht.hint hkeyed hnodup hvalues
  have hstores := stores_arrange ht.hint hkeyed
  have hget (k : Key) : (Table.arrange t.hint es).get k = c k :=
    (get_eq_of_perm ht.indexed hstores.indexed (by rw [hentries]; exact hperm) k).trans (ht.get k)
  exact ⟨{ hstores with get := hget }, hentries⟩

end ScriptHost.Guest.Table
